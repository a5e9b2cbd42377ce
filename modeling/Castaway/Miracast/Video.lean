import Mathlib.Tactic.Common

/-!
# Video modes of a Miracast session

The three resolution tables of `video.rs` and the entries that can be named in
them.  A `ResolutionIndex` cannot point past the end of its table, so it always
stands for a mode, and every mode has pixels (`ResolutionIndex.hasPixels`).
-/

namespace Castaway.Miracast

/-- Which of the three resolution tables an index refers to. -/
inductive ResolutionTable where
  | cea
  | vesa
  | hh
  deriving DecidableEq, Repr

/-- One entry in a resolution table. -/
structure VideoMode where
  width : UInt16
  height : UInt16
  fps : UInt8
  interlaced : Bool
  deriving DecidableEq, Repr

/-- Bit `n` of the CEA mask is entry `n` here. -/
def ceaModes : List VideoMode :=
  [⟨640, 480, 60, false⟩, ⟨720, 480, 60, false⟩, ⟨720, 480, 60, true⟩, ⟨720, 576, 50, false⟩,
    ⟨720, 576, 50, true⟩, ⟨1280, 720, 30, false⟩, ⟨1280, 720, 60, false⟩,
    ⟨1920, 1080, 30, false⟩, ⟨1920, 1080, 60, false⟩, ⟨1920, 1080, 60, true⟩,
    ⟨1280, 720, 25, false⟩, ⟨1280, 720, 50, false⟩, ⟨1920, 1080, 25, false⟩,
    ⟨1920, 1080, 50, false⟩, ⟨1920, 1080, 50, true⟩, ⟨1280, 720, 24, false⟩,
    ⟨1920, 1080, 24, false⟩]

def vesaModes : List VideoMode :=
  [⟨800, 600, 30, false⟩, ⟨800, 600, 60, false⟩, ⟨1024, 768, 30, false⟩,
    ⟨1024, 768, 60, false⟩, ⟨1152, 864, 30, false⟩, ⟨1152, 864, 60, false⟩,
    ⟨1280, 768, 30, false⟩, ⟨1280, 768, 60, false⟩, ⟨1280, 800, 30, false⟩,
    ⟨1280, 800, 60, false⟩, ⟨1360, 768, 30, false⟩, ⟨1360, 768, 60, false⟩,
    ⟨1366, 768, 30, false⟩, ⟨1366, 768, 60, false⟩, ⟨1280, 1024, 30, false⟩,
    ⟨1280, 1024, 60, false⟩, ⟨1400, 1050, 30, false⟩, ⟨1400, 1050, 60, false⟩,
    ⟨1440, 900, 30, false⟩, ⟨1440, 900, 60, false⟩, ⟨1600, 900, 30, false⟩,
    ⟨1600, 900, 60, false⟩, ⟨1600, 1200, 30, false⟩, ⟨1600, 1200, 60, false⟩,
    ⟨1680, 1024, 30, false⟩, ⟨1680, 1024, 60, false⟩, ⟨1680, 1050, 30, false⟩,
    ⟨1680, 1050, 60, false⟩, ⟨1920, 1200, 30, false⟩]

def hhModes : List VideoMode :=
  [⟨800, 480, 30, false⟩, ⟨800, 480, 60, false⟩, ⟨854, 480, 30, false⟩, ⟨854, 480, 60, false⟩,
    ⟨864, 480, 30, false⟩, ⟨864, 480, 60, false⟩, ⟨640, 360, 30, false⟩, ⟨640, 360, 60, false⟩,
    ⟨960, 540, 30, false⟩, ⟨960, 540, 60, false⟩, ⟨848, 480, 30, false⟩, ⟨848, 480, 60, false⟩]

def ResolutionTable.modes : ResolutionTable → List VideoMode
  | cea => ceaModes
  | vesa => vesaModes
  | hh => hhModes

/-- A table and an index that names a real entry in it. -/
structure ResolutionIndex where
  table : ResolutionTable
  index : UInt8
  valid : index.toNat < table.modes.length
  deriving DecidableEq

namespace ResolutionIndex

/-- The entry at `index` of `table`, if that entry is defined. -/
def new (table : ResolutionTable) (index : UInt8) : Option ResolutionIndex :=
  if h : index.toNat < table.modes.length then some ⟨table, index, h⟩ else none

def mode (entry : ResolutionIndex) : VideoMode :=
  entry.table.modes.get ⟨entry.index.toNat, entry.valid⟩

end ResolutionIndex

def VideoMode.HasPixels (mode : VideoMode) : Prop := 0 < mode.width ∧ 0 < mode.height

instance (mode : VideoMode) : Decidable mode.HasPixels := inferInstanceAs (Decidable (_ ∧ _))

theorem ResolutionTable.hasPixels (table : ResolutionTable) :
    ∀ mode ∈ table.modes, mode.HasPixels := by
  cases table <;> decide

theorem ResolutionIndex.hasPixels (entry : ResolutionIndex) : entry.mode.HasPixels :=
  entry.table.hasPixels _ (List.get_mem _ _)

end Castaway.Miracast
