import Castaway.Kiosk.Router
import Castaway.Miracast.UibcCodec
import Castaway.Miracast.Video

/-!
# The panel driving a Miracast source

`VideoGeometry`, `Contacts` and `UibcSurface` of `uibc.rs`.  A touch is mapped
from the panel into the stream's pixels, its contact to one of 256 pointer ids,
and what it says is queued as one frame.  The queue holds thirty-two frames; one
more is dropped.

The arithmetic of the geometry is `F32`, a type with the operations of `f32`;
`LawfulF32` collects what IEEE 754 promises of them on fractions and 16-bit
integers, which is what keeps a coordinate inside the picture.
-/

namespace Castaway.Miracast

open Castaway.Kiosk (TouchPhase)

/-! ## The geometry -/

/-- What the source computes with single-precision numbers. -/
class F32 (R : Type*) extends Zero R, One R, Sub R, Mul R, Div R where
  /-- `f32::from` -/
  ofU16 : UInt16 → R
  /-- `as f32` -/
  ofU32 : UInt32 → R
  lt : R → R → Bool
  le : R → R → Bool
  /-- `f32::round` -/
  round : R → R
  /-- `as u16` -/
  toU16 : R → UInt16

/-- Multiplication and rounding are monotone, and exact on 16-bit integers. -/
class LawfulF32 (R : Type*) [F32 R] : Prop where
  zero_le (n : UInt16) : F32.le (0 : R) (F32.ofU16 n)
  ofU16_le {m n : UInt16} (h : m ≤ n) : F32.le (F32.ofU16 m : R) (F32.ofU16 n)
  le_of_lt_of_le {a b c : R} (hab : F32.lt a b) (hbc : F32.le b c) : F32.le a c
  mul_le {a : R} (n : UInt16) (hzero : F32.le 0 a) (hone : F32.le a 1) :
    F32.le (a * F32.ofU16 n) (F32.ofU16 n)
  round_le {a : R} {n : UInt16} (h : F32.le a (F32.ofU16 n)) :
    F32.le (F32.round a) (F32.ofU16 n)
  toU16_le {a : R} {n : UInt16} (h : F32.le a (F32.ofU16 n)) : F32.toU16 a ≤ n

variable {R : Type*} [F32 R]

/-- `f32::clamp` -/
def clamp (x low high : R) : R :=
  if F32.lt x low then low else if F32.lt high x then high else x

def toPixel (fraction : R) (extent : UInt16) : UInt16 :=
  let last : UInt16 := if extent = 0 then 0 else extent - 1
  F32.toU16 (clamp (F32.round (fraction * F32.ofU16 last)) 0 (F32.ofU16 65535))

/-- How the negotiated picture sits on the panel: the fraction of the panel it
takes each way. -/
structure VideoGeometry (R : Type*) where
  mode : VideoMode
  scaleX : R
  scaleY : R
  deriving DecidableEq

namespace VideoGeometry

/-- `mode` letterboxed to fit a panel, preserving its aspect. -/
def letterboxed (mode : VideoMode) (panelWidth panelHeight : UInt32) : VideoGeometry R :=
  let panelAspect : R := F32.ofU32 (max panelWidth 1) / F32.ofU32 (max panelHeight 1)
  let videoAspect : R := F32.ofU16 (max mode.width 1) / F32.ofU16 (max mode.height 1)
  if F32.lt panelAspect videoAspect then ⟨mode, 1, panelAspect / videoAspect⟩
  else ⟨mode, videoAspect / panelAspect, 1⟩

def fullscreen (mode : VideoMode) : VideoGeometry R := ⟨mode, 1, 1⟩

def onPicture (fraction : R) : Bool := F32.le 0 fraction && F32.le fraction 1

/-- Map a point of the panel into the stream's pixels.  A letterbox bar has
none. -/
def mapFromPanel (geometry : VideoGeometry R) (x y : R) : Option SourcePixel :=
  let insetX := (1 - geometry.scaleX) / F32.ofU16 2
  let insetY := (1 - geometry.scaleY) / F32.ofU16 2
  let inX := (x - insetX) / geometry.scaleX
  let inY := (y - insetY) / geometry.scaleY
  if !onPicture inX || !onPicture inY then none
  else some ⟨toPixel inX geometry.mode.width, toPixel inY geometry.mode.height⟩

end VideoGeometry

/-! ## The contacts -/

/-- A live contact: the router's id, the pointer id and the last place in the
picture. -/
structure Contact where
  contact : UInt64
  pointer : Pointer
  deriving DecidableEq, Repr

/-- The live contacts, and which of the 256 pointer ids are taken. -/
structure Contacts where
  live : List Contact := []
  used : UInt8 → Bool := fun _ => false

namespace Contacts

def get (contacts : Contacts) (contact : UInt64) : Option Pointer :=
  (contacts.live.find? (·.contact == contact)).map (·.pointer)

def free (used : UInt8 → Bool) : Option UInt8 :=
  ((List.range 256).map UInt8.ofNat).find? (fun id => !used id)

def claim (contacts : Contacts) (contact : UInt64) (position : SourcePixel) :
    Contacts × Option UInt8 :=
  match contacts.get contact with
  | some pointer =>
    ({ contacts with
        live := contacts.live.map fun c =>
          if c.contact == contact then ⟨contact, pointer.id, position⟩ else c },
      some pointer.id)
  | none =>
    match free contacts.used with
    | none => (contacts, none)
    | some id =>
      ({ live := contacts.live ++ [⟨contact, id, position⟩]
         used := Function.update contacts.used id true },
        some id)

def release (contacts : Contacts) (contact : UInt64) : Contacts × Option Pointer :=
  match contacts.get contact with
  | none => (contacts, none)
  | some pointer =>
    ({ live := contacts.live.filter fun c => !(c.contact == contact)
       used := Function.update contacts.used pointer.id false },
      some pointer)

end Contacts

/-! ## The queue and the surface -/

/-- How many encoded frames may wait for the socket. -/
def uibcQueue : ℕ := 32

/-- A bounded channel: everything it ever took, and how much of that has been
received. -/
structure FrameQueue where
  sent : List Bytes := []
  received : ℕ := 0
  deriving DecidableEq

namespace FrameQueue

def waiting (queue : FrameQueue) : ℕ := queue.sent.length - queue.received

/-- `try_send`, which fails when the channel is full. -/
def trySend (queue : FrameQueue) (frame : Bytes) : FrameQueue :=
  if queue.waiting < uibcQueue then { queue with sent := queue.sent ++ [frame] } else queue

def recv (queue : FrameQueue) : FrameQueue :=
  if 0 < queue.waiting then { queue with received := queue.received + 1 } else queue

end FrameQueue

/-- What the router says of one contact, in fractions of the panel. -/
structure SurfaceTouch (R : Type*) where
  contact : UInt64
  phase : TouchPhase
  x : R
  y : R
  deriving DecidableEq

/-- The sink end of the back-channel. -/
structure UibcSurface (R : Type*) where
  mode : VideoMode
  geometry : VideoGeometry R
  frames : FrameQueue := {}
  contacts : Contacts := {}

namespace UibcSurface

def new (mode : VideoMode) : UibcSurface R where
  mode := mode
  geometry := .fullscreen mode

def frameOf (message : GenericInput) : Bytes := (UibcFrame.generic [message] none).encode

/-- Queue one message, dropping it if the socket is behind. -/
def send (surface : UibcSurface R) (message : GenericInput) : UibcSurface R :=
  { surface with frames := surface.frames.trySend (frameOf message) }

/-- A contact that comes up or is cancelled is released where it was last inside
the picture, not wherever the finger left from. -/
def lift (surface : UibcSurface R) (contact : UInt64) (inside : Option SourcePixel) :
    UibcSurface R :=
  match surface.contacts.release contact with
  | (_, none) => surface
  | (contacts, some pointer) =>
    { surface with contacts := contacts }.send
      (.touchUp [⟨pointer.id, inside.getD pointer.position⟩])

def touch (surface : UibcSurface R) (touch : SurfaceTouch R) : UibcSurface R :=
  let inside := surface.geometry.mapFromPanel touch.x touch.y
  match touch.phase with
  | .down =>
    match inside with
    -- a press that starts on a bar is not a press on the picture
    | none => surface
    | some position =>
      match surface.contacts.claim touch.contact position with
      | (contacts, none) => { surface with contacts := contacts }
      | (contacts, some id) =>
        { surface with contacts := contacts }.send (.touchDown [⟨id, position⟩])
  | .move =>
    match inside, surface.contacts.get touch.contact with
    | some position, some pointer =>
      { surface with contacts := (surface.contacts.claim touch.contact position).1 }.send
        (.touchMove [⟨pointer.id, position⟩])
    | _, _ => surface
  | .up | .cancel => surface.lift touch.contact inside

def panelResized (surface : UibcSurface R) (width height : UInt32) : UibcSurface R :=
  { surface with geometry := .letterboxed surface.mode width height }

/-- Release every contact in one frame.  `drained` is the live contacts in the
order the table gives them up. -/
def cancelAll (surface : UibcSurface R) (drained : List Contact) : UibcSurface R :=
  let surface := { surface with contacts := {} }
  if drained.isEmpty then surface else surface.send (.touchUp (drained.map (·.pointer)))

end UibcSurface

end Castaway.Miracast
