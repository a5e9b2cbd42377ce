import Castaway.Browser.Host
import Castaway.Lib.Runs

/-!
# The frames the browser lends

A painted frame is borrowed.  It waits in its window's slot, rides a texture of
the compositor, or has been returned, and for every identifier these three add
up to the paints that named it (`Kept.balanced`).

A paint of another number of planes than one, whose descriptors came, falls
through: `handle` returns early and the frame is in none of the three places.  A
block of audio with a media time of `2 ^ 64` seconds or more ends the reader
thread.  `Accepted` rules out these two, and **the headline result**
`returned_iff_accepted` says that nothing else does harm.
-/

namespace Castaway.Browser

open ElectronHost
open Function List

/-! ## Where a frame is -/

def Entry.paints (id : ℕ) : Entry → Bool
  | .painted _ named => named = id
  | _ => false

namespace Electron

/-- How many paints named `id`. -/
def paints (e : Electron) (id : ℕ) : ℕ := e.log.countP (Entry.paints id)

/-- How many releases named `id`. -/
def releases (e : Electron) (id : ℕ) : ℕ := e.log.count (.sent (.release id))

end Electron

def slotHolds (id : ℕ) (slot : Option PendingPaint) : ℕ :=
  if slot.any (·.id = id) then 1 else 0

def Electron.waiting (e : Electron) (id : ℕ) : ℕ :=
  slotHolds id (e.pending .widget) + slotHolds id (e.pending .page)

namespace ElectronHost

variable {panel : Panel} {engine : Engine}

def Holds (h : ElectronHost panel) (e : Electron) (id : ℕ) : Prop :=
  (∃ surface paint, e.pending surface = some paint ∧ paint.id = id) ∨
    { serial := e.serial, id } ∈ h.composited

/-- **Every frame lent is accounted for**, as long as the control socket is
open: the reader thread runs, and a frame is named by no release while something
holds it and by one when nothing does. -/
structure Returned (h : ElectronHost panel) : Prop where
  reading : ∀ e, h.electron = some e → e.connected = true → e.reading = true
  held : ∀ e, h.electron = some e → e.connected = true →
    ∀ surface id, .painted surface id ∈ e.log → h.Holds e id → e.releases id = 0
  returned : ∀ e, h.electron = some e → e.connected = true →
    ∀ surface id, .painted surface id ∈ e.log → ¬ h.Holds e id → e.releases id = 1
  only : ∀ e, h.electron = some e → e.connected = true →
    ∀ id, e.releases id ≠ 0 → ∃ surface, .painted surface id ∈ e.log

/-! ## The condition -/

def mixes (engine : Engine) (e : Electron) (block : AudioBlock) : Bool :=
  !block.paused && engine.decodesPcm block.pcm &&
    match e.audio with
    | none => false
    | some started => started || engine.resamples block.sampleRate block.channels

/-- The message does no harm: a paint whose descriptors came has one plane, and
audio that is mixed has a media time a `Duration` can hold. -/
def Harmless (engine : Engine) (e : Electron) (fds : ℕ) : FromBrowser → Prop
  | .paint paint => paint.fdTransport = .scm ∧ fds = 0 ∨ paint.planes.length = 1
  | .audio block => mixes engine e block = true → overflowsDuration block.mediaTime = false
  | _ => True

def Accepted (engine : Engine) (h : ElectronHost panel) : Step panel → Prop
  | .message msg fds => ∀ e, h.electron = some e → e.connected = true →
      Harmless engine e fds msg
  | _ => True

def Unique (h : ElectronHost panel) : Step panel → Prop
  | .message (.paint paint) _ => ∀ e, h.electron = some e → e.paints paint.id = 0
  | _ => True

end ElectronHost

/-! ## Counting -/

namespace Electron

variable {e : Electron} {id : ℕ}

theorem paints_note (entry : Entry) :
    (e.note entry).paints id = e.paints id + if entry.paints id then 1 else 0 := by
  simp [paints, note, countP_append, countP_cons]

theorem releases_note (entry : Entry) :
    (e.note entry).releases id = e.releases id + if entry = .sent (.release id) then 1 else 0 := by
  simp [releases, note, count_append, count_cons]

theorem mem_log_iff : (∃ surface, .painted surface id ∈ e.log) ↔ 0 < e.paints id := by
  unfold paints
  rw [countP_pos_iff]
  constructor
  · rintro ⟨surface, hmem⟩
    exact ⟨_, hmem, by simp [Entry.paints]⟩
  · rintro ⟨entry, hmem, hnames⟩
    cases entry with
    | painted surface named =>
      obtain rfl : named = id := by simpa [Entry.paints] using hnames
      exact ⟨surface, hmem⟩
    | sent | faulted | abandoned => cases hnames

/-- The fields the books are about, apart from the log. -/
structure SameSlots (e e' : Electron) : Prop where
  serial : e'.serial = e.serial
  reading : e'.reading = e.reading
  connected : e'.connected = e.connected
  pending : e'.pending = e.pending

/-- Neither lends a frame nor returns one. -/
structure Idle (e e' : Electron) : Prop extends SameSlots e e' where
  paints : ∀ id, e'.paints id = e.paints id
  releases : ∀ id, e'.releases id = e.releases id

theorem Idle.refl (e : Electron) : Idle e e := ⟨⟨rfl, rfl, rfl, rfl⟩, fun _ => rfl, fun _ => rfl⟩

theorem Idle.trans {e' e'' : Electron} (h : Idle e e') (h' : Idle e' e'') : Idle e e'' where
  serial := h'.serial.trans h.serial
  reading := h'.reading.trans h.reading
  connected := h'.connected.trans h.connected
  pending := h'.pending.trans h.pending
  paints := fun id => (h'.paints id).trans (h.paints id)
  releases := fun id => (h'.releases id).trans (h.releases id)

theorem idle_note {entry : Entry} (hpaints : ∀ id, entry.paints id = false)
    (hreleases : ∀ id, entry ≠ .sent (.release id)) : Idle e (e.note entry) := by
  refine ⟨⟨rfl, rfl, rfl, rfl⟩, fun id => ?_, fun id => ?_⟩
  · simp [paints_note, hpaints id]
  · simp [releases_note, hreleases id]

theorem idle_send {msg : ToBrowser} (hmsg : ∀ id, msg ≠ .release id) : Idle e (e.send msg) := by
  unfold send
  split
  · exact idle_note (fun _ => rfl) fun id => by simpa using hmsg id
  · exact .refl e

theorem idle_sends {msgs : List ToBrowser} (hmsgs : ∀ msg ∈ msgs, ∀ id, msg ≠ .release id) :
    Idle e (e.sends msgs) := by
  induction msgs generalizing e with
  | nil => exact .refl e
  | cons msg msgs ih =>
    obtain ⟨hfirst, hrest⟩ := forall_mem_cons.mp hmsgs
    exact (idle_send hfirst).trans (ih hrest)

theorem idle_report (surface : Option Surface) (reason : String) :
    Idle e (e.report surface reason) := by
  have hposted : Idle e { e with fault := setFault e.fault surface reason } :=
    ⟨⟨rfl, rfl, rfl, rfl⟩, fun _ => rfl, fun _ => rfl⟩
  exact hposted.trans (idle_note (fun _ => rfl) nofun)

/-- A release is written as long as the socket is open. -/
theorem releases_send (hconnected : e.connected = true) (returned : ℕ) :
    (e.send (.release returned)).releases id = e.releases id + if returned = id then 1 else 0 := by
  simp [send, hconnected, releases_note]

theorem paints_send (msg : ToBrowser) : (e.send msg).paints id = e.paints id := by
  unfold send
  split
  · simp [paints_note, Entry.paints]
  · rfl

theorem sameSlots_send (msg : ToBrowser) : SameSlots e (e.send msg) := by
  unfold send
  split
  · exact ⟨rfl, rfl, rfl, rfl⟩
  · exact ⟨rfl, rfl, rfl, rfl⟩

theorem waiting_setPending (surface : Surface) (slot : Option PendingPaint) :
    (e.setPending surface slot).waiting id + slotHolds id (e.pending surface) =
      e.waiting id + slotHolds id slot := by
  unfold waiting setPending
  cases surface with
  | widget =>
    have hpage : update e.pending .widget slot .page = e.pending .page :=
      update_of_ne (by decide) ..
    simp only [update_self, hpage]
    omega
  | page =>
    have hwidget : update e.pending .page slot .widget = e.pending .widget :=
      update_of_ne (by decide) ..
    simp only [update_self, hwidget]
    omega

theorem waiting_pos :
    0 < e.waiting id ↔ ∃ surface paint, e.pending surface = some paint ∧ paint.id = id := by
  have hslot (slot : Option PendingPaint) :
      0 < slotHolds id slot ↔ ∃ paint, slot = some paint ∧ paint.id = id := by
    cases slot with
    | none => simp [slotHolds]
    | some paint =>
      by_cases hid : paint.id = id
      · simp [slotHolds, hid]
      · simp [slotHolds, hid]
  unfold waiting
  rw [Nat.add_pos_iff_pos_or_pos, hslot, hslot]
  constructor
  · rintro (hwidget | hpage)
    · exact ⟨.widget, hwidget⟩
    · exact ⟨.page, hpage⟩
  · rintro ⟨surface, hpaint⟩
    cases surface with
    | widget => exact .inl hpaint
    | page => exact .inr hpaint

end Electron

namespace ElectronHost

variable {panel : Panel} {engine : Engine} {h h' : ElectronHost panel} {e : Electron}

/-! ## The books -/

/-- What holds of the process, with the frames that ride textures.  The frame
`owed`, if there is one, is in none of the places where it should be. -/
structure Balanced (composited : List InFlight) (e : Electron) (owed : Option ℕ) : Prop where
  reading : e.reading = true
  once : ∀ id, e.paints id ≤ 1
  /-- A frame waits, rides a texture or was returned. -/
  balanced : ∀ id, e.paints id =
    e.waiting id + composited.count ⟨e.serial, id⟩ + e.releases id + if owed = some id then 1 else 0

/-- What holds in every state of a run whose messages do no harm. -/
structure Kept (h : ElectronHost panel) : Prop where
  past : ∀ frame ∈ h.composited, frame.serial < h.processes
  current : ∀ e, h.electron = some e → e.serial < h.processes
  balanced : ∀ e, h.electron = some e → e.connected = true → Balanced h.composited e none

variable {composited : List InFlight} {owed : Option ℕ} {id fds : ℕ} {msg : FromBrowser}

theorem Balanced.idle {e' : Electron} (h : Balanced composited e owed) (hidle : e.Idle e') :
    Balanced composited e' owed where
  reading := hidle.reading.trans h.reading
  once := fun id => (hidle.paints id).symm ▸ h.once id
  balanced := by
    intro id
    have hwaiting : e'.waiting id = e.waiting id := by
      unfold Electron.waiting
      rw [hidle.pending]
    rw [hidle.paints, hidle.releases, hidle.serial, hwaiting]
    exact h.balanced id

/-! ### One frame, from place to place -/

/-- A paint is read: its frame is ours to place. -/
theorem Balanced.painted (h : Balanced composited e none) (surface : Surface)
    (hunique : e.paints id = 0) : Balanced composited (e.note (.painted surface id)) (some id) := by
  have hpaints (k : ℕ) : (e.note (.painted surface id)).paints k =
      e.paints k + if id = k then 1 else 0 := by
    rw [Electron.paints_note]
    simp [Entry.paints]
  refine ⟨h.reading, fun k => ?_, fun k => ?_⟩
  · rw [hpaints]
    split
    next hid => rw [← hid, hunique]
    next => exact h.once k
  · have hsum := h.balanced k
    have hreleases : (e.note (.painted surface id)).releases k = e.releases k := by
      simp [Electron.releases_note]
    rw [hpaints, hreleases]
    change _ = e.waiting k + composited.count ⟨e.serial, k⟩ + e.releases k + _
    simp only [reduceCtorEq, if_false, Option.some.injEq] at hsum ⊢
    omega

theorem Balanced.release (h : Balanced composited e (some id))
    (hconnected : e.connected = true) : Balanced composited (e.send (.release id)) none := by
  have hslots := @Electron.sameSlots_send e (.release id)
  refine ⟨hslots.reading.trans h.reading, fun k => ?_, fun k => ?_⟩
  · rw [Electron.paints_send]
    exact h.once k
  · have hsum := h.balanced k
    have hwaiting : (e.send (.release id)).waiting k = e.waiting k := by
      unfold Electron.waiting
      rw [hslots.pending]
    rw [Electron.paints_send, Electron.releases_send hconnected, hslots.serial, hwaiting]
    simp only [reduceCtorEq, if_false, Option.some.injEq] at hsum ⊢
    omega

/-- The frame owed is put in a slot, and the one that was there is owed. -/
theorem Balanced.fill {waiting : PendingPaint} (h : Balanced composited e (some waiting.id))
    (surface : Surface) : Balanced composited (e.setPending surface (some waiting))
      ((e.pending surface).map PendingPaint.id) := by
  refine ⟨h.reading, h.once, fun k => ?_⟩
  have hsum := h.balanced k
  have hset := @Electron.waiting_setPending e k surface (some waiting)
  change e.paints k = (e.setPending surface (some waiting)).waiting k +
    composited.count ⟨e.serial, k⟩ + e.releases k + _
  cases hslot : e.pending surface with
  | none =>
    rw [hslot] at hset
    simp only [slotHolds, Option.any_none, Option.any_some, Bool.false_eq_true, if_false,
      decide_eq_true_eq, Option.map_none, reduceCtorEq, Option.some.injEq] at hset hsum ⊢
    omega
  | some old =>
    rw [hslot] at hset
    simp only [slotHolds, Option.any_some, decide_eq_true_eq, Option.map_some,
      Option.some.injEq] at hset hsum ⊢
    omega

theorem Balanced.take {surface : Surface} {paint : PendingPaint} (h : Balanced composited e none)
    (hslot : e.pending surface = some paint) :
    Balanced composited (e.setPending surface none) (some paint.id) := by
  refine ⟨h.reading, h.once, fun k => ?_⟩
  have hsum := h.balanced k
  have hset := @Electron.waiting_setPending e k surface none
  change e.paints k = (e.setPending surface none).waiting k +
    composited.count ⟨e.serial, k⟩ + e.releases k + _
  rw [hslot] at hset
  simp only [slotHolds, Option.any_none, Option.any_some, Bool.false_eq_true, if_false,
    decide_eq_true_eq, reduceCtorEq, Option.some.injEq] at hset hsum ⊢
  omega

/-- The frame owed rides a texture. -/
theorem Balanced.ride (h : Balanced composited e (some id)) :
    Balanced (composited ++ [⟨e.serial, id⟩]) e none := by
  refine ⟨h.reading, h.once, fun k => ?_⟩
  have hsum := h.balanced k
  rw [count_append, count_singleton]
  simp only [beq_iff_eq, InFlight.mk.injEq, true_and, reduceCtorEq, if_false,
    Option.some.injEq] at hsum ⊢
  omega

theorem Balanced.letGo {frame : InFlight} (h : Balanced composited e none)
    (hmem : frame ∈ composited) (hserial : e.serial = frame.serial) :
    Balanced (composited.erase frame) e (some frame.id) := by
  refine ⟨h.reading, h.once, fun k => ?_⟩
  have hsum := h.balanced k
  by_cases hid : frame.id = k
  · have hframe : (⟨e.serial, k⟩ : InFlight) = frame := by rw [hserial, ← hid]
    have hpos := count_pos_iff.mpr hmem
    rw [hframe] at hsum ⊢
    rw [count_erase_self, if_pos (congrArg some hid)]
    simp only [reduceCtorEq, if_false] at hsum
    omega
  · have hframe : (⟨e.serial, k⟩ : InFlight) ≠ frame := by
      intro heq
      exact hid (congrArg InFlight.id heq).symm
    have howed : (some frame.id = some k) ↔ False := by simpa using hid
    rw [count_erase_of_ne hframe]
    simp only [howed, reduceCtorEq, if_false] at hsum ⊢
    exact hsum

/-- The texture of another process's frame is let go of. -/
theorem Balanced.erase {frame : InFlight} (h : Balanced composited e none)
    (hserial : e.serial ≠ frame.serial) : Balanced (composited.erase frame) e none := by
  refine ⟨h.reading, h.once, fun k => ?_⟩
  have hframe : (⟨e.serial, k⟩ : InFlight) ≠ frame := by
    intro heq
    exact hserial (congrArg InFlight.serial heq)
  rw [count_erase_of_ne hframe]
  exact h.balanced k

/-- A paint that does no harm leaves the books right. -/
theorem Balanced.paint (h : Balanced composited e none) (hconnected : e.connected = true)
    {paint : Paint} (hunique : e.paints paint.id = 0)
    (hharmless : paint.fdTransport = .scm ∧ fds = 0 ∨ paint.planes.length = 1) :
    Balanced composited (e.handlePaint paint fds) none := by
  have hpainted := h.painted paint.surface hunique
  unfold Electron.handlePaint
  dsimp only
  split
  next => exact hpainted.release hconnected
  next hdescriptors =>
    obtain ⟨plane, hplane⟩ := length_eq_one_iff.mp (hharmless.resolve_left hdescriptors)
    have hfilled := @Balanced.fill _ _ (paint.waiting plane) hpainted paint.surface
    rw [hplane]
    dsimp only
    cases hslot : (e.note (.painted paint.surface paint.id)).pending paint.surface with
    | none =>
      rw [hslot] at hfilled
      exact hfilled
    | some old =>
      rw [hslot] at hfilled
      exact hfilled.release hconnected

/-! ### States -/

section

variable (h₀ : Kept h)
include h₀

theorem Kept.returned : Returned h := by
  have hholds {e : Electron} (id : ℕ) : h.Holds e id ↔
      0 < e.waiting id + h.composited.count { serial := e.serial, id } := by
    rw [Holds, ← Electron.waiting_pos, Nat.add_pos_iff_pos_or_pos, count_pos_iff]
  refine ⟨?_, ?_, ?_, ?_⟩
  · intro e he hconnected
    exact (h₀.balanced e he hconnected).reading
  · intro e he hconnected surface id hmem hheld
    obtain ⟨-, honce, hbalanced⟩ := h₀.balanced e he hconnected
    have hpos := (hholds id).mp hheld
    have hone := honce id
    have hsum := hbalanced id
    simp only [reduceCtorEq, if_false] at hsum
    omega
  · intro e he hconnected surface id hmem hheld
    obtain ⟨-, honce, hbalanced⟩ := h₀.balanced e he hconnected
    have hpainted := Electron.mem_log_iff.mp ⟨surface, hmem⟩
    have hnone := mt (hholds id).mpr hheld
    have hone := honce id
    have hsum := hbalanced id
    simp only [reduceCtorEq, if_false] at hsum
    omega
  · intro e he hconnected id hreleased
    have hsum := (h₀.balanced e he hconnected).balanced id
    exact Electron.mem_log_iff.mpr (by omega)

theorem Kept.idle (hcomposited : h'.composited = h.composited)
    (hprocesses : h'.processes = h.processes)
    (helectron : ∀ e', h'.electron = some e' → ∃ e, h.electron = some e ∧ e.Idle e') : Kept h' := by
  refine ⟨?_, ?_, ?_⟩
  · rw [hcomposited, hprocesses]
    exact h₀.past
  · intro e' he'
    obtain ⟨e, he, hidle⟩ := helectron e' he'
    rw [hprocesses, hidle.serial]
    exact h₀.current e he
  · intro e' he' hconnected
    obtain ⟨e, he, hidle⟩ := helectron e' he'
    rw [hcomposited]
    exact (h₀.balanced e he (hidle.connected ▸ hconnected)).idle hidle

theorem Kept.telling {msgs : List ToBrowser} (htold : Says h msgs h')
    (hmsgs : ∀ msg ∈ msgs, ∀ id, msg ≠ .release id) : Kept h' := by
  refine h₀.idle htold.composited htold.processes ?_
  intro e' he'
  rw [htold.electron] at he'
  obtain ⟨e, he, rfl⟩ := Option.map_eq_some_iff.mp he'
  exact ⟨e, he, Electron.idle_sends hmsgs⟩

theorem Kept.showPage (url : String) : Kept (h.showPage url) := by
  obtain ⟨msg, ⟨width, height, generation, rfl⟩, htold⟩ := h.says_showPage url
  exact h₀.telling htold (by simp)

theorem Kept.showWidget : Kept h.showWidget := by
  cases hwidget : h.widget with
  | none => rwa [showWidget_none hwidget]
  | some url =>
    obtain ⟨msg, ⟨width, height, generation, rfl⟩, htold⟩ := says_showWidget hwidget
    exact h₀.telling htold (by simp)

theorem Kept.hidePage : Kept h.hidePage := by
  obtain ⟨msgs, hmsgs, htold⟩ := h.says_hidePage
  refine h₀.telling htold fun msg hmem id => ?_
  rw [hmsgs msg hmem]
  exact nofun

theorem Kept.silent (helectron : h'.electron = h.electron)
    (hprocesses : h'.processes = h.processes) (hcomposited : h'.composited = h.composited) :
    Kept h' := h₀.telling (.silent helectron hprocesses hcomposited) nofun

theorem Kept.announce : Kept h.announce := by
  unfold ElectronHost.announce
  split
  · exact h₀.silent rfl rfl rfl
  · exact h₀

theorem Kept.giveUp (surface : Option Surface) : Kept (h.giveUp surface) := by
  match surface with
  | some .widget =>
    have hdropped : Kept ({ h with widget := none }.setSurface .widget false) :=
      h₀.silent rfl rfl rfl
    have hblank := hdropped.telling (says_send _ (.blank .widget)) (by simp)
    exact hblank.silent rfl rfl rfl
  | some .page => exact h₀.hidePage.announce
  | none =>
    have hcleared : Kept { h.hidePage.setSurface .widget false with views := fun _ => none } :=
      h₀.hidePage.silent rfl rfl rfl
    refine hcleared.announce.idle rfl rfl ?_
    intro e' he'
    obtain ⟨e, he, rfl⟩ := Option.map_eq_some_iff.mp he'
    exact ⟨e, he, Electron.idle_note (fun _ => rfl) nofun⟩

theorem Kept.showAgain (surface : Option Surface) : Kept (h.showAgain surface) := by
  have hwidget : Kept (if surface ≠ some .page then h.showWidget else h) := by
    split
    · exact h₀.showWidget
    · exact h₀
  unfold ElectronHost.showAgain
  dsimp only
  split
  · split
    · exact hwidget.showPage _
    · exact hwidget
  · exact hwidget

/-- A fresh process has lent nothing, and no texture rides a frame of it. -/
theorem Kept.respawn (audio : Option Bool) :
    Kept { h with
      electron := some { serial := h.processes, audio }
      processes := h.processes + 1
      views := fun _ => none } := by
  refine ⟨fun frame hmem => Nat.lt_succ_of_lt (h₀.past frame hmem), ?_, ?_⟩
  · rintro e ⟨⟩
    exact Nat.lt_succ_self h.processes
  · rintro e ⟨⟩ -
    refine ⟨rfl, fun _ => Nat.zero_le 1, fun id => ?_⟩
    have hnone : h.composited.count { serial := h.processes, id } = 0 := by
      refine count_eq_zero.mpr fun hmem => ?_
      exact absurd (h₀.past _ hmem) (Nat.lt_irrefl _)
    change 0 = 0 + 0 + h.composited.count { serial := h.processes, id } + 0 + 0
    rw [hnone]

theorem Kept.rebuild (surface : Option Surface) (exited spawned : Bool) :
    Kept (h.rebuild surface exited spawned) := by
  unfold ElectronHost.rebuild
  split
  · dsimp only
    split
    · exact (h₀.respawn _).showAgain none
    · exact ⟨h₀.past, nofun, nofun⟩
  · exact h₀.showAgain surface

theorem Kept.recover (now : ℕ) (exited spawned : Bool) :
    Kept (h.recover now exited spawned) := by
  have htaken : Kept (h.takeFault now) := by
    refine h₀.idle rfl rfl ?_
    intro e' he'
    obtain ⟨e, he, rfl⟩ := Option.map_eq_some_iff.mp he'
    exact ⟨e, he, ⟨rfl, rfl, rfl, rfl⟩, fun _ => rfl, fun _ => rfl⟩
  unfold ElectronHost.recover
  split
  · exact htaken
  · exact htaken
  · exact htaken.giveUp _
  · exact htaken.rebuild _ exited spawned

end

/-! ### Frames that move -/

/-- The process has changed, and its books are right. -/
theorem Kept.process (h₀ : Kept h) {e' : Electron} (he : h.electron = some e)
    (hserial : e'.serial = e.serial)
    (hbalanced : e'.connected = true → Balanced h.composited e' none) :
    Kept { h with electron := some e' } where
  past := h₀.past
  current := by
    rintro e₁ ⟨⟩
    rw [hserial]
    exact h₀.current e he
  balanced := by
    rintro e₁ ⟨⟩
    exact hbalanced

theorem Kept.importFrame (h₀ : Kept h) (surface : Surface) (outcome : Import) :
    Kept (h.importFrame surface outcome) := by
  unfold ElectronHost.importFrame
  cases he : h.electron with
  | none => exact h₀
  | some e =>
    dsimp only
    cases hslot : e.pending surface with
    | none => exact h₀
    | some paint =>
      have hreleased : Kept { h with
          electron := some ((e.setPending surface none).send (.release paint.id)) } := by
        have hslots := @Electron.sameSlots_send (e.setPending surface none) (.release paint.id)
        refine h₀.process he hslots.serial fun hconnected => ?_
        rw [hslots.connected] at hconnected
        exact ((h₀.balanced e he hconnected).take hslot).release hconnected
      dsimp only
      split_ifs
      · exact hreleased
      · exact hreleased
      · exact hreleased
      · exact hreleased
      · exact hreleased
      · refine ⟨?_, ?_, ?_⟩
        · intro frame hmem
          rcases mem_append.mp hmem with hold | hnew
          · exact h₀.past frame hold
          · rw [mem_singleton.mp hnew]
            exact h₀.current e he
        · rintro e₁ ⟨⟩
          exact h₀.current e he
        · rintro e₁ ⟨⟩ hconnected
          exact ((h₀.balanced e he hconnected).take hslot).ride

theorem Kept.retire (h₀ : Kept h) (frame : InFlight) : Kept (h.retire frame) := by
  unfold ElectronHost.retire
  split
  next hmem =>
    refine ⟨fun other hother => h₀.past other (mem_of_mem_erase hother), ?_, ?_⟩
    · intro e' he'
      obtain ⟨e, he, rfl⟩ := Option.map_eq_some_iff.mp he'
      have hcurrent := h₀.current e he
      split
      · rwa [(Electron.sameSlots_send _).serial]
      · exact hcurrent
    · intro e' he' hconnected
      obtain ⟨e, he, rfl⟩ := Option.map_eq_some_iff.mp he'
      by_cases hserial : e.serial = frame.serial
      · rw [if_pos hserial] at hconnected ⊢
        rw [(Electron.sameSlots_send _).connected] at hconnected
        exact ((h₀.balanced e he hconnected).letGo hmem hserial).release hconnected
      · rw [if_neg hserial] at hconnected ⊢
        exact (h₀.balanced e he hconnected).erase hserial
  next => exact h₀

/-! ### Messages -/

/-- Whatever is no paint and no audio leaves the books alone. -/
theorem idle_handle {e' : Electron}
    (hpaint : ∀ paint, msg ≠ .paint paint) (hhandle : e.handle engine msg fds = some e') :
    e.Idle e' := by
  cases msg with
  | paint paint => exact absurd rfl (hpaint paint)
  | scriptletQuery id url | adblockQuery id url source kind =>
    cases hhandle
    exact Electron.idle_send nofun
  | loadError surface url error | renderGone surface reason =>
    cases hhandle
    exact Electron.idle_report _ _
  | audio block =>
    simp only [Electron.handle, Electron.handleAudio] at hhandle
    split at hhandle
    · cases hhandle
      exact .refl e
    · split at hhandle
      · cases hhandle
        exact .refl e
      · split at hhandle
        · cases hhandle
          exact .refl e
        · split_ifs at hhandle
          · cases hhandle
            exact .refl e
          · cases hhandle
            exact ⟨⟨rfl, rfl, rfl, rfl⟩, fun _ => rfl, fun _ => rfl⟩
  | ready | dropped | noTexture | loadEnd | probeResult | log =>
    cases hhandle
    exact .refl e

/-- The thread survives a block of audio exactly when it does no harm. -/
theorem handleAudio_isSome (block : AudioBlock) : (e.handleAudio engine block).isSome = true ↔
      (mixes engine e block = true → overflowsDuration block.mediaTime = false) := by
  unfold Electron.handleAudio mixes
  cases hpaused : block.paused with
  | true => simp
  | false =>
    cases hdecodes : engine.decodesPcm block.pcm with
    | false => simp
    | true =>
      cases haudio : e.audio with
      | none => simp
      | some started =>
        cases started with
        | true => cases overflowsDuration block.mediaTime <;> simp
        | false =>
          cases engine.resamples block.sampleRate block.channels with
          | false => simp
          | true => cases overflowsDuration block.mediaTime <;> simp

theorem Balanced.handle (h : Balanced composited e none) (hconnected : e.connected = true)
    (hunique : ∀ paint, msg = .paint paint → e.paints paint.id = 0)
    (hharmless : Harmless engine e fds msg) : Balanced composited (e.read engine msg fds) none := by
  unfold Electron.read
  rw [if_pos h.reading]
  cases hhandle : e.handle engine msg fds with
  | none =>
    cases msg with
    | audio block =>
      have hsurvives := (handleAudio_isSome block).mpr hharmless
      rw [show e.handleAudio engine block = none from hhandle] at hsurvives
      cases hsurvives
    | _ => cases hhandle
  | some e' =>
    rw [Option.getD_some]
    by_cases hpaint : ∃ paint, msg = .paint paint
    · obtain ⟨paint, rfl⟩ := hpaint
      cases hhandle
      exact h.paint hconnected (hunique paint rfl) hharmless
    · exact h.idle (idle_handle (fun paint hmsg => hpaint ⟨paint, hmsg⟩) hhandle)

theorem serial_read (msg : FromBrowser) (fds : ℕ) : (e.read engine msg fds).serial = e.serial ∧
      (e.read engine msg fds).connected = e.connected := by
  unfold Electron.read
  split
  · cases hhandle : e.handle engine msg fds with
    | none => exact ⟨rfl, rfl⟩
    | some e' =>
      rw [Option.getD_some]
      by_cases hpaint : ∃ paint, msg = .paint paint
      · obtain ⟨paint, rfl⟩ := hpaint
        cases hhandle
        unfold Electron.handlePaint
        dsimp only
        split
        · have hslots := @Electron.sameSlots_send (e.note (.painted paint.surface paint.id))
            (.release paint.id)
          exact ⟨hslots.serial, hslots.connected⟩
        · split
          · exact ⟨rfl, rfl⟩
          · split
            · exact ⟨(Electron.sameSlots_send _).serial, (Electron.sameSlots_send _).connected⟩
            · exact ⟨rfl, rfl⟩
          · exact ⟨rfl, rfl⟩
      · have hidle := idle_handle (fun paint hmsg => hpaint ⟨paint, hmsg⟩) hhandle
        exact ⟨hidle.serial, hidle.connected⟩
  · exact ⟨rfl, rfl⟩

/-- A message that does harm spoils the books, for good. -/
theorem not_returned_read (h₀ : Kept h) (he : h.electron = some e) (hconnected : e.connected = true)
    (hunique : ∀ paint, msg = .paint paint → e.paints paint.id = 0)
    (hharm : ¬ Harmless engine e fds msg) : ¬ Returned (h.step engine (.message msg fds)) := by
  intro hreturned
  obtain ⟨hreading, -, hbalanced⟩ := h₀.balanced e he hconnected
  have hstep : (h.step engine (.message msg fds)).electron = some (e.read engine msg fds) := by
    simp [step, he]
  have hstays : (e.read engine msg fds).connected = true := (serial_read msg fds).2.trans hconnected
  cases msg with
  | paint paint =>
    obtain ⟨hdescriptors, hplanes⟩ := not_or.mp hharm
    have hread : e.read engine (.paint paint) fds =
        e.note (.painted paint.surface paint.id) := by
      simp only [Electron.read, hreading, if_true, Electron.handle, Option.getD_some,
        Electron.handlePaint, if_neg hdescriptors]
      split
      next => rfl
      next plane hplane => exact absurd (by rw [hplane]; rfl) hplanes
      next => rfl
    have hnone := hbalanced paint.id
    rw [hunique paint rfl] at hnone
    have hpainted : .painted paint.surface paint.id ∈ (e.read engine (.paint paint) fds).log := by
      rw [hread]
      exact mem_append_right _ (mem_singleton.mpr rfl)
    have hone := hreturned.returned _ hstep hstays paint.surface paint.id hpainted ?_
    · rw [hread, Electron.releases_note] at hone
      simp only [reduceCtorEq, if_false] at hone hnone
      omega
    · rw [hread]
      rintro (hslot | hrides)
      · have hwaits : 0 < e.waiting paint.id := Electron.waiting_pos.mpr hslot
        omega
      · have hcount : 0 < h.composited.count ⟨e.serial, paint.id⟩ :=
          count_pos_iff.mpr hrides
        omega
  | audio block =>
    have hdies : e.handleAudio engine block = none := by
      rw [← Option.not_isSome_iff_eq_none, handleAudio_isSome]
      exact hharm
    have hread : (e.read engine (.audio block) fds).reading = false := by
      simp [Electron.read, hreading, Electron.handle, hdies]
    rw [hreturned.reading _ hstep hstays] at hread
    cases hread
  | _ => exact hharm trivial

/-! ## The headline result -/

theorem kept_new (mixer onRecoveryFailed : Bool) (widget : Option String)
    (panelState : panel.State) : Kept (.new mixer onRecoveryFailed widget panelState) where
  past := nofun
  current := by
    rintro e ⟨⟩
    exact Nat.zero_lt_one
  balanced := by
    rintro e ⟨⟩ -
    exact ⟨rfl, fun _ => Nat.zero_le 1, fun _ => rfl⟩

/-- A step keeps the books exactly when it brings no message that does harm. -/
theorem Kept.step (h₀ : Kept h) (move : Step panel) (hunique : Unique h move)
    (haccepted : Accepted engine h move) : Kept (h.step engine move) := by
  cases move with
  | message msg fds =>
    refine ⟨h₀.past, ?_, ?_⟩
    · intro e' he'
      obtain ⟨e, he, rfl⟩ := Option.map_eq_some_iff.mp he'
      rw [(serial_read msg fds).1]
      exact h₀.current e he
    · intro e' he' hconnected
      obtain ⟨e, he, rfl⟩ := Option.map_eq_some_iff.mp he'
      rw [(serial_read msg fds).2] at hconnected
      refine (h₀.balanced e he hconnected).handle hconnected ?_ (haccepted e he hconnected)
      rintro paint rfl
      exact hunique e he
  | closed =>
    have hclosed (e : Electron) : e.close.connected = false ∧ e.close.serial = e.serial := by
      unfold Electron.close
      dsimp only
      split
      · exact ⟨rfl, rfl⟩
      · exact ⟨rfl, rfl⟩
    refine ⟨h₀.past, ?_, ?_⟩
    · intro e' he'
      obtain ⟨e, he, rfl⟩ := Option.map_eq_some_iff.mp he'
      rw [(hclosed e).2]
      exact h₀.current e he
    · intro e' he' hconnected
      obtain ⟨e, he, rfl⟩ := Option.map_eq_some_iff.mp he'
      rw [(hclosed e).1] at hconnected
      cases hconnected
  | retire frame => exact h₀.retire frame
  | moved state => exact h₀.silent rfl rfl rfl
  | resize width height =>
    simp only [ElectronHost.step, ElectronHost.resize]
    split
    · exact h₀
    · exact h₀.silent rfl rfl rfl
  | start =>
    simp only [ElectronHost.step, ElectronHost.start]
    split
    · exact h₀
    · have hstarted : Kept { h with widgetStarted := true } := h₀.silent rfl rfl rfl
      exact hstarted.showWidget
  | command cmd =>
    cases cmd with
    | navigate url => exact h₀.showPage url
    | hide => exact h₀.hidePage
    | castPlatform port => exact h₀.telling (says_send h _) (by simp)
  | followPanel surface =>
    obtain ⟨msgs, hmsgs, htold⟩ := h.says_followPanel surface
    refine h₀.telling htold fun msg hmem id => ?_
    obtain ⟨width, height, generation, rfl⟩ := hmsgs msg hmem
    exact nofun
  | recover now exited spawned => exact h₀.recover now exited spawned
  | importFrame surface outcome => exact h₀.importFrame surface outcome

/-- **Every frame lent is returned once, and in time**, in every state of a run
of the host in which every paint has an identifier of its own, exactly when no
message of the run does harm. -/
theorem returned_iff_accepted (mixer onRecoveryFailed : Bool) (widget : Option String)
    (panelState : panel.State) (moves : List (Step panel))
    (hunique : Along (fun h move => step engine h move) Unique moves
      (.new mixer onRecoveryFailed widget panelState)) :
    (∀ k ≤ moves.length, Returned ((moves.take k).foldl (fun h move => step engine h move)
        (.new mixer onRecoveryFailed widget panelState))) ↔
      Along (fun h move => step engine h move) (Accepted engine) moves
        (.new mixer onRecoveryFailed widget panelState) := by
  have hkept := kept_new mixer onRecoveryFailed widget panelState
  generalize ElectronHost.new mixer onRecoveryFailed widget panelState = h at hkept hunique ⊢
  induction moves generalizing h with
  | nil =>
    refine ⟨fun _ => trivial, fun _ k _ => ?_⟩
    rw [take_nil]
    exact hkept.returned
  | cons move moves ih =>
    constructor
    · intro hreturned
      have haccepted : Accepted engine h move := by
        cases move with
        | message msg fds =>
          intro e he hconnected
          by_contra hharm
          refine not_returned_read hkept he hconnected ?_ hharm
            (hreturned 1 (Nat.succ_le_succ (Nat.zero_le _)))
          rintro paint rfl
          exact hunique.1 e he
        | _ => trivial
      refine ⟨haccepted, (ih _ (hkept.step move hunique.1 haccepted) hunique.2).mp ?_⟩
      intro k hk
      exact hreturned (k + 1) (Nat.succ_le_succ hk)
    · rintro ⟨haccepted, hrest⟩ k hk
      cases k with
      | zero => exact hkept.returned
      | succ k =>
        exact (ih _ (hkept.step move hunique.1 haccepted) hunique.2).mpr hrest k
          (Nat.le_of_succ_le_succ hk)

/-! ## Two runs -/

def pagePanel : Panel where
  State := Unit
  pageView := fun _ surface =>
    if surface = .page then some ⟨⟨0, 0, 1920, 1080⟩, .browserFullscreen⟩ else none
  setSurface := fun state _ _ => state
  restIfIdle := fun state => state
  roleRect := fun _ size => ⟨0, 0, size.1, size.2⟩

def plainEngine : Engine where
  shouldBlock := fun _ _ _ => false
  injectedScript := fun _ => none
  decodesPcm := fun _ => true
  resamples := fun _ _ => true

def firstFrame (planes : List PlaneInfo) : Paint where
  surface := .page
  id := 1
  width := 1920
  height := 1080
  planes := planes

/-- A page is shown, paints, and its frame is imported and let go of. -/
def onePage : List (Step pagePanel) :=
  [.start, .command (.navigate "https://page.test/"),
    .message (.paint (firstFrame [⟨7, 7680, 0⟩])) 0,
    .importFrame .page .imported, .retire ⟨0, 1⟩]

theorem returned_onePage :
    Returned (onePage.foldl (fun h move => step plainEngine h move) (.new true true none ())) := by
  have hall := (@returned_iff_accepted _ plainEngine true true none () onePage ?_).mpr ?_
  · have hwhole := hall onePage.length (Nat.le_refl _)
    rwa [take_length] at hwhole
  · refine ⟨trivial, trivial, ?_, trivial, trivial, trivial⟩
    rintro e ⟨⟩
    rfl
  · refine ⟨trivial, trivial, ?_, trivial, trivial, trivial⟩
    rintro e ⟨⟩ -
    exact .inr rfl

/-- A frame without planes is never returned. -/
theorem unreturned_without_planes :
    ¬ ∀ k ≤ 3, Returned ((([.start, .command (.navigate "https://page.test/"),
      .message (.paint (firstFrame [])) 0] : List (Step pagePanel)).take k).foldl
        (fun h move => step plainEngine h move) (.new true true none ())) := by
  intro h
  have hone := (h 3 (Nat.le_refl 3)).returned _ rfl rfl .page 1 (by decide) ?_
  · revert hone
    decide
  · rintro (⟨surface, paint, hslot, -⟩ | hrides)
    · cases surface with
      | widget | page => cases hslot
    · cases hrides

end ElectronHost

end Castaway.Browser
