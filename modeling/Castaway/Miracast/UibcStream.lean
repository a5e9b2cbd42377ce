import Castaway.Lib.Runs
import Castaway.Miracast.UibcSurface
import Mathlib.Data.List.Nodup
import Mathlib.Data.Rat.Floor

/-!
# The touch stream a source reads off the back-channel

## Strategy

`Contacts.Sound` is what claiming and releasing keep of the id table: contacts
and ids pairwise distinct, and exactly the ids of live contacts taken.  The
frames that reached the queue, read back, are replayed by `replay`, which fails
at the first contact that goes down twice, moves or comes up without being down,
or leaves the picture.  As long as no press and no release meets a full queue,
the ids the replay leaves down are the taken ones (`Tracked`), so with no
contact live none is down.

A release that is dropped leaves its id down for ever (`stuckDown`).
-/

namespace Castaway.Miracast

open Castaway.Kiosk (TouchPhase)
open Function List

/-! ## The id table -/

namespace Contacts

variable {contacts : Contacts} {contact : UInt64} {pointer : Pointer} {position : SourcePixel}

def ids (contacts : Contacts) : List UInt8 := contacts.live.map (·.pointer.id)

structure Sound (contacts : Contacts) : Prop where
  contacts_nodup : (contacts.live.map (·.contact)).Nodup
  ids_nodup : contacts.ids.Nodup
  used_iff : ∀ id, contacts.used id = true ↔ id ∈ contacts.ids

theorem sound_empty : Sound {} where
  contacts_nodup := nodup_nil
  ids_nodup := nodup_nil
  used_iff := fun id => by simp [ids]

theorem mem_live_of_get (h : contacts.get contact = some pointer) :
    ⟨contact, pointer⟩ ∈ contacts.live := by
  obtain ⟨c, hc, rfl⟩ := Option.map_eq_some_iff.mp h
  have hcontact : c.contact = contact := by simpa using find?_some hc
  subst hcontact
  exact mem_of_find?_eq_some hc

theorem ne_of_get_eq_none (h : contacts.get contact = none) {c : Contact}
    (hc : c ∈ contacts.live) : c.contact ≠ contact := by
  rw [get, Option.map_eq_none_iff, find?_eq_none] at h
  simpa using h c hc

theorem Sound.eq_of_get (h : contacts.Sound) (hget : contacts.get contact = some pointer)
    {c : Contact} (hc : c ∈ contacts.live) (hcontact : c.contact = contact) :
    c = ⟨contact, pointer⟩ :=
  inj_on_of_nodup_map h.contacts_nodup hc (mem_live_of_get hget) hcontact

theorem Sound.used_of_get (h : contacts.Sound) (hget : contacts.get contact = some pointer) :
    contacts.used pointer.id = true :=
  (h.used_iff _).mpr (mem_map.mpr ⟨_, mem_live_of_get hget, rfl⟩)

theorem used_of_free {used : UInt8 → Bool} {id : UInt8} (h : free used = some id) :
    used id = false := by
  simpa using find?_some h

/-! ### Claiming -/

theorem claim_of_get (h : contacts.get contact = some pointer) :
    contacts.claim contact position =
      ({ contacts with
          live := contacts.live.map fun c =>
            if c.contact == contact then ⟨contact, pointer.id, position⟩ else c },
        some pointer.id) := by
  rw [claim, h]

theorem claim_of_free (h : contacts.get contact = none) {id : UInt8}
    (hfree : free contacts.used = some id) : contacts.claim contact position =
      ({ live := contacts.live ++ [⟨contact, id, position⟩]
         used := update contacts.used id true }, some id) := by
  rw [claim, h, hfree]

theorem claim_of_full (h : contacts.get contact = none) (hfree : free contacts.used = none) :
    contacts.claim contact position = (contacts, none) := by
  rw [claim, h, hfree]

/-- Moving a contact changes where it is and nothing else. -/
theorem Sound.ids_claim (h : contacts.Sound) (hget : contacts.get contact = some pointer) :
    (contacts.claim contact position).1.ids = contacts.ids := by
  rw [claim_of_get hget, ids, ids, map_map]
  refine map_congr_left fun c hc => ?_
  dsimp only [Function.comp]
  split
  · next hcontact => rw [h.eq_of_get hget hc (beq_iff_eq.mp hcontact)]
  · rfl

theorem contacts_claim (hget : contacts.get contact = some pointer) :
    (contacts.claim contact position).1.live.map (·.contact) =
      contacts.live.map (·.contact) := by
  rw [claim_of_get hget, map_map]
  refine map_congr_left fun c _ => ?_
  dsimp only [Function.comp]
  split
  · next hcontact => exact (beq_iff_eq.mp hcontact).symm
  · rfl

theorem Sound.claim (h : contacts.Sound) (contact : UInt64) (position : SourcePixel) :
    (contacts.claim contact position).1.Sound := by
  cases hget : contacts.get contact with
  | some pointer =>
    refine ⟨?_, ?_, fun id => ?_⟩
    · rw [contacts_claim hget]
      exact h.contacts_nodup
    · rw [h.ids_claim hget]
      exact h.ids_nodup
    · rw [h.ids_claim hget, claim_of_get hget]
      exact h.used_iff id
  | none =>
    cases hfree : free contacts.used with
    | none =>
      rw [claim_of_full hget hfree]
      exact h
    | some id =>
      have hfresh : id ∉ contacts.ids := by
        rw [← h.used_iff, used_of_free hfree]
        exact Bool.false_ne_true
      rw [claim_of_free hget hfree]
      refine ⟨?_, ?_, fun id' => ?_⟩
      · rw [map_append, map_singleton, nodup_append_comm, singleton_append]
        refine nodup_cons.mpr ⟨fun hmem => ?_, h.contacts_nodup⟩
        obtain ⟨c, hc, hcontact⟩ := mem_map.mp hmem
        exact ne_of_get_eq_none hget hc hcontact
      · rw [ids, map_append, map_singleton, nodup_append_comm,
          singleton_append]
        exact nodup_cons.mpr ⟨hfresh, h.ids_nodup⟩
      · by_cases heq : id' = id
        · subst heq
          simp [ids]
        · simpa [ids, heq] using h.used_iff id'

theorem mem_live_claim {c : Contact} (h : c ∈ (contacts.claim contact position).1.live) :
    c ∈ contacts.live ∨ c.contact = contact ∧ c.pointer.position = position := by
  cases hget : contacts.get contact with
  | some pointer =>
    rw [claim_of_get hget] at h
    obtain ⟨c', hc', rfl⟩ := mem_map.mp h
    split
    · exact .inr ⟨rfl, rfl⟩
    · exact .inl hc'
  | none =>
    cases hfree : free contacts.used with
    | none =>
      rw [claim_of_full hget hfree] at h
      exact .inl h
    | some id =>
      rw [claim_of_free hget hfree] at h
      rcases mem_append.mp h with hlive | hnew
      · exact .inl hlive
      · obtain rfl := mem_singleton.mp hnew
        exact .inr ⟨rfl, rfl⟩

/-! ### Releasing -/

theorem release_of_get (h : contacts.get contact = some pointer) :
    contacts.release contact =
      ({ live := contacts.live.filter fun c => !(c.contact == contact)
         used := update contacts.used pointer.id false }, some pointer) := by
  rw [release, h]

theorem release_of_none (h : contacts.get contact = none) :
    contacts.release contact = (contacts, none) := by
  rw [release, h]

theorem Sound.release (h : contacts.Sound) (contact : UInt64) :
    (contacts.release contact).1.Sound := by
  cases hget : contacts.get contact with
  | none =>
    rw [release_of_none hget]
    exact h
  | some pointer =>
    rw [release_of_get hget]
    have hsub := filter_sublist (p := fun c : Contact => !(c.contact == contact))
      (l := contacts.live)
    refine ⟨(hsub.map _).nodup h.contacts_nodup, (hsub.map _).nodup h.ids_nodup, fun id => ?_⟩
    have hmem : id ∈ (contacts.live.filter fun c => !(c.contact == contact)).map (·.pointer.id) ↔
        id ∈ contacts.ids ∧ id ≠ pointer.id := by
      constructor
      · intro hid
        obtain ⟨c, hc, rfl⟩ := mem_map.mp hid
        obtain ⟨hlive, hother⟩ := mem_filter.mp hc
        refine ⟨mem_map_of_mem hlive, fun heq => ?_⟩
        have hsame : c = ⟨contact, pointer⟩ :=
          inj_on_of_nodup_map h.ids_nodup hlive (mem_live_of_get hget) heq
        simp [hsame] at hother
      · rintro ⟨hid, hne⟩
        obtain ⟨c, hc, rfl⟩ := mem_map.mp hid
        refine mem_map_of_mem (mem_filter.mpr ⟨hc, ?_⟩)
        rw [Bool.not_eq_true', beq_eq_false_iff_ne]
        intro hcontact
        exact hne (by rw [h.eq_of_get hget hc hcontact])
    rw [ids, hmem, ← h.used_iff]
    by_cases heq : id = pointer.id
    · simp [heq]
    · simp [heq]

end Contacts

/-! ## Reading the queue back -/

def readFrame (frame : Bytes) : Option (List GenericInput) :=
  (UibcFrame.parse frame).bind fun read => read.1.genericMessages

/-- The messages of the frames that reached the queue, in order. -/
def readAll (sent : List Bytes) : Option (List GenericInput) :=
  (sent.mapM readFrame).map List.flatten

theorem readFrame_frameOf {message : GenericInput} (h : message.Fits) :
    readFrame (UibcSurface.frameOf message) = some [message] := by
  have hfits : ∀ m ∈ [message], GenericInput.Fits m := by simpa using h
  have hlength : ((UibcFrame.generic [message] none).encodePadded 0).length ≤ 65535 := by
    have := GenericInput.length_describe_le h
    simp [UibcFrame.length_encodePadded, UibcFrame.total, UibcFrame.generic, UibcFrame.headerLen]
    omega
  have hparse := UibcFrame.parse_encodePadded (UibcFrame.generic [message] none) 0 [] hlength
  rw [append_nil] at hparse
  rw [readFrame, UibcSurface.frameOf, UibcFrame.encode, hparse, Option.bind_some]
  exact UibcFrame.genericMessages_paddedBody none 0 hfits

variable {messages : List GenericInput}

theorem readAll_concat {sent : List Bytes} {message : GenericInput}
    (hread : readAll sent = some messages) (hfits : message.Fits) :
    readAll (sent ++ [UibcSurface.frameOf message]) = some (messages ++ [message]) := by
  obtain ⟨read, hmapM, rfl⟩ := Option.map_eq_some_iff.mp hread
  simp [readAll, mapM_append, hmapM, readFrame_frameOf hfits]

/-! ## A well-formed touch stream -/

def VideoMode.Inside (mode : VideoMode) (position : SourcePixel) : Prop :=
  position.x < mode.width ∧ position.y < mode.height

instance (mode : VideoMode) (position : SourcePixel) : Decidable (mode.Inside position) :=
  inferInstanceAs (Decidable (_ ∧ _))

/-- One contact of a message: it has to be down or up before, and is afterwards
as the message says.  `down` is the ids that are down. -/
def replayPointer (mode : VideoMode) (before after : Bool) (down : UInt8 → Bool)
    (pointer : Pointer) : Option (UInt8 → Bool) :=
  if mode.Inside pointer.position ∧ down pointer.id = before then
    some (update down pointer.id after)
  else none

def replayMessage (mode : VideoMode) (down : UInt8 → Bool) :
    GenericInput → Option (UInt8 → Bool)
  | .touchDown pointers => pointers.foldlM (replayPointer mode false true) down
  | .touchMove pointers => pointers.foldlM (replayPointer mode true true) down
  | .touchUp pointers => pointers.foldlM (replayPointer mode true false) down
  | _ => some down

/-- The ids a well-formed touch stream leaves down; nothing of one that is not.
-/
def replay (mode : VideoMode) (messages : List GenericInput) : Option (UInt8 → Bool) :=
  messages.foldlM (replayMessage mode) fun _ => false

theorem replay_concat {mode : VideoMode} {down : UInt8 → Bool}
    (h : replay mode messages = some down) (message : GenericInput) :
    replay mode (messages ++ [message]) = replayMessage mode down message := by
  rw [replay] at h
  rw [replay, foldlM_append, h]
  simp

theorem replayMessage_single {mode : VideoMode} {down : UInt8 → Bool} {pointer : Pointer}
    {before after : Bool} (hinside : mode.Inside pointer.position)
    (hdown : down pointer.id = before) : [pointer].foldlM (replayPointer mode before after) down =
      some (update down pointer.id after) := by
  simp [replayPointer, hinside, hdown]

/-- Releasing exactly the ids that are down leaves none down. -/
theorem replay_releaseAll {mode : VideoMode} {pointers : List Pointer} {down : UInt8 → Bool}
    (hinside : ∀ p ∈ pointers, mode.Inside p.position) (hnodup : (pointers.map (·.id)).Nodup)
    (hdown : ∀ id, down id = true ↔ id ∈ pointers.map (·.id)) :
    pointers.foldlM (replayPointer mode true false) down = some fun _ => false := by
  induction pointers generalizing down with
  | nil =>
    have hnone : down = fun _ => false := by
      funext id
      simpa using hdown id
    rw [hnone]
    rfl
  | cons pointer pointers ih =>
    obtain ⟨hfresh, hrest⟩ := nodup_cons.mp hnodup
    have hhead : replayPointer mode true false down pointer =
        some (update down pointer.id false) := by
      rw [replayPointer, if_pos ⟨hinside _ mem_cons_self, (hdown _).mpr mem_cons_self⟩]
    rw [foldlM_cons, hhead]
    refine ih (fun p hp => hinside p (mem_cons_of_mem _ hp)) hrest fun id => ?_
    by_cases heq : id = pointer.id
    · subst heq
      simpa using hfresh
    · rw [update_of_ne heq, hdown, map_cons, mem_cons]
      simp [heq]

/-! ## Coordinates -/

section

variable {R : Type*} [F32 R] [LawfulF32 R] {n : UInt16}

theorem clamp_le {x : R} (h : F32.le x (F32.ofU16 n)) :
    F32.le (clamp x 0 (F32.ofU16 65535)) (F32.ofU16 n) := by
  unfold clamp
  split
  · exact LawfulF32.zero_le n
  · split
    · next hhigh => exact LawfulF32.le_of_lt_of_le hhigh h
    · exact h

theorem toPixel_lt {fraction : R} (h : VideoGeometry.onPicture fraction) {extent : UInt16}
    (hpos : 0 < extent) : toPixel fraction extent < extent := by
  obtain ⟨hzero, hone⟩ := (Bool.and_eq_true _ _).mp h
  have hne : extent ≠ 0 := fun h => absurd hpos (by rw [h]; decide)
  have hle : toPixel fraction extent ≤ extent - 1 := by
    rw [toPixel, if_neg hne]
    exact LawfulF32.toU16_le (clamp_le (LawfulF32.round_le (LawfulF32.mul_le _ hzero hone)))
  have hsub : (extent - 1).toNat = extent.toNat - 1 := UInt16.toNat_sub_of_le _ _ hpos
  have hle' := UInt16.le_iff_toNat_le.mp hle
  have hpos' := UInt16.lt_iff_toNat_lt.mp hpos
  rw [UInt16.lt_iff_toNat_lt]
  simp only [UInt16.toNat_zero] at hpos'
  omega

/-- A point that is mapped at all is mapped into the picture. -/
theorem inside_of_mapFromPanel {geometry : VideoGeometry R} {x y : R} {position : SourcePixel}
    (hpixels : geometry.mode.HasPixels) (h : geometry.mapFromPanel x y = some position) :
    geometry.mode.Inside position := by
  unfold VideoGeometry.mapFromPanel at h
  dsimp only at h
  split at h
  · cases h
  · next hon =>
      simp only [Bool.or_eq_true, Bool.not_eq_true', not_or, Bool.not_eq_false] at hon
      cases h
      exact ⟨toPixel_lt hon.1 hpixels.1, toPixel_lt hon.2 hpixels.2⟩

end

/-! ## Runs -/

inductive Event (R : Type*) where
  | touch (touch : SurfaceTouch R)
  | panelResized (width height : UInt32)
  /-- Every contact is released, in the order the table gives them up. -/
  | cancelAll (drained : List Contact)
  /-- The socket's task takes a frame. -/
  | recv

/-- The surface, and which of the router's contacts are pressed. -/
structure Driven (R : Type*) where
  surface : UibcSurface R
  pressed : UInt64 → Bool

namespace Driven

variable {R : Type*} [F32 R] {s : Driven R}

def new (mode : VideoMode) : Driven R := ⟨.new mode, fun _ => false⟩

def step (s : Driven R) : Event R → Driven R
  | .touch touch =>
    { surface := s.surface.touch touch
      pressed := match touch.phase with
        | .down => update s.pressed touch.contact true
        | .move => s.pressed
        | .up | .cancel => update s.pressed touch.contact false }
  | .panelResized width height => { s with surface := s.surface.panelResized width height }
  | .cancelAll drained =>
    { surface := s.surface.cancelAll drained
      pressed := fun _ => false }
  | .recv => { s with surface := { s.surface with frames := s.surface.frames.recv } }

/-- A contact is pressed, moves any number of times and comes up or is
cancelled: it is not pressed again before that, or before all were released.
Draining the table gives its contacts up in some order. -/
def Allowed (s : Driven R) : Event R → Prop
  | .touch touch => touch.phase = .down → s.pressed touch.contact = false
  | .cancelAll drained => drained.Perm s.surface.contacts.live
  | _ => True

def Room (s : Driven R) : Prop := s.surface.frames.waiting < uibcQueue

instance (s : Driven R) : Decidable s.Room := inferInstanceAs (Decidable (_ < _))

/-- A press that gets an id and a release of a live contact find room in the
queue, and what is released at once fits a message's count. -/
def Heard (s : Driven R) : Event R → Prop
  | .touch touch =>
    match touch.phase with
    | .down =>
      (s.surface.geometry.mapFromPanel touch.x touch.y).isSome →
        (Contacts.free s.surface.contacts.used).isSome → s.Room
    | .move => True
    | .up | .cancel => (s.surface.contacts.get touch.contact).isSome → s.Room
  | .cancelAll drained => drained ≠ [] → s.Room ∧ drained.length ≤ 255
  | _ => True

end Driven

/-! ### What a touch can do -/

section

variable {R : Type*} [F32 R] {surface : UibcSurface R} {touch : SurfaceTouch R}

/-- The ways a touch is taken. -/
inductive Touched (surface : UibcSurface R) (touch : SurfaceTouch R) : UibcSurface R → Prop where
  /-- A press or a move on a bar, a contact that is not live, or no id left. -/
  | ignored (hgone : touch.phase = .up ∨ touch.phase = .cancel →
        surface.contacts.get touch.contact = none) : Touched surface touch surface
  | down {position : SourcePixel} {id : UInt8} (hphase : touch.phase = .down)
      (hinside : surface.geometry.mapFromPanel touch.x touch.y = some position)
      (hclaim : (surface.contacts.claim touch.contact position).2 = some id) :
      Touched surface touch
        ({ surface with contacts := (surface.contacts.claim touch.contact position).1 }.send
          (.touchDown [⟨id, position⟩]))
  | move {position : SourcePixel} {pointer : Pointer} (hphase : touch.phase = .move)
      (hinside : surface.geometry.mapFromPanel touch.x touch.y = some position)
      (hget : surface.contacts.get touch.contact = some pointer) :
      Touched surface touch
        ({ surface with contacts := (surface.contacts.claim touch.contact position).1 }.send
          (.touchMove [⟨pointer.id, position⟩]))
  | release {pointer : Pointer} (hphase : touch.phase = .up ∨ touch.phase = .cancel)
      (hget : surface.contacts.get touch.contact = some pointer) :
      Touched surface touch
        ({ surface with contacts := (surface.contacts.release touch.contact).1 }.send
          (.touchUp [⟨pointer.id,
            (surface.geometry.mapFromPanel touch.x touch.y).getD pointer.position⟩]))

theorem claim_snd_eq_none {contacts : Contacts} {contact : UInt64} {position : SourcePixel}
    (h : (contacts.claim contact position).2 = none) :
    (contacts.claim contact position).1 = contacts := by
  cases hget : contacts.get contact with
  | some pointer => rw [Contacts.claim_of_get hget] at h; cases h
  | none =>
    cases hfree : Contacts.free contacts.used with
    | none => rw [Contacts.claim_of_full hget hfree]
    | some id => rw [Contacts.claim_of_free hget hfree] at h; cases h

theorem touched (surface : UibcSurface R) (touch : SurfaceTouch R) :
    Touched surface touch (surface.touch touch) := by
  have hrelease (hphase : touch.phase = .up ∨ touch.phase = .cancel) :
      Touched surface touch (surface.lift touch.contact
        (surface.geometry.mapFromPanel touch.x touch.y)) := by
    cases hget : surface.contacts.get touch.contact with
    | none =>
      rw [UibcSurface.lift, Contacts.release_of_none hget]
      exact .ignored fun _ => hget
    | some pointer =>
      have h := Touched.release hphase hget
      rw [UibcSurface.lift, Contacts.release_of_get hget]
      rwa [Contacts.release_of_get hget] at h
  cases hphase : touch.phase with
  | down =>
    have hkept : Touched surface touch surface := .ignored fun h => by simp [hphase] at h
    simp only [UibcSurface.touch, hphase]
    cases hinside : surface.geometry.mapFromPanel touch.x touch.y with
    | none => exact hkept
    | some position =>
      rcases hclaim : surface.contacts.claim touch.contact position with ⟨contacts, id⟩
      have hfst := congrArg Prod.fst hclaim
      have hsnd := congrArg Prod.snd hclaim
      dsimp only
      rw [hclaim]
      cases id with
      | none =>
        have hsame := claim_snd_eq_none hsnd
        rw [hfst] at hsame
        dsimp only at hsame ⊢
        rw [hsame]
        exact hkept
      | some id =>
        have h := Touched.down hphase hinside hsnd
        rwa [hfst] at h
  | move =>
    have hkept : Touched surface touch surface := .ignored fun h => by simp [hphase] at h
    simp only [UibcSurface.touch, hphase]
    cases hinside : surface.geometry.mapFromPanel touch.x touch.y with
    | none => exact hkept
    | some position =>
      cases hget : surface.contacts.get touch.contact with
      | none => exact hkept
      | some pointer => exact .move hphase hinside hget
  | up =>
    simp only [UibcSurface.touch, hphase]
    exact hrelease (.inl hphase)
  | cancel =>
    simp only [UibcSurface.touch, hphase]
    exact hrelease (.inr hphase)

end

namespace Driven

variable {R : Type*} [F32 R] {s : Driven R}

/-! ### The id table -/

theorem sound_step (h : s.surface.contacts.Sound) (e : Event R) :
    (s.step e).surface.contacts.Sound := by
  cases e with
  | touch touch =>
    have htouched := touched s.surface touch
    change (s.surface.touch touch).contacts.Sound
    generalize s.surface.touch touch = touchedSurface at htouched ⊢
    cases htouched with
    | ignored => exact h
    | down | move => exact h.claim _ _
    | release => exact h.release _
  | panelResized width height => exact h
  | cancelAll drained =>
    change (s.surface.cancelAll drained).contacts.Sound
    unfold UibcSurface.cancelAll
    dsimp only
    split <;> exact Contacts.sound_empty
  | recv => exact h

/-! ### What was sent -/

/-- The id table, and what the frames that reached the queue say, agree. -/
structure Tracked (mode : VideoMode) (s : Driven R) : Prop where
  mode_eq : s.surface.mode = mode
  geometry_mode : s.surface.geometry.mode = mode
  sound : s.surface.contacts.Sound
  inside : ∀ c ∈ s.surface.contacts.live, mode.Inside c.pointer.position
  pressed : ∀ c ∈ s.surface.contacts.live, s.pressed c.contact = true
  stream : ∃ messages, readAll s.surface.frames.sent = some messages ∧
    replay mode messages = some s.surface.contacts.used

theorem tracked_new (mode : VideoMode) : Tracked mode (new mode : Driven R) where
  mode_eq := rfl
  geometry_mode := rfl
  sound := Contacts.sound_empty
  inside := fun _ hc => absurd hc not_mem_nil
  pressed := fun _ hc => absurd hc not_mem_nil
  stream := ⟨[], rfl, rfl⟩

variable {mode : VideoMode}

theorem stream_send {frames : FrameQueue} {used used' : UInt8 → Bool} {message : GenericInput}
    (hstream : ∃ messages, readAll frames.sent = some messages ∧ replay mode messages = some used)
    (hfits : message.Fits) (hreplay : replayMessage mode used message = some used')
    (hroom : frames.waiting < uibcQueue ∨ used' = used) :
    ∃ messages, readAll (frames.trySend (UibcSurface.frameOf message)).sent = some messages ∧
      replay mode messages = some used' := by
  obtain ⟨messages, hread, hmessages⟩ := hstream
  unfold FrameQueue.trySend
  split
  · exact ⟨_, readAll_concat hread hfits, by rw [replay_concat hmessages, hreplay]⟩
  · next hfull =>
      obtain rfl : used' = used := hroom.resolve_left hfull
      exact ⟨messages, hread, hmessages⟩

omit [F32 R] in
theorem Tracked.get_eq_none (h : Tracked mode s) {contact : UInt64}
    (hpressed : s.pressed contact = false) : s.surface.contacts.get contact = none := by
  cases hget : s.surface.contacts.get contact with
  | none => rfl
  | some pointer =>
    have := h.pressed _ (Contacts.mem_live_of_get hget)
    rw [hpressed] at this
    cases this

variable [LawfulF32 R] {position : SourcePixel} {touch : SurfaceTouch R}

section

variable (h : Tracked mode s)
include h

section

variable (hpixels : mode.HasPixels)
include hpixels

theorem Tracked.position_inside {x y : R}
    (hmap : s.surface.geometry.mapFromPanel x y = some position) : mode.Inside position := by
  rw [← h.geometry_mode] at hpixels ⊢
  exact inside_of_mapFromPanel hpixels hmap

theorem Tracked.step_down (hphase : touch.phase = .down) {id : UInt8}
    (hinside : s.surface.geometry.mapFromPanel touch.x touch.y = some position)
    (hclaim : (s.surface.contacts.claim touch.contact position).2 = some id)
    (hallowed : s.Allowed (.touch touch)) (hheard : s.Heard (.touch touch)) : Tracked mode
      { surface := { s.surface with
          contacts := (s.surface.contacts.claim touch.contact position).1 }.send
            (.touchDown [⟨id, position⟩])
        pressed := update s.pressed touch.contact true } := by
  have hnone := h.get_eq_none (hallowed hphase)
  have hon := h.position_inside hpixels hinside
  refine ⟨h.mode_eq, h.geometry_mode, h.sound.claim _ _, fun c hc => ?_, fun c hc => ?_, ?_⟩
  · rcases Contacts.mem_live_claim hc with hlive | ⟨-, hposition⟩
    · exact h.inside c hlive
    · rwa [hposition]
  · change update s.pressed touch.contact true c.contact = true
    by_cases heq : c.contact = touch.contact
    · rw [heq, update_self]
    · rw [update_of_ne heq]
      exact h.pressed c ((Contacts.mem_live_claim hc).resolve_right fun hnew => heq hnew.1)
  · cases hfree : Contacts.free s.surface.contacts.used with
    | none => rw [Contacts.claim_of_full hnone hfree] at hclaim; cases hclaim
    | some id' =>
      rw [Contacts.claim_of_free hnone hfree] at hclaim ⊢
      cases hclaim
      have hup := Contacts.used_of_free hfree
      have hroom : s.Room := by
        simp only [Heard, hphase] at hheard
        exact hheard (by rw [hinside]; rfl) (by rw [hfree]; rfl)
      exact stream_send h.stream (by decide : (1 : ℕ) ≤ 255) (replayMessage_single hon hup)
        (.inl hroom)

theorem Tracked.step_move {pointer : Pointer}
    (hinside : s.surface.geometry.mapFromPanel touch.x touch.y = some position)
    (hget : s.surface.contacts.get touch.contact = some pointer) : Tracked mode
      { surface := { s.surface with
          contacts := (s.surface.contacts.claim touch.contact position).1 }.send
            (.touchMove [⟨pointer.id, position⟩])
        pressed := s.pressed } := by
  have hon := h.position_inside hpixels hinside
  refine ⟨h.mode_eq, h.geometry_mode, h.sound.claim _ _, fun c hc => ?_, fun c hc => ?_, ?_⟩
  · rcases Contacts.mem_live_claim hc with hlive | ⟨-, hposition⟩
    · exact h.inside c hlive
    · rwa [hposition]
  · rcases Contacts.mem_live_claim hc with hlive | ⟨hcontact, -⟩
    · exact h.pressed c hlive
    · rw [hcontact]
      exact h.pressed _ (Contacts.mem_live_of_get hget)
  · have hdown := h.sound.used_of_get hget
    have hsame : update s.surface.contacts.used pointer.id true =
        s.surface.contacts.used := by
      rw [← hdown, update_eq_self]
    have hreplay : replayMessage mode s.surface.contacts.used
        (.touchMove [⟨pointer.id, position⟩]) = some s.surface.contacts.used := by
      have hsingle := @replayMessage_single mode s.surface.contacts.used ⟨pointer.id, position⟩
        true true hon hdown
      rwa [hsame] at hsingle
    rw [Contacts.claim_of_get hget]
    exact stream_send h.stream (by decide : (1 : ℕ) ≤ 255) hreplay (.inr rfl)

theorem Tracked.step_release (hphase : touch.phase = .up ∨ touch.phase = .cancel)
    {pointer : Pointer} (hget : s.surface.contacts.get touch.contact = some pointer)
    (hheard : s.Heard (.touch touch)) : Tracked mode
      { surface := { s.surface with contacts := (s.surface.contacts.release touch.contact).1 }.send
          (.touchUp [⟨pointer.id,
            (s.surface.geometry.mapFromPanel touch.x touch.y).getD pointer.position⟩])
        pressed := update s.pressed touch.contact false } := by
  have hlive {c : Contact} (hc : c ∈ (s.surface.contacts.release touch.contact).1.live) :
      c ∈ s.surface.contacts.live ∧ c.contact ≠ touch.contact := by
    rw [Contacts.release_of_get hget] at hc
    simpa using hc
  refine ⟨h.mode_eq, h.geometry_mode, h.sound.release _, fun c hc => h.inside c (hlive hc).1,
    fun c hc => ?_, ?_⟩
  · change update s.pressed touch.contact false c.contact = true
    rw [update_of_ne (hlive hc).2]
    exact h.pressed c (hlive hc).1
  · have hroom : s.Room := by
      rcases hphase with hphase | hphase <;> simp only [Heard, hphase] at hheard <;>
        exact hheard (by rw [hget]; rfl)
    have hon : mode.Inside
        ((s.surface.geometry.mapFromPanel touch.x touch.y).getD pointer.position) := by
      cases hmap : s.surface.geometry.mapFromPanel touch.x touch.y with
      | none => exact h.inside _ (Contacts.mem_live_of_get hget)
      | some position => exact h.position_inside hpixels hmap
    have hdown : s.surface.contacts.used pointer.id = true := h.sound.used_of_get hget
    rw [Contacts.release_of_get hget]
    exact stream_send h.stream (by decide : (1 : ℕ) ≤ 255) (replayMessage_single hon hdown)
      (.inl hroom)

theorem Tracked.step_touch (hallowed : s.Allowed (.touch touch))
    (hheard : s.Heard (.touch touch)) : Tracked mode (s.step (.touch touch)) := by
  have htouched := touched s.surface touch
  rw [Driven.step]
  generalize s.surface.touch touch = after at htouched ⊢
  cases htouched with
  | ignored hgone =>
    refine ⟨h.mode_eq, h.geometry_mode, h.sound, h.inside, fun c hc => ?_, h.stream⟩
    have hpressed := h.pressed c hc
    have hlater (hphase : touch.phase = .up ∨ touch.phase = .cancel) :
        update s.pressed touch.contact false c.contact = true := by
      rwa [update_of_ne (Contacts.ne_of_get_eq_none (hgone hphase) hc)]
    cases hphase : touch.phase with
    | down =>
      dsimp only
      by_cases heq : c.contact = touch.contact
      · rw [heq, update_self]
      · rwa [update_of_ne heq]
    | move =>
      dsimp only
      exact hpressed
    | up =>
      dsimp only
      exact hlater (.inl hphase)
    | cancel =>
      dsimp only
      exact hlater (.inr hphase)
  | down hphase hinside hclaim =>
    simp only [hphase]
    exact h.step_down hpixels hphase hinside hclaim hallowed hheard
  | move hphase hinside hget =>
    simp only [hphase]
    exact h.step_move hpixels hinside hget
  | release hphase hget =>
    have hreleased := h.step_release hpixels hphase hget hheard
    rcases hphase with hphase | hphase <;> simp only [hphase] <;> exact hreleased

end

omit [LawfulF32 R] in
theorem Tracked.step_cancelAll {drained : List Contact}
    (hallowed : s.Allowed (.cancelAll drained)) (hheard : s.Heard (.cancelAll drained)) :
    Tracked mode (s.step (.cancelAll drained)) := by
  have hperm : drained.Perm s.surface.contacts.live := hallowed
  have hids : (drained.map (·.pointer)).map (·.id) = drained.map (·.pointer.id) := map_map
  have hreplay : (drained.map (·.pointer)).foldlM (replayPointer mode true false)
      s.surface.contacts.used = some fun _ => false := by
    apply replay_releaseAll
    · intro p hp
      obtain ⟨c, hc, rfl⟩ := mem_map.mp hp
      exact h.inside c (hperm.mem_iff.mp hc)
    · rw [hids]
      exact (hperm.map _).nodup_iff.mpr h.sound.ids_nodup
    · intro id
      rw [hids, (hperm.map _).mem_iff]
      exact h.sound.used_iff id
  change Tracked mode ⟨s.surface.cancelAll drained, fun _ => false⟩
  rw [UibcSurface.cancelAll]
  split
  · next hempty =>
      rw [isEmpty_iff.mp hempty] at hreplay
      obtain ⟨messages, hread, hmessages⟩ := h.stream
      refine ⟨h.mode_eq, h.geometry_mode, Contacts.sound_empty, fun _ hc => absurd hc
        not_mem_nil, fun _ hc => absurd hc not_mem_nil, messages, hread, ?_⟩
      exact hmessages.trans hreplay
  · next hne =>
      obtain ⟨hroom, hcount⟩ := hheard fun heq => hne (by rw [heq]; rfl)
      refine ⟨h.mode_eq, h.geometry_mode, Contacts.sound_empty, fun _ hc => absurd hc
        not_mem_nil, fun _ hc => absurd hc not_mem_nil, ?_⟩
      exact stream_send h.stream (by rwa [GenericInput.Fits, length_map]) hreplay (.inl hroom)

end

theorem Tracked.step (h : Tracked mode s) (hpixels : mode.HasPixels) {e : Event R}
    (hallowed : s.Allowed e) (hheard : s.Heard e) : Tracked mode (s.step e) := by
  cases e with
  | touch touch => exact h.step_touch hpixels hallowed hheard
  | cancelAll drained => exact h.step_cancelAll hallowed hheard
  | panelResized width height =>
    refine ⟨h.mode_eq, ?_, h.sound, h.inside, h.pressed, h.stream⟩
    change (VideoGeometry.letterboxed s.surface.mode width height : VideoGeometry R).mode = mode
    rw [VideoGeometry.letterboxed]
    split <;> exact h.mode_eq
  | recv =>
    refine ⟨h.mode_eq, h.geometry_mode, h.sound, h.inside, h.pressed, ?_⟩
    change ∃ messages, readAll s.surface.frames.recv.sent = some messages ∧ _
    rw [FrameQueue.recv]
    split <;> exact h.stream

/-! ### Every run -/

omit [LawfulF32 R] in
theorem sound_run (mode : VideoMode) (events : List (Event R)) :
    (events.foldl Driven.step (new mode)).surface.contacts.Sound := by
  induction events using List.reverseRecOn with
  | nil => exact Contacts.sound_empty
  | append_singleton events e ih =>
    rw [foldl_concat]
    exact sound_step ih e

theorem tracked_run (entry : ResolutionIndex) {events : List (Event R)}
    (hallowed : Along Driven.step Allowed events (new entry.mode))
    (hheard : Along Driven.step Heard events (new entry.mode)) :
    Tracked entry.mode (events.foldl Driven.step (new entry.mode)) :=
  (along_and.mpr ⟨hallowed, hheard⟩).foldl (Tracked entry.mode) (tracked_new _)
    fun _ _ h he => h.step entry.hasPixels he.1 he.2

omit [LawfulF32 R] in
/-- **The id table is exact in every run**, also where the queue is full: no
contact has two ids, no two contacts share one, and what is marked as used is.
-/
theorem table_exact (entry : ResolutionIndex) (events : List (Event R)) :
    (events.foldl Driven.step (new entry.mode)).surface.contacts.Sound :=
  sound_run entry.mode events

/-- **Live contacts have distinct ids, and what reached the queue is a
well-formed touch stream** that leaves nothing down once no contact is live, in
every run in which no press and no release meets a full queue. -/
theorem touch_stream (entry : ResolutionIndex) (events : List (Event R))
    (hallowed : Along Driven.step Allowed events (new entry.mode)) :
    (events.foldl Driven.step (new entry.mode)).surface.contacts.ids.Nodup ∧
    (Along Driven.step Heard events (new entry.mode) →
      ∃ messages down,
        readAll (events.foldl Driven.step (new entry.mode)).surface.frames.sent = some messages ∧
        replay entry.mode messages = some down ∧
        ((events.foldl Driven.step (new entry.mode)).surface.contacts.live = [] →
          ∀ id, down id = false)) := by
  refine ⟨(sound_run entry.mode events).ids_nodup, fun hheard => ?_⟩
  have htracked := tracked_run entry hallowed hheard
  obtain ⟨messages, hread, hreplay⟩ := htracked.stream
  refine ⟨messages, _, hread, hreplay, fun hlive id => ?_⟩
  have hnone : id ∉ (events.foldl Driven.step (new entry.mode)).surface.contacts.ids := by
    rw [Contacts.ids, hlive]
    exact not_mem_nil
  rw [← htracked.sound.used_iff, Bool.not_eq_true] at hnone
  exact hnone

end Driven

/-! ## Exact arithmetic -/

/-- Rational numbers, with which single precision agrees wherever it is exact.
-/
instance : F32 ℚ where
  ofU16 n := n.toNat
  ofU32 n := n.toNat
  lt a b := a < b
  le a b := a ≤ b
  round a := if 0 ≤ a then ⌊a + 1 / 2⌋ else -⌊-a + 1 / 2⌋
  toU16 a := UInt16.ofNat (min ⌊a⌋.toNat 65535)

instance : LawfulF32 ℚ where
  zero_le n := decide_eq_true (Nat.cast_nonneg _)
  ofU16_le h := decide_eq_true (Nat.cast_le.mpr (UInt16.le_iff_toNat_le.mp h))
  le_of_lt_of_le hab hbc :=
    decide_eq_true ((of_decide_eq_true hab).le.trans (of_decide_eq_true hbc))
  mul_le n hzero hone :=
    decide_eq_true (mul_le_of_le_one_left (Nat.cast_nonneg _) (of_decide_eq_true hone))
  round_le {a n} h := by
    have ha : a ≤ (n.toNat : ℚ) := of_decide_eq_true h
    refine decide_eq_true ?_
    change (if 0 ≤ a then (⌊a + 1 / 2⌋ : ℚ) else -⌊-a + 1 / 2⌋) ≤ (n.toNat : ℚ)
    split
    · have hfloor : ⌊a + 1 / 2⌋ ≤ (n.toNat : ℤ) := by
        refine Int.le_of_lt_add_one (Int.floor_lt.mpr ?_)
        push_cast
        linarith
      exact_mod_cast hfloor
    · next hneg =>
        have hfloor : (0 : ℚ) ≤ ⌊-a + 1 / 2⌋ := by
          exact_mod_cast Int.floor_nonneg.mpr (by linarith [not_le.mp hneg])
        have hn : (0 : ℚ) ≤ n.toNat := Nat.cast_nonneg _
        linarith
  toU16_le {a n} h := by
    have ha : a ≤ ((n.toNat : ℤ) : ℚ) := of_decide_eq_true h
    have hfloor : ⌊a⌋ ≤ n.toNat := Int.cast_le.mp ((Int.floor_le a).trans ha)
    rw [UInt16.le_iff_toNat_le]
    change (UInt16.ofNat (min ⌊a⌋.toNat 65535)).toNat ≤ n.toNat
    rw [UInt16.toNat_ofNat']
    omega

/-- 1920 by 1080 at sixty frames a second. -/
def fullHd : ResolutionIndex := ⟨.cea, 8, by decide⟩

/-- A finger is pressed, moved off the picture and lifted. -/
def tap : List (Event ℚ) :=
  [.touch ⟨7, .down, 0, 0⟩, .touch ⟨7, .move, 1, 1⟩, .recv, .touch ⟨7, .up, 2, 0⟩]

theorem touch_stream_tap : (tap.foldl Driven.step (.new fullHd.mode)).surface.contacts.ids.Nodup ∧
    ∃ messages down,
      readAll (tap.foldl Driven.step (.new fullHd.mode)).surface.frames.sent = some messages ∧
      replay fullHd.mode messages = some down ∧
      ((tap.foldl Driven.step (.new fullHd.mode)).surface.contacts.live = [] →
        ∀ id, down id = false) := by
  have h := Driven.touch_stream fullHd tap
    ⟨fun _ => rfl, (fun h => by cases h), trivial, (fun h => by cases h), trivial⟩
  refine ⟨h.1, h.2 ⟨fun _ _ => ?_, trivial, trivial, fun _ => ?_, trivial⟩⟩
  · decide +kernel
  · decide +kernel

/-- A finger is pressed and moves until the queue is full, and is lifted then.
-/
def stuck : List (Event ℚ) :=
  .touch ⟨7, .down, 0, 0⟩ :: (List.replicate 31 (.touch ⟨7, .move, 1, 1⟩) ++
    [.touch ⟨7, .up, 1, 1⟩])

def stuckMessages : List GenericInput :=
  .touchDown [⟨0, ⟨0, 0⟩⟩] :: List.replicate 31 (.touchMove [⟨0, ⟨1919, 1079⟩⟩])

theorem readAll_map_frameOf (hfits : ∀ m ∈ messages, m.Fits) :
    readAll (messages.map UibcSurface.frameOf) = some messages := by
  induction messages using List.reverseRecOn with
  | nil => rfl
  | append_singleton messages message ih =>
    rw [map_append, map_singleton]
    refine readAll_concat (ih fun m hm => hfits m (mem_append_left _ hm)) ?_
    exact hfits message (mem_append_right _ (mem_singleton_self _))

theorem allowed_moves (n : ℕ) (contact : UInt64) (s : Driven ℚ) :
    Along Driven.step Driven.Allowed (List.replicate n (.touch ⟨contact, .move, 1, 1⟩)) s := by
  induction n generalizing s with
  | zero => trivial
  | succ n ih => exact ⟨(fun h => by cases h), ih _⟩

/-- The release met a full queue, and the source has the finger down for ever.
-/
theorem stuckDown :
    Along Driven.step Driven.Allowed stuck (.new fullHd.mode) ∧
    (stuck.foldl Driven.step (.new fullHd.mode)).surface.contacts.live = [] ∧
    readAll (stuck.foldl Driven.step (.new fullHd.mode)).surface.frames.sent =
      some stuckMessages ∧
    (replay fullHd.mode stuckMessages).map (fun down => down 0) = some true := by
  have hsent : (stuck.foldl Driven.step (.new fullHd.mode)).surface.frames.sent =
      stuckMessages.map UibcSurface.frameOf := by decide +kernel
  refine ⟨?_, by decide +kernel, ?_, by decide +kernel⟩
  · exact ⟨fun _ => rfl, along_append.mpr ⟨allowed_moves _ _ _, (fun h => by cases h), trivial⟩⟩
  · rw [hsent]
    exact readAll_map_frameOf (by decide +kernel)

end Castaway.Miracast
