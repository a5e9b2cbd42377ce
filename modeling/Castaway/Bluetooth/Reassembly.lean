import Castaway.Bluetooth.Avrcp
import Castaway.Lib.Runs

/-!
# Fragmented responses

A response that does not fit a frame comes as a Start, some Continues and an
End, each after the first asked for.  `reassemble` holds one buffer, keyed by a
PDU.

## Strategy

An exchange is what a Start opens: `follow` keeps its fragments, from the
arriving PDUs alone.  A single response of another PDU leaves it, and any
fragment that does not belong to it breaks it off.  The buffer is that of the
exchange in flight as long as no single response comes between (`Held`), but a
Continue may open a buffer too, of an exchange whose Start is missing.
-/

namespace Castaway.Bluetooth

def maxAvrcpReassembly : ℕ := 64 * 1024

/-- What a link keeps for its responses. -/
structure Reassembly where
  /-- The PDU of a fragmented response, and what has come of it. -/
  buffer : Option (UInt8 × Bytes) := none
  transaction : UInt8 := 0
  deriving DecidableEq

namespace Reassembly

/-- What an arriving PDU comes to. -/
structure Outcome where
  link : Reassembly
  /-- What is handed on. -/
  response : Option VendorPdu := none
  replies : List Bytes := []
  deriving DecidableEq

/-- Send a request of ours, and hold back what has come. -/
def ask (link : Reassembly) (frame : AvcFrame) : Outcome where
  link := { link with transaction := (nextTransaction link.transaction).2 }
  replies := [avctpBody (nextTransaction link.transaction).1 frame]

def bufferFor (link : Reassembly) (vendor : VendorPdu) : Bytes :=
  match link.buffer with
  | some (id, data) => if id ≠ vendor.pduId ∨ vendor.packetType = .start then [] else data
  | none => []

/-- Fold a fragmented response into a whole one. -/
def reassemble (link : Reassembly) (vendor : VendorPdu) (isResponse : Bool) : Outcome :=
  if !isResponse then { link, response := some vendor }
  else
    match vendor.packetType with
    | .single => { link := { link with buffer := none }, response := some vendor }
    | .start | .continue =>
      let data := link.bufferFor vendor ++ vendor.parameters
      if maxAvrcpReassembly < data.length then
        ask { link with buffer := none } (abortContinuing vendor.pduId)
      else
        ask { link with buffer := some (vendor.pduId, data) } (requestContinuing vendor.pduId)
    | .end =>
      match link.buffer with
      | none => { link }
      | some (id, data) =>
        if id ≠ vendor.pduId then { link := { link with buffer := none } }
        else
          { link := { link with buffer := none }
            response := some ⟨id, .single, data ++ vendor.parameters⟩ }

end Reassembly

/-! ## The exchange in flight -/

abbrev Fragments := UInt8 × List Bytes

/-- An exchange goes on unless it has grown too large. -/
def bounded (exchange : Fragments) : Option Fragments :=
  if maxAvrcpReassembly < exchange.2.flatten.length then none else some exchange

def follow (exchange : Option Fragments) (vendor : VendorPdu) : Option Fragments :=
  match vendor.packetType with
  | .single => exchange.filter fun e => e.1 ≠ vendor.pduId
  | .start => bounded (vendor.pduId, [vendor.parameters])
  | .continue =>
    exchange.bind fun e =>
      if e.1 = vendor.pduId then bounded (e.1, e.2 ++ [vendor.parameters]) else none
  | .end => none

def whole (exchange : Option Fragments) (vendor : VendorPdu) : Option VendorPdu :=
  exchange.bind fun e =>
    let parameters := (e.2 ++ [vendor.parameters]).flatten
    if e.1 = vendor.pduId ∧ parameters.length ≤ maxAvrcpReassembly then
      some ⟨vendor.pduId, .single, parameters⟩
    else none

/-- A link, and the exchange in flight on it. -/
structure Conversation where
  link : Reassembly
  exchange : Option Fragments := none

/-- What a link meets: a frame, or another request of ours, which takes a label.
-/
inductive Arrival where
  | frame (frame : AvcFrame)
  | label

namespace Conversation

def receive (c : Conversation) (vendor : VendorPdu) (isResponse : Bool) : Conversation where
  link := (c.link.reassemble vendor isResponse).link
  exchange := if isResponse then follow c.exchange vendor else c.exchange

def arrive (c : Conversation) : Arrival → Conversation
  | .frame frame =>
    match frame.vendorPdu with
    | none => c
    | some vendor => c.receive vendor frame.ctype.isResponse
  | .label =>
    { c with link := { c.link with transaction := (nextTransaction c.link.transaction).2 } }

def Faithful (c : Conversation) (vendor : VendorPdu) (o : Reassembly.Outcome) : Prop :=
  match vendor.packetType with
  | .single =>
    o.response = some vendor ∧ o.replies = [] ∧
      ∀ id fragments, c.exchange = some (id, fragments) → id ≠ vendor.pduId →
        o.link.buffer = some (id, fragments.flatten)
  | .start | .continue =>
    o.response = none ∧
      (∀ id data, o.link.buffer = some (id, data) → data.length ≤ maxAvrcpReassembly) ∧
      ∃ label, o.replies = [avctpBody label (if o.link.buffer.isSome then
        requestContinuing vendor.pduId else abortContinuing vendor.pduId)]
  | .end => o.response = whole c.exchange vendor ∧ o.replies = []

/-- Only whole responses are handed on, and commands as they came. -/
def Whole (c : Conversation) : Arrival → Prop
  | .frame frame => ∀ vendor, frame.vendorPdu = some vendor →
      if frame.ctype.isResponse then c.Faithful vendor (c.link.reassemble vendor true)
      else c.link.reassemble vendor false = { link := c.link, response := some vendor }
  | .label => True

/-- No single response comes while fragments of another PDU are in flight, and
no End to a buffer that has no Start or that it takes past the bound. -/
def Orderly (c : Conversation) : Arrival → Prop
  | .frame frame => ∀ vendor, frame.vendorPdu = some vendor → frame.ctype.isResponse →
      match vendor.packetType with
      | .single => ∀ e, c.exchange = some e → e.1 = vendor.pduId
      | .start | .continue => True
      | .end => ∀ data, c.link.buffer = some (vendor.pduId, data) →
          c.exchange.isSome ∧ data.length + vendor.parameters.length ≤ maxAvrcpReassembly
  | .label => True

def Held (c : Conversation) : Prop :=
  ∀ e, c.exchange = some e → c.link.buffer = some (e.1, e.2.flatten)

variable {c : Conversation} {vendor : VendorPdu}

theorem bounded_eq_some {e e' : Fragments} (h : bounded e = some e') :
    e' = e ∧ e.2.flatten.length ≤ maxAvrcpReassembly := by
  unfold bounded at h
  split at h
  next => cases h
  next hsize =>
    cases h
    exact ⟨rfl, Nat.not_lt.mp hsize⟩

/-- A fragment behind others, in a buffer with room for it. -/
theorem reassemble_of_fits (hkind : vendor.packetType = .start ∨ vendor.packetType = .continue)
    (hfits : (c.link.bufferFor vendor ++ vendor.parameters).length ≤ maxAvrcpReassembly) :
    (c.link.reassemble vendor true).link.buffer =
      some (vendor.pduId, c.link.bufferFor vendor ++ vendor.parameters) := by
  have hroom := Nat.not_lt.mpr hfits
  rcases hkind with hkind | hkind
  all_goals
    rw [Reassembly.reassemble, hkind]
    simp only [Bool.not_true, Bool.false_eq_true, if_false, if_neg hroom]
    rfl

/-- Every fragment that is not the last has one request sent for it. -/
theorem faithful_fragment (hkind : vendor.packetType = .start ∨ vendor.packetType = .continue) :
    c.Faithful vendor (c.link.reassemble vendor true) := by
  rcases hkind with hkind | hkind
  all_goals
    rw [Faithful, hkind]
    simp only [Reassembly.reassemble, hkind, Bool.not_true, Bool.false_eq_true, if_false]
    split
    next => exact ⟨rfl, by simp [Reassembly.ask], _, rfl⟩
    next hroom =>
      refine ⟨rfl, ?_, _, rfl⟩
      intro id data hdata
      simp only [Reassembly.ask, Option.some.injEq, Prod.mk.injEq] at hdata
      rw [← hdata.2]
      exact Nat.not_lt.mp hroom

theorem faithful_single_iff (hkind : vendor.packetType = .single) :
    c.Faithful vendor (c.link.reassemble vendor true) ↔
      ∀ e, c.exchange = some e → e.1 = vendor.pduId := by
  rw [Faithful, hkind]
  simp only [Reassembly.reassemble, hkind, Bool.not_true, Bool.false_eq_true, if_false, true_and]
  constructor
  · intro hkept e he
    by_contra hother
    exact absurd (hkept e.1 e.2 he hother) (by simp)
  · intro hsame id fragments hexchange hother
    exact absurd (hsame _ hexchange) hother

theorem faithful_end_iff (h : Held c) (hkind : vendor.packetType = .end) :
    c.Faithful vendor (c.link.reassemble vendor true) ↔
      ∀ data, c.link.buffer = some (vendor.pduId, data) →
        c.exchange.isSome ∧ data.length + vendor.parameters.length ≤ maxAvrcpReassembly := by
  rw [Faithful, hkind]
  simp only [Reassembly.reassemble, hkind, Bool.not_true, Bool.false_eq_true, if_false]
  cases hexchange : c.exchange with
  | none =>
    cases hbuffer : c.link.buffer with
    | none => simp [whole]
    | some held =>
      by_cases hsame : held.1 = vendor.pduId
      · simp [whole, hsame, Prod.ext_iff]
      · simp [whole, hsame, Prod.ext_iff]
  | some e =>
    rw [h e hexchange]
    by_cases hsame : e.1 = vendor.pduId
    · simp [whole, hsame]
    · simp [whole, hsame]

/-- The exchange that a fragment leaves is the one it belongs to, and the buffer
has it. -/
theorem held_fragment (h : Held c)
    (hkind : vendor.packetType = .start ∨ vendor.packetType = .continue) {e : Fragments}
    (he : follow c.exchange vendor = some e) :
    (c.link.reassemble vendor true).link.buffer = some (e.1, e.2.flatten) := by
  have hfollowed : e.1 = vendor.pduId ∧
      e.2.flatten = c.link.bufferFor vendor ++ vendor.parameters ∧
      e.2.flatten.length ≤ maxAvrcpReassembly := by
    rcases hkind with hkind | hkind
    · rw [follow, hkind] at he
      obtain ⟨rfl, hsize⟩ := bounded_eq_some he
      refine ⟨rfl, ?_, hsize⟩
      unfold Reassembly.bufferFor
      split <;> simp [hkind]
    · rw [follow, hkind] at he
      obtain ⟨held, hexchange, hsome⟩ := Option.bind_eq_some_iff.mp he
      split at hsome
      next hsame =>
        obtain ⟨rfl, hsize⟩ := bounded_eq_some hsome
        refine ⟨hsame, ?_, hsize⟩
        simp [Reassembly.bufferFor, h held hexchange, hsame, hkind]
      next => cases hsome
  obtain ⟨hid, hdata, hsize⟩ := hfollowed
  rw [reassemble_of_fits hkind (hdata ▸ hsize), hid, hdata]

theorem held_response (h : Held c)
    (horderly : vendor.packetType = .single → ∀ e, c.exchange = some e → e.1 = vendor.pduId)
    {e : Fragments} (he : follow c.exchange vendor = some e) :
    (c.link.reassemble vendor true).link.buffer = some (e.1, e.2.flatten) := by
  cases hkind : vendor.packetType with
  | single =>
    rw [follow, hkind] at he
    obtain ⟨hexchange, hother⟩ := Option.filter_eq_some_iff.mp he
    exact absurd (horderly hkind e hexchange) (by simpa using hother)
  | start => exact held_fragment h (.inl hkind) he
  | «continue» => exact held_fragment h (.inr hkind) he
  | «end» =>
    rw [follow, hkind] at he
    cases he

theorem held_receive (h : Held c) (isResponse : Bool)
    (horderly : isResponse → vendor.packetType = .single →
      ∀ e, c.exchange = some e → e.1 = vendor.pduId) : Held (c.receive vendor isResponse) := by
  intro e he
  cases isResponse with
  | false => simpa [receive, Reassembly.reassemble] using h e he
  | true => exact held_response h (horderly rfl) he

theorem held_arrive (h : Held c) {a : Arrival} (horderly : Orderly c a) : Held (c.arrive a) := by
  cases a with
  | label => exact h
  | frame frame =>
    rw [arrive]
    split
    next => exact h
    next vendor hvendor =>
      refine held_receive h _ fun hresponse hkind => ?_
      have hsingle := horderly vendor hvendor hresponse
      rwa [hkind] at hsingle

theorem whole_iff_orderly (h : Held c) (a : Arrival) : Whole c a ↔ Orderly c a := by
  cases a with
  | label => rfl
  | frame frame =>
    refine forall_congr' fun vendor => imp_congr_right fun _ => ?_
    cases frame.ctype.isResponse with
    | false => simp [Reassembly.reassemble]
    | true =>
      simp only [if_true, true_implies]
      cases hkind : vendor.packetType with
      | single => exact faithful_single_iff hkind
      | start => exact iff_of_true (faithful_fragment (.inl hkind)) trivial
      | «continue» => exact iff_of_true (faithful_fragment (.inr hkind)) trivial
      | «end» => exact faithful_end_iff h hkind

/-- Whatever arrives on a link, the responses handed on are whole and those in
flight are let be, exactly when no single response comes in between and no End
to fragments that have no Start or are too many. -/
theorem responses_whole_iff (transaction : UInt8) (arrivals : List Arrival) :
    Along arrive Whole arrivals { link := { transaction } } ↔
      Along arrive Orderly arrivals { link := { transaction } } := by
  refine along_congr_of_invariant Held (fun e he => by cases he) fun c a hheld => ?_
  exact ⟨whole_iff_orderly hheld a, held_arrive hheld⟩

/-- The playback position changes while the title of a track is on its way. -/
def interrupted : List Arrival :=
  [.frame ⟨.stable, 0x00, [0, 0x19, 0x58, 0x20, 1, 0, 2, 1, 2]⟩,
    .frame ⟨.changed, 0x00, [0, 0x19, 0x58, 0x31, 0, 0, 5, 5, 0, 0, 0, 1]⟩,
    .frame ⟨.stable, 0x00, [0, 0x19, 0x58, 0x20, 2, 0, 2, 3, 4]⟩,
    .frame ⟨.stable, 0x00, [0, 0x19, 0x58, 0x20, 3, 0, 2, 5, 6]⟩]

/-- The response that is handed on begins with the second fragment. -/
theorem response_cut_by_notification : ¬ Along arrive Whole interrupted { link := {} } ∧
      (((interrupted.take 3).foldl arrive { link := {} }).link.reassemble
        ⟨0x20, .end, [5, 6]⟩ true).response = some ⟨0x20, .single, [3, 4, 5, 6]⟩ := by
  refine ⟨fun h => ?_, by decide⟩
  have hsingle := h.2.1 ⟨0x31, .single, [5, 0, 0, 0, 1]⟩ (by decide)
  have hkept := hsingle.2.2 0x20 [[1, 2]] (by decide) (by decide)
  revert hkept
  decide

end Conversation

end Castaway.Bluetooth
