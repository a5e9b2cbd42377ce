import Castaway.L2cap.Handlers

/-!
# Runs of the multiplexer

A run is a list of calls of the owner, one of which feeds a PDU of the peer.  A
frame holds several commands, and each is handled in the state the ones before
it left, so a condition on a run has two parts: what is asked of a call, and
what is asked of each command of a frame in the state it is handled in.

`run_induction` is the rule for invariants: what every command and every other
call keeps, every run keeps whose steps meet the condition.
-/

namespace Castaway.L2cap

/-- A call of the owner of the multiplexer.  `order`, `ids` and `raws` are the
orders in which the tables involved give up their keys. -/
inductive Call where
  | listenWith (psm : Psm) (mode : ChannelMode)
  | connectWith (psm : Psm) (mode : ChannelMode)
  | send (cid : Cid) (payload : Bytes)
  | disconnect (cid : Cid)
  | linkDown (order : List UInt16)
  | tick (ids : List UInt8) (raws : List UInt16) (elapsed : ℕ)
  | handlePdu (pdu : L2capPdu)

namespace Multiplexer

/-- Make a call: the state it leaves, and what the caller is told. -/
def perform (m : Multiplexer) : Call → Multiplexer × Except L2capError (List L2capEvent)
  | .listenWith psm mode => (m.listenWith psm mode, .ok [])
  | .connectWith psm mode =>
    ((m.connectWith psm mode).1, (m.connectWith psm mode).2.map fun dialled => dialled.2)
  | .send cid payload => m.send cid payload
  | .disconnect cid => m.disconnect cid
  | .linkDown order => ((m.linkDown order).1, .ok (m.linkDown order).2)
  | .tick ids raws elapsed =>
    ((m.tick ids raws elapsed).1, .ok (m.tick ids raws elapsed).2)
  | .handlePdu pdu => m.handlePdu pdu

def run (m : Multiplexer) (calls : List Call) : Multiplexer :=
  calls.foldl (fun m call => (m.perform call).1) m

/-! ## Orders

The source walks over a hash map in an order of its own.  A call brings the
order, and it must list the keys of the table. -/

/-- `order` lists the keys of a table, each once. -/
structure Lists {κ β : Type} (order : List κ) (table : κ → Option β) : Prop where
  nodup : order.Nodup
  mem : ∀ k, k ∈ order ↔ (table k).isSome = true

/-- The orders a call brings are orders of the tables it walks over. -/
def Ordered (m : Multiplexer) : Call → Prop
  | .linkDown order => Lists order m.channels
  | .tick ids raws _ => Lists ids m.outstanding ∧ Lists raws m.ertm
  | _ => True

def RunOrdered (calls : List Call) (m : Multiplexer) : Prop :=
  Along (fun m call => (m.perform call).1) Ordered calls m

/-! ## Conditions on runs -/

/-- A condition on the steps of a run, each in the state before it. -/
structure Condition where
  call : Multiplexer → Call → Bool
  command : Multiplexer → Signal → Bool

/-- The commands of a frame meet the condition, up to the first that fails. -/
def signalsMeet (condition : Condition) : List Signal → Multiplexer → Bool
  | [], _ => true
  | sig :: rest, m =>
    condition.command m sig &&
      match m.handleSignal sig with
      | (m, .ok _) => signalsMeet condition rest m
      | (_, .error _) => true

/-- A call meets the condition, and so do the commands it feeds. -/
def callMeets (condition : Condition) (m : Multiplexer) (call : Call) : Bool :=
  condition.call m call &&
    match call with
    | .handlePdu pdu =>
      if pdu.cid = .signaling then
        signalsMeet condition (Signal.decodeFrame pdu.payload).signals m
      else true
    | _ => true

def runMeets (condition : Condition) : List Call → Multiplexer → Bool
  | [], _ => true
  | call :: rest, m => callMeets condition m call && runMeets condition rest (m.perform call).1

variable {condition : Condition} {I : Multiplexer → Prop}

theorem runMeets_append (before after : List Call) (m : Multiplexer) :
    runMeets condition (before ++ after) m =
      (runMeets condition before m && runMeets condition after (m.run before)) := by
  induction before generalizing m with
  | nil => simp [runMeets, run]
  | cons call rest ih =>
    rw [List.cons_append, runMeets, runMeets, ih, Bool.and_assoc]
    rfl

theorem runMeets_reached {reached calls : List Call} (hreached : reached <+: calls)
    {m : Multiplexer} (hmeets : runMeets condition calls m = true) :
    runMeets condition reached m = true := by
  obtain ⟨rest, rfl⟩ := hreached
  rw [runMeets_append, Bool.and_eq_true] at hmeets
  exact hmeets.1

theorem handleSignals_induction
    (hcommand : ∀ m sig, I m → condition.command m sig = true → I (m.handleSignal sig).1)
    (signals : List Signal) {m : Multiplexer} (hm : I m)
    (hmeets : signalsMeet condition signals m = true) (out : List L2capEvent) :
    I (handleSignals signals m out).1 := by
  induction signals generalizing m out with
  | nil => exact hm
  | cons sig rest ih =>
    simp only [signalsMeet, Bool.and_eq_true] at hmeets
    have hnext := hcommand m sig hm hmeets.1
    unfold handleSignals
    revert hmeets hnext
    generalize m.handleSignal sig = outcome
    intro hmeets hnext
    obtain ⟨m', error | events⟩ := outcome
    · exact hnext
    · exact ih hnext hmeets.2 _

/-- **What every step keeps, every run keeps.**  `hdata` is the case of a PDU
that is not on the signaling channel. -/
theorem run_induction
    (hcommand : ∀ m sig, I m → condition.command m sig = true → I (m.handleSignal sig).1)
    (hdata : ∀ m pdu, I m → condition.call m (.handlePdu pdu) = true → I (m.handleData pdu).1)
    (hcall : ∀ m call, I m → condition.call m call = true → (∀ pdu, call ≠ .handlePdu pdu) →
      I (m.perform call).1) (calls : List Call) {m : Multiplexer} (hm : I m)
    (hmeets : runMeets condition calls m = true) : I (m.run calls) := by
  induction calls generalizing m with
  | nil => exact hm
  | cons call rest ih =>
    simp only [runMeets, callMeets, Bool.and_eq_true] at hmeets
    refine ih ?_ hmeets.2
    cases call with
    | handlePdu pdu =>
      simp only [perform, handlePdu]
      split
      next hsignaling =>
        simp only [hsignaling, if_true] at hmeets
        rw [rejectAll_eq, andThen_ok]
        exact handleSignals_induction hcommand _ hm hmeets.1.2 _
      next => exact hdata m pdu hm hmeets.1.1
    | _ => exact hcall m _ hm hmeets.1.1 nofun

end Multiplexer

end Castaway.L2cap
