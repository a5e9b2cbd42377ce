import Castaway.Lib.Bytes

/-!
# L2CAP identifiers, PDUs and errors

The channel identifier, the protocol/service multiplexer and the basic PDU of
`pdu.rs`, and the failures of `error.rs`.  A `Psm` carries the odd/bit-8 rule
as a field, so `Psm.new` is the only way to make one from a number.
-/

namespace Castaway.L2cap

/-- A channel identifier: which logical channel a PDU belongs to on one link. -/
structure Cid where
  raw : UInt16
  deriving DecidableEq, Repr

namespace Cid

/-- The null identifier, which is never a valid destination. -/
def null : Cid := ⟨0x0000⟩

/-- The signaling channel. -/
def signaling : Cid := ⟨0x0001⟩

/-- First identifier available for dynamically allocated channels. -/
def dynamicStart : UInt16 := 0x0040

end Cid

/-- Failures parsing or driving L2CAP. -/
inductive L2capError where
  | truncated (what : String) (need held : ℕ)
  | tooLong (len max : ℕ)
  | invalidPsm (raw : UInt16)
  | unknownSignalingCode (code : UInt8)
  | unknownChannel (cid : Cid)
  | wrongState (cid : Cid) (state action : String)
  | outOfCids
  | badFcs (cid : Cid) (expected actual : UInt16)
  deriving DecidableEq, Repr

/-- The odd/bit-8 rule a protocol/service multiplexer obeys. -/
def Psm.Valid (raw : UInt16) : Prop := raw &&& 0x0001 ≠ 0 ∧ raw &&& 0x0100 = 0

instance (raw : UInt16) : Decidable (Psm.Valid raw) := inferInstanceAs (Decidable (_ ∧ _))

/-- A protocol/service multiplexer: which service a connection request asks for.
-/
structure Psm where
  raw : UInt16
  valid : Psm.Valid raw
  deriving DecidableEq

namespace Psm

def new (raw : UInt16) : Except L2capError Psm :=
  if h : Valid raw then .ok ⟨raw, h⟩ else .error (.invalidPsm raw)

@[simp] theorem new_raw (psm : Psm) : new psm.raw = .ok psm := by
  simp [new, psm.valid]

/-- Service discovery. -/
def sdp : Psm := ⟨0x0001, by decide⟩

/-- AVCTP, the transport of AVRCP. -/
def avctp : Psm := ⟨0x0017, by decide⟩

/-- AVDTP, A2DP's signaling and media transport. -/
def avdtp : Psm := ⟨0x0019, by decide⟩

end Psm

/-- A basic-mode L2CAP PDU: a payload on a channel. -/
structure L2capPdu where
  cid : Cid
  payload : Bytes
  deriving DecidableEq

/-- Encode, the length first.  It counts the payload alone. -/
def L2capPdu.encode (pdu : L2capPdu) : Except L2capError Bytes :=
  if pdu.payload.length > 65535 then .error (.tooLong pdu.payload.length 65535)
  else .ok (putU16Le (.ofNat pdu.payload.length) ++ putU16Le pdu.cid.raw ++ pdu.payload)

end Castaway.L2cap
