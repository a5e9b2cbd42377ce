import Castaway.Bluetooth.Codec

/-!
# AVRCP messages

AVCTP carries AV/C frames, and a vendor-dependent frame carries a PDU of AVRCP.
Here are the PDUs of fragmented responses, and those by which the settings of a
player are listed.
-/

namespace Castaway.Bluetooth

/-! ## AVCTP -/

inductive CommandResponse where
  | command
  | response
  deriving DecidableEq, Repr

def pidAvrcp : UInt16 := 0x110E

structure AvctpMessage where
  /-- Correlates a response with its command.  Four bits. -/
  transaction : UInt8
  cr : CommandResponse
  pid : UInt16
  body : Bytes
  deriving DecidableEq

namespace AvctpMessage

def command (transaction : UInt8) (body : Bytes) : AvctpMessage :=
  ⟨transaction, .command, pidAvrcp, body⟩

def encode (msg : AvctpMessage) : Bytes :=
  let cr : UInt8 := if msg.cr = .response then 1 else 0
  ((msg.transaction <<< 4) ||| (cr <<< 1)) :: (beBytes 2 msg.pid.toNat ++ msg.body)

end AvctpMessage

/-! ## AV/C -/

/-- Command types and response codes, which share a field of four bits. -/
inductive Ctype where
  | control
  | status
  | notify
  | notImplemented
  | accepted
  | rejected
  | stable
  | interim
  | changed
  | other (raw : UInt8)
  deriving DecidableEq, Repr

namespace Ctype

def bits : Ctype → UInt8
  | control => 0x0
  | status => 0x1
  | notify => 0x3
  | notImplemented => 0x8
  | accepted => 0x9
  | rejected => 0xA
  | stable => 0xC
  | changed => 0xD
  | interim => 0xF
  | other raw => raw &&& 0x0F

def isFailure : Ctype → Bool
  | rejected | notImplemented => true
  | _ => false

/-- The upper half of the field holds the response codes. -/
def isResponse (ctype : Ctype) : Bool := 0x8 ≤ ctype.bits

end Ctype

def vendorDependent : UInt8 := 0x00

structure AvcFrame where
  ctype : Ctype
  opcode : UInt8
  operands : Bytes
  deriving DecidableEq

def AvcFrame.encode (frame : AvcFrame) : Bytes :=
  frame.ctype.bits :: ((0x09 : UInt8) <<< 3) :: frame.opcode :: frame.operands

def avctpBody (transaction : UInt8) (frame : AvcFrame) : Bytes :=
  (AvctpMessage.command transaction frame.encode).encode

def nextTransaction (counter : UInt8) : UInt8 × UInt8 := (counter &&& 0x0F, counter + 1)

/-! ## Vendor-dependent PDUs -/

def vendorCommand (ctype : Ctype) (pduId : UInt8) (parameters : Bytes) : AvcFrame :=
  ⟨ctype, vendorDependent,
    [0x00, 0x19, 0x58, pduId, 0x00] ++
      beBytes 2 (if parameters.length < 65536 then parameters.length else 65535) ++ parameters⟩

/-- Where a PDU sits in a fragmented exchange. -/
inductive PacketType where
  | single
  | start
  | continue
  | end
  deriving DecidableEq, Repr

def PacketType.fromBits (bits : UInt8) : PacketType :=
  if bits &&& 0b11 = 1 then .start
  else if bits &&& 0b11 = 2 then .continue
  else if bits &&& 0b11 = 3 then .end
  else .single

structure VendorPdu where
  pduId : UInt8
  packetType : PacketType
  /-- Those of this fragment, if it is one. -/
  parameters : Bytes
  deriving DecidableEq, Repr

def VendorPdu.parse (operands : Bytes) : Except AudioError VendorPdu :=
  match operands with
  | _ :: _ :: _ :: pduId :: kind :: l₁ :: l₂ :: rest =>
    let len := beNat [l₁, l₂]
    if rest.length < len then
      .error (.truncated "avrcp vendor pdu parameters" (7 + len) operands.length)
    else .ok ⟨pduId, .fromBits kind, rest.take len⟩
  | _ => .error (.truncated "avrcp vendor pdu header" 7 operands.length)

def AvcFrame.vendorPdu (frame : AvcFrame) : Option VendorPdu :=
  if frame.opcode = vendorDependent then (VendorPdu.parse frame.operands).toOption else none

def requestContinuing (pduId : UInt8) : AvcFrame := vendorCommand .control 0x40 [pduId]

def abortContinuing (pduId : UInt8) : AvcFrame := vendorCommand .control 0x41 [pduId]

/-- The PDU of a command of ours, which is no longer than its length field can
say. -/
theorem vendorPdu_vendorCommand (ctype : Ctype) (pduId : UInt8) (parameters : Bytes) :
    (vendorCommand ctype pduId parameters).vendorPdu =
      some ⟨pduId, .single, parameters.take 65535⟩ := by
  have hlength : beNat (beBytes 2 (min parameters.length 65535)) = min parameters.length 65535 :=
    beNat_beBytes (by omega)
  have hcut : (if parameters.length < 65536 then parameters.length else 65535) =
      min parameters.length 65535 := by
    split <;> omega
  have hparse : VendorPdu.parse ([0x00, 0x19, 0x58, pduId, 0x00] ++
      beBytes 2 (min parameters.length 65535) ++ parameters) =
      .ok ⟨pduId, .single, parameters.take 65535⟩ := by
    obtain ⟨l₁, l₂, hbytes⟩ : ∃ l₁ l₂, beBytes 2 (min parameters.length 65535) = [l₁, l₂] :=
      List.length_eq_two.mp (length_beBytes _ _)
    rw [hbytes] at hlength ⊢
    have hfits : ¬ parameters.length < min parameters.length 65535 := by omega
    simp only [List.cons_append, List.nil_append, VendorPdu.parse, hlength, if_neg hfits]
    rw [Nat.min_comm, ← List.take_take, List.take_length]
    rfl
  rw [vendorCommand, hcut, AvcFrame.vendorPdu, if_pos rfl, hparse]
  rfl

end Castaway.Bluetooth
