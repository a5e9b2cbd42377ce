import Castaway.Hci.CommandWindow
import Castaway.Lib.Utf8

/-!
# The commands of the host

The commands by which a controller is brought up, and those by which connections
and pairings are answered, with their parameters as they are encoded.  A name
and an inquiry response fill a field of fixed length.
-/

namespace Castaway.Hci

/-- A device address, in the order in which it is displayed. -/
structure BdAddr where
  octets : Bytes
  six : octets.length = 6
  deriving DecidableEq

namespace BdAddr

def zero : BdAddr := ⟨[0, 0, 0, 0, 0, 0], rfl⟩

def toWire (addr : BdAddr) : Bytes := addr.octets.reverse

def fromWire (wire : Bytes) : Option BdAddr :=
  if h : 6 ≤ wire.length then some ⟨(wire.take 6).reverse, by simp [h]⟩ else none

end BdAddr

@[ext]
structure LinkKey where
  bytes : Bytes
  sixteen : bytes.length = 16

instance : DecidableEq LinkKey := fun a b =>
  decidable_of_iff (a.bytes = b.bytes) LinkKey.ext_iff.symm

/-- Which scans the controller answers. -/
inductive ScanEnable where
  | none
  | connectableOnly
  | discoverableAndConnectable
  deriving DecidableEq

def ScanEnable.bits : ScanEnable → UInt8
  | none => 0x00
  | connectableOnly => 0x02
  | discoverableAndConnectable => 0x03

/-! ## The inquiry response -/

def eirCapacity : ℕ := 240

/-- Append a structure, if there is room for it. -/
def eirPush (buf : Bytes) (kind : UInt8) (data : Bytes) : Bytes :=
  if data.length + 1 ≤ 255 ∧ data.length + 2 ≤ eirCapacity - buf.length then
    buf ++ UInt8.ofNat (data.length + 1) :: kind :: data
  else buf

def fitting : ℕ → List Char → List Char
  | _, [] => []
  | budget, c :: name =>
    let size := (String.utf8EncodeChar c).length
    if size ≤ budget then c :: fitting (budget - size) name else []

/-- Append the name, shortened if it does not fit, and left out if nothing of it
does. -/
def eirName (buf : Bytes) (name : List Char) : Bytes :=
  let budget := eirCapacity - buf.length - 2
  let whole := name.flatMap String.utf8EncodeChar
  let named := if whole.length ≤ budget then ((0x09 : UInt8), whole)
    else (0x08, (fitting budget name).flatMap String.utf8EncodeChar)
  if named.2 = [] then buf else eirPush buf named.1 named.2

/-! ## Commands -/

namespace Command

def padded (length : ℕ) (data : Bytes) : Bytes :=
  data ++ List.replicate (length - data.length) 0

def reset : Command := ⟨⟨0x0C03⟩, []⟩
def readLocalVersion : Command := ⟨⟨0x1001⟩, []⟩
def readBufferSize : Command := ⟨⟨0x1005⟩, []⟩
def readBdAddr : Command := ⟨⟨0x1009⟩, []⟩
def setEventMask (mask : UInt64) : Command := ⟨⟨0x0C01⟩, leBytes 8 mask.toNat⟩
def writeClassOfDevice (raw : UInt32) : Command := ⟨⟨0x0C24⟩, leBytes 3 raw.toNat⟩

def writeLocalName (name : List Char) : Command :=
  ⟨⟨0x0C13⟩, padded 248 (name.flatMap String.utf8EncodeChar)⟩

def writeExtendedInquiryResponse (fecRequired : Bool) (data : Bytes) : Command :=
  ⟨⟨0x0C52⟩, fecRequired.toUInt8 :: padded eirCapacity data⟩

def writeSimplePairingMode (on : Bool) : Command := ⟨⟨0x0C56⟩, [on.toUInt8]⟩

def writeInquiryScanActivity (interval window : UInt16) : Command :=
  ⟨⟨0x0C1E⟩, leBytes 2 interval.toNat ++ leBytes 2 window.toNat⟩

def writeInquiryScanType (interlaced : Bool) : Command := ⟨⟨0x0C43⟩, [interlaced.toUInt8]⟩
def writePageScanType (interlaced : Bool) : Command := ⟨⟨0x0C47⟩, [interlaced.toUInt8]⟩
def writeScanEnable (scan : ScanEnable) : Command := ⟨⟨0x0C1A⟩, [scan.bits]⟩

def about (opcode : UInt16) (addr : BdAddr) (rest : Bytes) : Command :=
  ⟨⟨opcode⟩, addr.toWire ++ rest⟩

def acceptConnectionRequest (addr : BdAddr) : Command := about 0x0409 addr [0x01]

def rejectConnectionRequest (addr : BdAddr) (reason : UInt8) : Command :=
  about 0x040A addr [reason]

def linkKeyRequestReply (addr : BdAddr) (key : LinkKey) : Command := about 0x040B addr key.bytes
def linkKeyRequestNegativeReply (addr : BdAddr) : Command := about 0x040C addr []
def pinCodeRequestNegativeReply (addr : BdAddr) : Command := about 0x040E addr []
def remoteNameRequest (addr : BdAddr) : Command := about 0x0419 addr [0x01, 0x00, 0x00, 0x00]

/-- No input and no output, no data out of band, and general bonding. -/
def ioCapabilityRequestReply (addr : BdAddr) : Command := about 0x042B addr [0x03, 0x00, 0x04]

def userConfirmationRequestReply (addr : BdAddr) : Command := about 0x042C addr []

end Command

end Castaway.Hci
