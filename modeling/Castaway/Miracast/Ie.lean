import Castaway.Lib.Bytes
import Castaway.Lib.Result
import Castaway.Lib.Split

/-!
# The Wi-Fi Display information element

What a sink says about itself in a beacon: subelements, each an id, a big-endian
length of two bytes and a body.  They are carried by vendor-specific elements,
each an id, a length of one byte and a body that starts with the Wi-Fi
Alliance's OUI and the type of Wi-Fi Display.  An element's body holds 255
bytes, so the subelements are cut at 251 bytes wherever that falls, and a reader
joins the bodies of a frame's elements before it looks for a subelement.

An index out of range is the `fault` of `Stop`, which is not one of the errors
of `parseFrame`.
-/

namespace Castaway.Ie

/-- The vendor-specific element id, shared with every other vendor's element. -/
def elementId : UInt8 := 0xDD

/-- The Wi-Fi Alliance OUI. -/
def ouiWfa : Bytes := [0x50, 0x6F, 0x9A]

/-- Wi-Fi Display's type.  Wi-Fi Direct's, under the same OUI, is `0x09`. -/
def ouiTypeWfd : UInt8 := 0x0A

/-- 255, less the OUI and the type. -/
def maxSubelementsPerIe : ℕ := 251

inductive IeError where
  | truncated
  | notWfd
  | badSubelementLength (id : UInt8) (declared actual : ℕ)
  deriving DecidableEq, Repr

/-- Why a computation has no value. -/
inductive Stop where
  | fault
  | error (e : IeError)
  deriving DecidableEq, Repr

abbrev Result (α : Type) := Except Stop α

/-- `buf[i]` -/
def index (buf : Bytes) (i : ℕ) : Result UInt8 :=
  match buf[i]? with
  | some b => .ok b
  | none => .error .fault

/-- `buf.get(first..last).ok_or(e)` -/
def rangeOr (buf : Bytes) (first last : ℕ) (e : IeError) : Result Bytes :=
  match rangeAt buf first last with
  | some bytes => .ok bytes
  | none => .error (.error e)

/-! ## Subelements -/

inductive SubelementId where
  | deviceInformation
  | associatedBssid
  | coupledSink
  | extendedCapability
  | localIpAddress
  | sessionInformation
  | alternativeMacAddress
  | r2DeviceInformation
  | other (v : UInt8)
  deriving DecidableEq, Repr

namespace SubelementId

def wire : SubelementId → UInt8
  | deviceInformation => 0
  | associatedBssid => 1
  | coupledSink => 6
  | extendedCapability => 7
  | localIpAddress => 8
  | sessionInformation => 9
  | alternativeMacAddress => 10
  | r2DeviceInformation => 11
  | other v => v

def fromWire (raw : UInt8) : SubelementId :=
  if raw = 0 then deviceInformation
  else if raw = 1 then associatedBssid
  else if raw = 6 then coupledSink
  else if raw = 7 then extendedCapability
  else if raw = 8 then localIpAddress
  else if raw = 9 then sessionInformation
  else if raw = 10 then alternativeMacAddress
  else if raw = 11 then r2DeviceInformation
  else other raw

/-- Not the number of a named id under `other`. -/
def Canonical : SubelementId → Prop
  | other v => v ∉ [0, 1, 6, 7, 8, 9, 10, 11]
  | _ => True

theorem fromWire_wire {id : SubelementId} (h : id.Canonical) : fromWire id.wire = id := by
  cases id with
  | other v =>
    simp only [Canonical, List.mem_cons, List.not_mem_nil, or_false, not_or] at h
    simp only [fromWire, wire, h, if_false]
  | deviceInformation | associatedBssid | coupledSink | extendedCapability | localIpAddress
  | sessionInformation | alternativeMacAddress | r2DeviceInformation => rfl

theorem wire_fromWire (raw : UInt8) : (fromWire raw).wire = raw := by
  unfold fromWire
  repeat' split
  all_goals simp_all [wire]

end SubelementId

structure Subelement where
  id : SubelementId
  body : Bytes
  deriving DecidableEq, Repr

/-- The subelements of one frame, in order. -/
structure WfdInformationElement where
  subelements : List Subelement
  deriving DecidableEq, Repr

/-! ## Reading -/

/-- One turn of the loop of `parseSubelements`: the subelement at the front, and
what follows. -/
def subelementAt (bytes : Bytes) : Result (Subelement × Bytes) := do
  let header ← rangeOr bytes 0 3 .truncated
  let id ← index header 0
  let hi ← index header 1
  let lo ← index header 2
  let declared := (getU16Be hi lo).toNat
  let body ← rangeOr bytes 3 (3 + declared)
    (.badSubelementLength id declared (bytes.length - 3))
  .ok (⟨.fromWire id, body⟩, bytes.drop (3 + declared))

/-- An element of the frame's element stream. -/
structure Element where
  id : UInt8
  body : Bytes
  deriving DecidableEq, Repr

def Element.isWfd (element : Element) : Bool :=
  element.id == elementId && rangeAt element.body 0 3 == some ouiWfa &&
    element.body[3]? == some ouiTypeWfd

/-- One turn of the loop of `parseFrame`: the element at the front, and what
follows. -/
def elementAt (elements : Bytes) : Result (Element × Bytes) := do
  let header ← rangeOr elements 0 2 .truncated
  let id ← index header 0
  let len ← index header 1
  let body ← rangeOr elements 2 (2 + len.toNat) .truncated
  .ok (⟨id, body⟩, elements.drop (2 + len.toNat))

theorem rangeOr_ok {buf bytes : Bytes} {first last : ℕ} {e : IeError}
    (h : rangeOr buf first last e = .ok bytes) :
    first ≤ last ∧ last ≤ buf.length ∧ bytes = (buf.drop first).take (last - first) := by
  unfold rangeOr rangeAt at h
  split at h
  · next found hfound =>
      cases h
      split at hfound
      · next hbounds =>
          cases hfound
          exact ⟨hbounds.1, hbounds.2, rfl⟩
      · cases hfound
  · cases h

theorem rest_of_subelementAt {bytes rest : Bytes} {subelement : Subelement}
    (h : subelementAt bytes = .ok (subelement, rest)) : rest.length < bytes.length := by
  obtain ⟨header, hheader, h⟩ := bind_eq_ok.mp h
  obtain ⟨id, -, h⟩ := bind_eq_ok.mp h
  obtain ⟨hi, -, h⟩ := bind_eq_ok.mp h
  obtain ⟨lo, -, h⟩ := bind_eq_ok.mp h
  obtain ⟨body, -, h⟩ := bind_eq_ok.mp h
  cases h
  have hlength := (rangeOr_ok hheader).2.1
  rw [List.length_drop]
  omega

theorem rest_of_elementAt {elements rest : Bytes} {element : Element}
    (h : elementAt elements = .ok (element, rest)) : rest.length < elements.length := by
  obtain ⟨header, hheader, h⟩ := bind_eq_ok.mp h
  obtain ⟨id, -, h⟩ := bind_eq_ok.mp h
  obtain ⟨len, -, h⟩ := bind_eq_ok.mp h
  obtain ⟨body, -, h⟩ := bind_eq_ok.mp h
  cases h
  have hlength := (rangeOr_ok hheader).2.1
  rw [List.length_drop]
  omega

/-- The loop of `parse_subelements`, from the bytes that are left. -/
def parseFrom (bytes : Bytes) : Result (List Subelement) :=
  if bytes = [] then .ok []
  else match _hturn : subelementAt bytes with
    | .error stop => .error stop
    | .ok (subelement, rest) =>
      match parseFrom rest with
      | .error stop => .error stop
      | .ok subelements => .ok (subelement :: subelements)
termination_by bytes.length
decreasing_by exact rest_of_subelementAt _hturn

/-- The loop of `parse_frame`: what is `joined` already, and the elements that
are left. -/
def joinFrom (joined elements : Bytes) : Result Bytes :=
  if elements = [] then .ok joined
  else match _hturn : elementAt elements with
    | .error stop => .error stop
    | .ok (element, rest) =>
      joinFrom (if element.isWfd then joined ++ element.body.drop 4 else joined) rest
termination_by elements.length
decreasing_by exact rest_of_elementAt _hturn

namespace WfdInformationElement

def parseSubelements (bytes : Bytes) : Result WfdInformationElement := do
  let subelements ← parseFrom bytes
  .ok ⟨subelements⟩

def parseFrame (elements : Bytes) : Result WfdInformationElement := do
  let joined ← joinFrom [] elements
  if joined = [] then .error (.error .notWfd) else parseSubelements joined

end WfdInformationElement

/-! ## Writing -/

/-- The length of a body that a two-byte field cannot say is written as the
largest it can. -/
def Subelement.bytes (sub : Subelement) : Bytes :=
  let len := if sub.body.length < 2 ^ 16 then UInt16.ofNat sub.body.length else 0xFFFF
  sub.id.wire :: putU16Be len ++ sub.body

def elementOf (chunk : Bytes) : Bytes :=
  let len := if chunk.length + 4 < 2 ^ 8 then UInt8.ofNat (chunk.length + 4) else 0xFF
  elementId :: len :: ouiWfa ++ ouiTypeWfd :: chunk

namespace WfdInformationElement

def toSubelements (ie : WfdInformationElement) : Bytes := ie.subelements.flatMap Subelement.bytes

/-- The elements that `to_elements` writes one after another. -/
def elements (ie : WfdInformationElement) : List Bytes :=
  (chunksOf maxSubelementsPerIe ie.toSubelements).map elementOf

def toElements (ie : WfdInformationElement) : Bytes := ie.elements.flatten

end WfdInformationElement

end Castaway.Ie
