import Castaway.Lib.Bytes

/-!
# The Miracast input back-channel: messages and frames

The codec of `uibc.rs`.  A generic message is a type byte, the length of what
describes it and the describe payload.  A frame packs messages behind a header
whose length counts everything, the padding byte included.

Two lengths with one name are nested here: the one in a message counts its
describe payload only.
-/

namespace Castaway.Miracast

/-! ## What is said -/

/-- A pixel coordinate in the negotiated stream's space. -/
structure SourcePixel where
  x : UInt16
  y : UInt16
  deriving DecidableEq, Repr

/-- One contact of a touch event. -/
structure Pointer where
  id : UInt8
  position : SourcePixel
  deriving DecidableEq, Repr

inductive ScrollUnit where
  | pixels
  | notch
  deriving DecidableEq, Repr

/-- Which way a scroll goes. -/
inductive ScrollDirection where
  | downOrRight
  | upOrLeft
  deriving DecidableEq, Repr

/-- The largest magnitude a scroll field can carry: 13 bits. -/
def maxScrollUnits : UInt16 := 0x1FFF

/-- A scroll amount. -/
structure Scroll where
  unit : ScrollUnit
  direction : ScrollDirection
  amount : UInt16
  deriving DecidableEq, Repr

namespace Scroll

def bits (scroll : Scroll) : UInt16 :=
  let unit : UInt16 := match scroll.unit with
    | .pixels => 0
    | .notch => 1
  let direction : UInt16 := match scroll.direction with
    | .downOrRight => 0
    | .upOrLeft => 1
  (unit <<< 14) ||| (direction <<< 13) ||| min scroll.amount maxScrollUnits

def fromBits (bits : UInt16) : Scroll where
  unit := if (bits >>> 14) &&& 0b11 == 1 then .notch else .pixels
  direction := if bits &&& 0x2000 == 0 then .downOrRight else .upOrLeft
  amount := bits &&& maxScrollUnits

end Scroll

inductive GenericInput where
  | touchDown (pointers : List Pointer)
  | touchUp (pointers : List Pointer)
  | touchMove (pointers : List Pointer)
  | keyDown (key1 key2 : UInt16)
  | keyUp (key1 key2 : UInt16)
  | zoom (position : SourcePixel) (integer fraction : UInt8)
  | verticalScroll (scroll : Scroll)
  | horizontalScroll (scroll : Scroll)
  /-- Signed whole radians; the fraction is added positively. -/
  | rotate (integer : Int8) (fraction : UInt8)
  deriving DecidableEq, Repr

/-! ## One message -/

/-- A length in a 16-bit field, the largest value when it does not fit. -/
def lengthField (length : ℕ) : UInt16 := UInt16.ofNat (min length 65535)

namespace GenericInput

def typeId : GenericInput → UInt8
  | touchDown _ => 0
  | touchUp _ => 1
  | touchMove _ => 2
  | keyDown _ _ => 3
  | keyUp _ _ => 4
  | zoom _ _ _ => 5
  | verticalScroll _ => 6
  | horizontalScroll _ => 7
  | rotate _ _ => 8

def putPointer (pointer : Pointer) : Bytes :=
  pointer.id :: (putU16Be pointer.position.x ++ putU16Be pointer.position.y)

/-- The number of contacts, in a byte, and the contacts. -/
def putPointers (pointers : List Pointer) : Bytes :=
  UInt8.ofNat (min pointers.length 255) :: pointers.flatMap putPointer

/-- The describe payload, which is what the inner length counts. -/
def describe : GenericInput → Bytes
  | touchDown pointers | touchUp pointers | touchMove pointers => putPointers pointers
  -- the first byte is reserved
  | keyDown key1 key2 | keyUp key1 key2 => 0 :: (putU16Be key1 ++ putU16Be key2)
  | zoom position integer fraction =>
    putU16Be position.x ++ putU16Be position.y ++ [integer, fraction]
  | verticalScroll scroll | horizontalScroll scroll => putU16Be scroll.bits
  | rotate integer fraction => [integer.toUInt8, fraction]

def encode (message : GenericInput) : Bytes :=
  message.typeId :: (putU16Be (lengthField message.describe.length) ++ message.describe)

/-- The contact at place `i` of a describe payload. -/
def pointerAt (d : Bytes) (i : ℕ) : Option Pointer :=
  match rangeAt d (1 + i * 5) (6 + i * 5) with
  | some [id, x₀, x₁, y₀, y₁] => some ⟨id, getU16Be x₀ x₁, getU16Be y₀ y₁⟩
  | _ => none

def pointers (d : Bytes) : Option (List Pointer) := do
  let count ← d.head?
  (List.range count.toNat).mapM (pointerAt d)

def keys (d : Bytes) : Option (UInt16 × UInt16) :=
  match rangeAt d 0 5 with
  | some [_, a₀, a₁, b₀, b₁] => some (getU16Be a₀ a₁, getU16Be b₀ b₁)
  | _ => none

/-- What a message of this type says, from its describe payload. -/
def decodeDescribe (typeId : UInt8) (describe : Bytes) : Option GenericInput :=
  match typeId.toNat with
  | 0 => (pointers describe).map touchDown
  | 1 => (pointers describe).map touchUp
  | 2 => (pointers describe).map touchMove
  | 3 => (keys describe).map fun (key1, key2) => keyDown key1 key2
  | 4 => (keys describe).map fun (key1, key2) => keyUp key1 key2
  | 5 =>
    match rangeAt describe 0 6 with
    | some [x₀, x₁, y₀, y₁, integer, fraction] =>
      some (zoom ⟨getU16Be x₀ x₁, getU16Be y₀ y₁⟩ integer fraction)
    | _ => none
  | 6 =>
    match rangeAt describe 0 2 with
    | some [hi, lo] => some (verticalScroll (Scroll.fromBits (getU16Be hi lo)))
    | _ => none
  | 7 =>
    match rangeAt describe 0 2 with
    | some [hi, lo] => some (horizontalScroll (Scroll.fromBits (getU16Be hi lo)))
    | _ => none
  | 8 =>
    match rangeAt describe 0 2 with
    | some [integer, fraction] => some (rotate integer.toInt8 fraction)
    | _ => none
  | _ => none

/-- One message, and how many bytes it took. -/
def decode (bytes : Bytes) : Option (GenericInput × ℕ) :=
  match rangeAt bytes 0 3 with
  | some [typeId, hi, lo] => do
      let len := (getU16Be hi lo).toNat
      let describe ← rangeAt bytes 3 (3 + len)
      let message ← decodeDescribe typeId describe
      pure (message, 3 + len)
  | _ => none

theorem three_le_of_decode {bytes : Bytes} {message : GenericInput} {consumed : ℕ}
    (h : decode bytes = some (message, consumed)) : 3 ≤ consumed := by
  unfold decode at h
  split at h
  · simp only [Option.bind_eq_bind, Option.bind_eq_some_iff] at h
    obtain ⟨describe, -, said, -, hlast⟩ := h
    cases hlast
    exact Nat.le_add_right 3 _
  · cases h

end GenericInput

/-! ## Frames -/

/-- Which family of input a frame carries. -/
inductive InputCategory where
  | generic
  | hidc
  deriving DecidableEq, Repr

namespace InputCategory

def wire : InputCategory → UInt8
  | generic => 0
  | hidc => 1

def fromWire (raw : UInt8) : Option InputCategory :=
  match (raw &&& 0x0F).toNat with
  | 0 => some generic
  | 1 => some hidc
  | _ => none

end InputCategory

/-- A complete frame: its body already encoded, and the low bits of the RTP
stamp of what was on screen, if they are sent. -/
structure UibcFrame where
  category : InputCategory
  timestamp : Option UInt16
  body : Bytes
  deriving DecidableEq, Repr

namespace UibcFrame

def headerLen : ℕ := 4

def headerLenTimestamped : ℕ := 6

def generic (messages : List GenericInput) (timestamp : Option UInt16) : UibcFrame :=
  ⟨.generic, timestamp, messages.flatMap GenericInput.encode⟩

def total (frame : UibcFrame) : ℕ :=
  (if frame.timestamp.isSome then headerLenTimestamped else headerLen) + frame.body.length

/-- Version, category and length.  The length counts this header, the body and
the padding byte; the flag says that a timestamp follows. -/
def fixedHeader (frame : UibcFrame) : Bytes :=
  (if frame.timestamp.isSome then 0x10 else 0x00) :: frame.category.wire ::
    putU16Be (lengthField (frame.total + frame.total % 2))

def stamp (frame : UibcFrame) : Bytes :=
  match frame.timestamp with
  | some ts => putU16Be ts
  | none => []

/-- The body, padded to a whole number of 16-bit words. -/
def paddedBody (frame : UibcFrame) (pad : UInt8) : Bytes :=
  frame.body ++ List.replicate (frame.total % 2) pad

def encodePadded (frame : UibcFrame) (pad : UInt8) : Bytes :=
  frame.fixedHeader ++ frame.stamp ++ frame.paddedBody pad

/-- The source pads with zero; no reader may depend on that. -/
def encode (frame : UibcFrame) : Bytes := frame.encodePadded 0

/-- One frame from the front of a byte stream and how many bytes it took, or
nothing while the stream does not hold a whole frame. -/
def parse (bytes : Bytes) : Option (UibcFrame × ℕ) :=
  match rangeAt bytes 0 headerLen with
  | some [flags, kind, hi, lo] => do
      let category ← InputCategory.fromWire kind
      let declared := (getU16Be hi lo).toNat
      if declared < headerLen ∨ bytes.length < declared then none
      else if flags &&& 0x10 != 0 then
        match rangeAt bytes headerLen headerLenTimestamped with
        | some [ts₀, ts₁] => do
            let body ← rangeAt bytes headerLenTimestamped declared
            pure (⟨category, some (getU16Be ts₀ ts₁), body⟩, declared)
        | _ => none
      else do
        let body ← rangeAt bytes headerLen declared
        pure (⟨category, none, body⟩, declared)
  | _ => none

/-- The messages of a body.  Fewer than three bytes are not the start of one. -/
def genericFrom (rest : Bytes) : Option (List GenericInput) :=
  if rest.length < 3 then some []
  else
    match _h : GenericInput.decode rest with
    | none => none
    | some (message, consumed) =>
      if rest.length < consumed then none
      else (genericFrom (rest.drop consumed)).map (message :: ·)
termination_by rest.length
decreasing_by
  have := GenericInput.three_le_of_decode _h
  simp only [List.length_drop]
  omega

/-- The generic messages in this frame's body, if it is a generic frame. -/
def genericMessages (frame : UibcFrame) : Option (List GenericInput) :=
  if frame.category ≠ .generic then none else genericFrom frame.body

end UibcFrame

end Castaway.Miracast
