import Castaway.Miracast.Uibc
import Mathlib.Data.Nat.Bitwise

/-!
# The back-channel codec reads back what it wrote

One message is read off whatever follows it (`decode_encode`), because its inner
length counts its describe payload and no more.  A list of them is read up to
fewer than three bytes that are left over (`genericFrom_flatMap`), and the frame
around them is read to the length it declares, which counts the padding byte
(`parse_encodePadded`).  `generic_roundTrip` puts the three together; the walk
over the messages ends before the padding byte, so its value does not matter.
-/

namespace Castaway.Miracast

open List

theorem toNat_lengthField {length : ℕ} (h : length ≤ 65535) :
    (lengthField length).toNat = length := by
  rw [lengthField, Nat.min_eq_left h, UInt16.toNat_ofNat', Nat.mod_eq_of_lt (by omega)]

/-! ## Scrolls -/

/-- The two flags of a scroll field, as the number the top three bits stand for.
-/
def Scroll.flags (scroll : Scroll) : ℕ :=
  (match scroll.unit with
    | .pixels => 0
    | .notch => 2) +
  match scroll.direction with
    | .downOrRight => 0
    | .upOrLeft => 1

theorem Scroll.toNat_bits {scroll : Scroll} (h : scroll.amount ≤ maxScrollUnits) :
    scroll.bits.toNat = scroll.flags * 8192 + scroll.amount.toNat := by
  have hamount : scroll.amount.toNat < 2 ^ 13 := Nat.lt_succ_of_le (UInt16.le_iff_toNat_le.mp h)
  obtain ⟨unit, direction, amount⟩ := scroll
  have hor (k : ℕ) : k * 8192 ||| amount.toNat = k * 8192 + amount.toNat := by
    have := Nat.shiftLeft_add_eq_or_of_lt hamount k
    rw [Nat.shiftLeft_eq] at this
    exact this.symm
  have hmin : min amount maxScrollUnits = amount := if_pos h
  cases unit <;> cases direction <;> simp only [bits, flags, hmin, UInt16.toNat_or] 
  · exact hor 0
  · exact hor 1
  · exact hor 2
  · exact hor 3

theorem Scroll.fromBits_bits {scroll : Scroll} (h : scroll.amount ≤ maxScrollUnits) :
    fromBits scroll.bits = scroll := by
  have hamount : scroll.amount.toNat < 8192 := Nat.lt_succ_of_le (UInt16.le_iff_toNat_le.mp h)
  have hbits := toNat_bits h
  have hflags : scroll.flags < 4 := by
    obtain ⟨unit, direction, amount⟩ := scroll
    cases unit <;> cases direction <;> simp [flags]
  have hunit : (scroll.bits >>> 14 &&& 0b11).toNat = scroll.flags / 2 := by
    rw [UInt16.toNat_and, UInt16.toNat_shiftRight, hbits]
    change (_ >>> 14) &&& (2 ^ 2 - 1) = _
    rw [Nat.and_two_pow_sub_one_eq_mod, Nat.shiftRight_eq_div_pow]
    omega
  have hdirection : (scroll.bits &&& 0x2000).toNat = scroll.flags % 2 * 8192 := by
    rw [UInt16.toNat_and, hbits]
    change _ &&& 2 ^ 13 = _
    rw [Nat.and_two_pow, Nat.toNat_testBit]
    omega
  have hlow : (scroll.bits &&& maxScrollUnits) = scroll.amount := by
    apply UInt16.toNat_inj.mp
    rw [UInt16.toNat_and, hbits]
    change _ &&& (2 ^ 13 - 1) = _
    rw [Nat.and_two_pow_sub_one_eq_mod]
    omega
  have hnotch : ((scroll.bits >>> 14 &&& 0b11) == 1) = (scroll.flags / 2 == 1) := by
    rw [← hunit, Bool.eq_iff_iff, beq_iff_eq, beq_iff_eq, ← UInt16.toNat_inj]
    rfl
  have hdown : (scroll.bits &&& 0x2000 == 0) = (scroll.flags % 2 * 8192 == 0) := by
    rw [← hdirection, Bool.eq_iff_iff, beq_iff_eq, beq_iff_eq, ← UInt16.toNat_inj]
    rfl
  rw [fromBits, hnotch, hdown, hlow]
  obtain ⟨unit, direction, amount⟩ := scroll
  cases unit <;> cases direction <;> simp [flags]

/-! ## Describe payloads -/

namespace GenericInput

/-- The message fits its wire form: at most 255 contacts, a scroll within its
field. -/
def Fits : GenericInput → Prop
  | touchDown pointers | touchUp pointers | touchMove pointers => pointers.length ≤ 255
  | verticalScroll scroll | horizontalScroll scroll => scroll.amount ≤ maxScrollUnits
  | _ => True

instance (message : GenericInput) : Decidable message.Fits := by
  cases message <;> unfold Fits <;> infer_instance

@[simp] theorem length_putPointer (pointer : Pointer) : (putPointer pointer).length = 5 := rfl

theorem length_flatMap_putPointer (pointers : List Pointer) :
    (pointers.flatMap putPointer).length = pointers.length * 5 := by
  induction pointers with
  | nil => rfl
  | cons pointer rest ih =>
    rw [flatMap_cons, length_append, ih, length_putPointer, length_cons]
    omega

theorem pointerAt_putPointers (front : List Pointer) (pointer : Pointer) (rest : List Pointer) :
    pointerAt (putPointers (front ++ pointer :: rest)) front.length = some pointer := by
  have hsplit : putPointers (front ++ pointer :: rest) =
      (UInt8.ofNat (min (front ++ pointer :: rest).length 255) :: front.flatMap putPointer) ++
        putPointer pointer ++ rest.flatMap putPointer := by
    simp [putPointers]
  have hrange : rangeAt (putPointers (front ++ pointer :: rest)) (1 + front.length * 5)
      (6 + front.length * 5) = some (putPointer pointer) := by
    rw [hsplit]
    apply rangeAt_append
    · rw [length_cons, length_flatMap_putPointer]
      omega
    · rw [length_putPointer]
      omega
  rw [pointerAt, hrange]
  simp [putPointer, putU16Be]

theorem mapM_pointerAt (front rest : List Pointer) :
    (List.range' front.length rest.length).mapM (pointerAt (putPointers (front ++ rest))) =
      some rest := by
  induction rest generalizing front with
  | nil => rfl
  | cons pointer rest ih =>
    have htail := ih (front ++ [pointer])
    rw [append_assoc, singleton_append, length_append,
      length_singleton] at htail
    rw [length_cons, range'_succ, mapM_cons, pointerAt_putPointers, htail]
    rfl

theorem pointers_putPointers {said : List Pointer} (h : said.length ≤ 255) :
    pointers (putPointers said) = some said := by
  have hcount : (UInt8.ofNat (min said.length 255)).toNat = said.length := by
    rw [Nat.min_eq_left h, UInt8.toNat_ofNat', Nat.mod_eq_of_lt (by omega)]
  have hread := mapM_pointerAt [] said
  rw [nil_append, length_nil, ← range_eq_range'] at hread
  rw [pointers, putPointers, head?_cons, Option.bind_eq_bind, Option.bind_some, hcount]
  exact hread

variable {message : GenericInput}

theorem decodeDescribe_describe (h : message.Fits) :
    decodeDescribe message.typeId message.describe = some message := by
  cases message with
  | touchDown said => exact congrArg (Option.map touchDown) (pointers_putPointers h)
  | touchUp said => exact congrArg (Option.map touchUp) (pointers_putPointers h)
  | touchMove said => exact congrArg (Option.map touchMove) (pointers_putPointers h)
  | keyDown key1 key2 | keyUp key1 key2 =>
    simp [decodeDescribe, typeId, describe, keys, rangeAt, putU16Be]
  | zoom position integer fraction =>
    simp [decodeDescribe, typeId, describe, rangeAt, putU16Be]
  | verticalScroll scroll | horizontalScroll scroll =>
    have hscroll : Scroll.fromBits scroll.bits = scroll := Scroll.fromBits_bits h
    simp [decodeDescribe, typeId, describe, rangeAt, putU16Be, hscroll]
  | rotate integer fraction => simp [decodeDescribe, typeId, describe, rangeAt]

theorem length_describe_le (h : message.Fits) :
    message.describe.length ≤ 1276 := by
  cases message with
  | touchDown said | touchUp said | touchMove said =>
    have hcount : said.length ≤ 255 := h
    rw [describe, putPointers, length_cons, length_flatMap_putPointer]
    omega
  | _ => simp [describe]

@[simp] theorem length_encode (message : GenericInput) :
    message.encode.length = 3 + message.describe.length := by
  rw [encode, length_cons, length_append, length_putU16Be]
  omega

theorem decode_encode (h : message.Fits) (rest : Bytes) :
    decode (message.encode ++ rest) = some (message, message.encode.length) := by
  have hlength := toNat_lengthField ((length_describe_le h).trans (by decide))
  let header : Bytes := [message.typeId, hiByte (lengthField message.describe.length),
    loByte (lengthField message.describe.length)]
  have hsplit : message.encode ++ rest = header ++ message.describe ++ rest := rfl
  have hheader : rangeAt (message.encode ++ rest) 0 3 = some header := by
    rw [hsplit, append_assoc]
    exact rangeAt_zero_append rfl
  have hdescribe : rangeAt (message.encode ++ rest) 3 (3 + message.describe.length) =
      some message.describe := by
    rw [hsplit]
    exact rangeAt_append rfl rfl
  simp only [decode, hheader, header, getU16Be_bytes, hlength, hdescribe, Option.bind_eq_bind,
    Option.bind_some, decodeDescribe_describe h, length_encode]
  rfl

end GenericInput

/-! ## Frames -/

namespace UibcFrame

/-- The messages of a body, when fewer than three bytes are left over. -/
theorem genericFrom_flatMap {messages : List GenericInput} (hfits : ∀ m ∈ messages, m.Fits)
    {left : Bytes} (hleft : left.length < 3) :
    genericFrom (messages.flatMap GenericInput.encode ++ left) = some messages := by
  induction messages with
  | nil => rw [flatMap_nil, nil_append, genericFrom, if_pos hleft]
  | cons message messages ih =>
    have hdecode := GenericInput.decode_encode (hfits message mem_cons_self)
      (messages.flatMap GenericInput.encode ++ left)
    have htail := ih fun m hm => hfits m (mem_cons_of_mem _ hm)
    have hlong :
        ¬ (message.encode ++ (messages.flatMap GenericInput.encode ++ left)).length < 3 := by
      rw [length_append, GenericInput.length_encode]
      omega
    rw [flatMap_cons, append_assoc, genericFrom, if_neg hlong]
    split
    · next hnone => rw [hdecode] at hnone; cases hnone
    · next said consumed hsome =>
        rw [hdecode] at hsome
        cases hsome
        rw [if_neg (by rw [length_append]; omega), drop_left, htail]
        rfl

theorem InputCategory.fromWire_wire (category : InputCategory) :
    InputCategory.fromWire category.wire = some category := by
  cases category <;> rfl

theorem length_encodePadded (frame : UibcFrame) (pad : UInt8) :
    (frame.encodePadded pad).length = frame.total + frame.total % 2 := by
  obtain ⟨category, timestamp, body⟩ := frame
  cases timestamp <;>
    simp [encodePadded, fixedHeader, stamp, paddedBody, total, headerLen, headerLenTimestamped] <;>
    omega

theorem rangeAt_fixedHeader (frame : UibcFrame) (pad : UInt8) (trailing : Bytes) :
    rangeAt (frame.encodePadded pad ++ trailing) 0 headerLen = some frame.fixedHeader := by
  rw [encodePadded, append_assoc, append_assoc]
  exact rangeAt_zero_append rfl

theorem rangeAt_paddedBody (frame : UibcFrame) (pad : UInt8) (trailing : Bytes) {start : ℕ}
    (hstart : headerLen + frame.stamp.length = start) :
    rangeAt (frame.encodePadded pad ++ trailing) start (frame.encodePadded pad).length =
      some (frame.paddedBody pad) := by
  have hheader : (frame.fixedHeader ++ frame.stamp).length = start := by
    rw [length_append, ← hstart]
    rfl
  apply rangeAt_append hheader
  rw [encodePadded, length_append, hheader]

/-- A frame is read to the length it declares, which counts the padding byte. -/
theorem parse_encodePadded (frame : UibcFrame) (pad : UInt8) (trailing : Bytes)
    (hlength : (frame.encodePadded pad).length ≤ 65535) :
    parse (frame.encodePadded pad ++ trailing) =
      some ({ frame with body := frame.paddedBody pad }, (frame.encodePadded pad).length) := by
  have hpadded := length_encodePadded frame pad
  have hdeclared : (lengthField (frame.total + frame.total % 2)).toNat =
      (frame.encodePadded pad).length := by
    rw [toNat_lengthField (by omega), hpadded]
  have hwhole : ¬ ((frame.encodePadded pad).length < headerLen ∨
      (frame.encodePadded pad ++ trailing).length < (frame.encodePadded pad).length) := by
    have hheader : headerLen ≤ frame.total := by
      unfold total
      split <;> simp only [headerLen, headerLenTimestamped] <;> omega
    rw [length_append]
    omega
  have hbody := @rangeAt_paddedBody frame pad trailing
  rw [parse, rangeAt_fixedHeader]
  simp only [fixedHeader, putU16Be, getU16Be_bytes, hdeclared, InputCategory.fromWire_wire,
    Option.bind_eq_bind, Option.bind_some, if_neg hwhole]
  cases htimestamp : frame.timestamp with
  | none =>
    have hstart : headerLen + frame.stamp.length = headerLen := by rw [stamp, htimestamp]; rfl
    simp [hbody hstart]
  | some ts =>
    have hstamp : frame.stamp = [hiByte ts, loByte ts] := by rw [stamp, htimestamp]; rfl
    have hstart : headerLen + frame.stamp.length = headerLenTimestamped := by rw [hstamp]; rfl
    have hts : rangeAt (frame.encodePadded pad ++ trailing) headerLen headerLenTimestamped =
        some [hiByte ts, loByte ts] := by
      rw [encodePadded, append_assoc, hstamp]
      exact rangeAt_append rfl rfl
    simp [hbody hstart, hts]

theorem genericMessages_paddedBody {messages : List GenericInput} (timestamp : Option UInt16)
    (pad : UInt8) (hfits : ∀ m ∈ messages, m.Fits) :
    genericMessages { generic messages timestamp with
      body := (generic messages timestamp).paddedBody pad } = some messages := by
  rw [genericMessages, if_neg (fun h => h rfl)]
  apply genericFrom_flatMap hfits
  rw [length_replicate]
  omega

/-- **What a frame of generic messages says is what was put into it**, whatever
the padding byte and whatever comes behind. -/
theorem generic_roundTrip (messages : List GenericInput) (timestamp : Option UInt16) (pad : UInt8)
    (trailing : Bytes) (hfits : ∀ m ∈ messages, m.Fits)
    (hlength : ((generic messages timestamp).encodePadded pad).length ≤ 65535) :
    ∃ frame, parse ((generic messages timestamp).encodePadded pad ++ trailing) =
        some (frame, ((generic messages timestamp).encodePadded pad).length) ∧
      frame.timestamp = timestamp ∧ frame.genericMessages = some messages :=
  ⟨_, parse_encodePadded _ pad trailing hlength, rfl, genericMessages_paddedBody _ pad hfits⟩

/-- Three messages of nineteen bytes, and one byte of the next frame. -/
theorem generic_roundTrip_sample :
    ∃ frame, parse ((generic [.touchDown [⟨0, ⟨960, 540⟩⟩], .verticalScroll ⟨.notch, .upOrLeft, 3⟩,
          .rotate (-1) 128] (some 7)).encodePadded 0 ++ [0x10]) = some (frame, 26) ∧
      frame.timestamp = some 7 ∧
      frame.genericMessages = some [.touchDown [⟨0, ⟨960, 540⟩⟩],
        .verticalScroll ⟨.notch, .upOrLeft, 3⟩, .rotate (-1) 128] :=
  generic_roundTrip _ (some 7) 0 [0x10] (by decide) (by decide)

end UibcFrame

end Castaway.Miracast
