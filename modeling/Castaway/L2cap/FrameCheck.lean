import Castaway.L2cap.Frame
import Castaway.Lib.Bits
import Castaway.Lib.Register

/-!
# What the frame check catches

The checksum of a frame, read as a register that takes the message one bit at a
time, in the order of transmission (`crc16_eq`).  Shifting loses nothing
(`crcBit_injective`), and the bits that have not come down to the low end yet
only move along (`crcBit_xor_shiftLeft`), so up to sixteen bits lie in the
register side by side (`foldl_crcFeed`) and no state takes two windows of
sixteen to one.

A message followed by its own checksum leaves the register empty, and one that
does not is refused (`decode_badFcs`).  A burst of sixteen bits, in the frame or
in the channel identifier of the header, does not leave it empty.
-/

namespace Castaway.L2cap

open List

/-! ## One bit -/

def crcFeed (crc : UInt16) (bit : Bool) : UInt16 := crcBit (crc ^^^ if bit then 1 else 0)

theorem crcBit_toBitVec (crc : UInt16) :
    (crcBit crc).toBitVec =
      if crc.toBitVec.getLsbD 0 then (crc.toBitVec >>> 1) ^^^ 0xA001#16
      else crc.toBitVec >>> 1 := by
  have hlow : (crc &&& 1).toBitVec = .setWidth 16 (.ofBool (crc.toBitVec.getLsbD 0)) :=
    BitVec.and_one_eq_setWidth_ofBool_getLsbD
  unfold crcBit
  cases hbit : crc.toBitVec.getLsbD 0 with
  | false =>
    have hzero : crc &&& 1 = 0 := UInt16.toBitVec_inj.mp (by rw [hlow, hbit]; rfl)
    rw [if_neg (by simp [hzero])]
    rfl
  | true =>
    have hone : crc &&& 1 = 1 := UInt16.toBitVec_inj.mp (by rw [hlow, hbit]; rfl)
    rw [if_pos (by rw [hone]; decide)]
    rfl

/-- The bit that falls out comes back at the top. -/
theorem crcBit_top (crc : UInt16) : (crcBit crc).toBitVec.getLsbD 15 = crc.toBitVec.getLsbD 0 := by
  rw [crcBit_toBitVec]
  cases hbit : crc.toBitVec.getLsbD 0 with
  | false | true => simp

/-- **One bit of the CRC loses nothing.** -/
theorem crcBit_injective {a b : UInt16} (h : crcBit a = crcBit b) : a = b := by
  have hlow : a.toBitVec.getLsbD 0 = b.toBitVec.getLsbD 0 := by
    rw [← crcBit_top, ← crcBit_top, h]
  have hshift : a.toBitVec >>> 1 = b.toBitVec >>> 1 := by
    have hvec := congrArg UInt16.toBitVec h
    rw [crcBit_toBitVec, crcBit_toBitVec, hlow] at hvec
    split at hvec
    · exact (BitVec.xor_left_inj _).mp hvec
    · exact hvec
  apply UInt16.toBitVec_inj.mp
  apply BitVec.eq_of_getLsbD_eq
  intro i hi
  cases i with
  | zero => exact hlow
  | succ i =>
    have hbit := congrArg (fun v : BitVec 16 => v.getLsbD i) hshift
    simpa [Nat.add_comm] using hbit

/-- What lies above the low end only moves along. -/
theorem crcBit_xor_shiftLeft (a : UInt16) {v : BitVec 16} (hv : v.getLsbD 15 = false) :
    (crcBit ⟨a.toBitVec ^^^ (v <<< 1)⟩).toBitVec = (crcBit a).toBitVec ^^^ v := by
  have hback : (v <<< 1) >>> 1 = v := by
    apply BitVec.eq_of_getLsbD_eq
    intro i hi
    rw [BitVec.getLsbD_ushiftRight, BitVec.getLsbD_shiftLeft]
    by_cases htop : i = 15
    · subst htop
      rw [hv]
      rfl
    · have : 1 + i < 16 := by omega
      simp [this]
  rw [crcBit_toBitVec, crcBit_toBitVec]
  have hlow : (a.toBitVec ^^^ (v <<< 1)).getLsbD 0 = a.toBitVec.getLsbD 0 := by simp
  rw [hlow, BitVec.ushiftRight_xor_distrib, hback]
  split
  · rw [BitVec.xor_assoc, BitVec.xor_comm v, ← BitVec.xor_assoc]
  · rfl

/-! ## Up to sixteen bits -/

/-- The bits side by side, the first at the low end. -/
def pack : List Bool → BitVec 16
  | [] => 0#16
  | bit :: rest => (if bit then 1#16 else 0#16) ^^^ (pack rest <<< 1)

theorem getLsbD_pack (window : List Bool) {i : ℕ} (hi : i < 16) :
    (pack window).getLsbD i = window.getD i false := by
  induction window generalizing i with
  | nil => simp [pack]
  | cons bit rest ih =>
    rw [pack, BitVec.getLsbD_xor, BitVec.getLsbD_shiftLeft]
    cases i with
    | zero => cases bit <;> rfl
    | succ i =>
      have hone : (if bit then 1#16 else 0#16).getLsbD (i + 1) = false := by
        cases bit with
        | false => simp
        | true => simp [BitVec.getLsbD_one]
      have hlt : i + 1 < 16 := hi
      rw [hone, Nat.add_sub_cancel, ih (by omega), getD_cons_succ]
      simp [hlt]

/-- **A window of up to sixteen bits lies in the register side by side.** -/
theorem foldl_crcFeed {window : List Bool} (hwindow : window.length ≤ 16) (crc : UInt16) :
    window.foldl crcFeed crc = crcBit^[window.length] ⟨crc.toBitVec ^^^ pack window⟩ := by
  induction window generalizing crc with
  | nil => simp [pack]
  | cons bit rest ih =>
    have hrest : rest.length ≤ 15 := by
      rw [length_cons] at hwindow
      omega
    have htop : (pack rest).getLsbD 15 = false := by
      rw [getLsbD_pack rest (by decide), getD_eq_getElem?_getD, getElem?_eq_none hrest]
      rfl
    have hmove := crcBit_xor_shiftLeft (crc ^^^ if bit then 1 else 0) htop
    have hfirst : (crc ^^^ if bit then 1 else 0).toBitVec ^^^ (pack rest <<< 1) =
        crc.toBitVec ^^^ pack (bit :: rest) := by
      rw [pack, ← BitVec.xor_assoc]
      cases bit <;> rfl
    rw [hfirst] at hmove
    rw [foldl_cons, ih (by omega), length_cons, Function.iterate_succ_apply, crcFeed,
      ← hmove]

theorem iterate_crcBit_injective {n : ℕ} {a b : UInt16} (h : crcBit^[n] a = crcBit^[n] b) : a = b :=
  Function.Injective.iterate (fun _ _ => crcBit_injective) n h

theorem lossless_crcFeed : Lossless crcFeed := by
  intro bit s t h
  exact (UInt16.xor_left_inj _).mp (crcBit_injective h)

/-- **No state takes two windows of sixteen bits to one.** -/
theorem separates_crcFeed : Separates crcFeed 16 := by
  intro s xs ys hxs hys h
  rw [foldl_crcFeed (by omega), foldl_crcFeed (by omega), hxs, hys] at h
  have hpack : pack xs = pack ys := by
    have hvec := congrArg UInt16.toBitVec (iterate_crcBit_injective h)
    exact (BitVec.xor_right_inj _).mp hvec
  refine ext_getElem (by omega) fun i hi hi' => ?_
  have hbit := congrArg (fun v : BitVec 16 => v.getLsbD i) hpack
  simp only [getLsbD_pack _ (show i < 16 by omega)] at hbit
  simpa [hi, hi'] using hbit

/-! ## Bytes -/

theorem pack_byte (byte : UInt8) :
    pack ((List.range 8).map byte.toNat.testBit) = byte.toUInt16.toBitVec := by
  have hall : ∀ n : Fin 256, pack ((List.range 8).map (UInt8.ofNat n).toNat.testBit) =
      (UInt8.ofNat n).toUInt16.toBitVec := by decide +kernel
  have hbyte := hall ⟨byte.toNat, byte.toNat_lt⟩
  simpa only [UInt8.ofNat_toNat] using hbyte

/-- **The checksum takes the message bit by bit**, in the order of transmission.
-/
theorem crc16_eq (data : Bytes) : crc16 data = (bits data).foldl crcFeed 0 := by
  unfold crc16
  generalize (0 : UInt16) = crc
  induction data generalizing crc with
  | nil => rfl
  | cons byte data ih =>
    have hbyte := @foldl_crcFeed ((List.range 8).map byte.toNat.testBit) (by simp) crc
    rw [pack_byte, length_map, length_range] at hbyte
    rw [foldl_cons, ih, bits_cons, foldl_append, hbyte]
    rfl

/-- The two bytes of a checksum, as they are sent. -/
theorem pack_putU16Le (low high : UInt8) :
    pack (bits [low, high]) = (getU16Le low high).toBitVec := by
  apply BitVec.eq_of_getLsbD_eq
  intro i hi
  have hlow : low.toNat < 256 := low.toNat_lt
  have hhigh : high.toNat < 256 := high.toNat_lt
  have hvalue : (getU16Le low high).toNat = 2 ^ 8 * high.toNat + low.toNat := by
    rw [getU16Le, UInt16.toNat_ofNat', Nat.mod_eq_of_lt (by omega)]
    omega
  have hbit : (getU16Le low high).toBitVec.getLsbD i = (getU16Le low high).toNat.testBit i := rfl
  rw [getLsbD_pack _ hi, hbit, hvalue, Nat.testBit_two_pow_mul_add _ (by simpa using hlow),
    getD_eq_getElem?_getD, getElem?_bits, if_pos (by simpa using hi), Option.getD_some, bitAt]
  by_cases hlt : i < 8
  · have hdiv : i / 8 = 0 := by omega
    rw [if_pos hlt, hdiv, Nat.mod_eq_of_lt hlt]
    rfl
  · have hdiv : i / 8 = 1 := by omega
    have hmod : i % 8 = i - 8 := by omega
    rw [if_neg hlt, hdiv, hmod]
    rfl

/-- **A message behind its own checksum empties the register**, and only behind
that one. -/
theorem foldl_checksum (data : Bytes) (low high : UInt8) :
    (bits (data ++ [low, high])).foldl crcFeed 0 = 0 ↔ crc16 data = getU16Le low high := by
  have hzero : ∀ n, crcBit^[n] 0 = 0 := by
    intro n
    induction n with
    | zero => rfl
    | succ n ih => rw [Function.iterate_succ_apply', ih]; rfl
  rw [bits_append, foldl_append, ← crc16_eq, foldl_crcFeed (by simp), pack_putU16Le]
  constructor
  · intro h
    rw [← hzero (bits [low, high]).length] at h
    have hvec := congrArg UInt16.toBitVec (iterate_crcBit_injective h)
    apply UInt16.toBitVec_inj.mp
    exact BitVec.xor_eq_zero_iff.mp hvec
  · intro h
    rw [h, BitVec.xor_self]
    exact hzero _

/-! ## Frames -/

namespace Frame

/-- What the checksum of a payload covers: the basic header, the frame, and the
checksum itself. -/
def covered (cid : Cid) (payload : Bytes) : Bytes :=
  putU16Le (headerLength payload.length) ++ putU16Le cid.raw ++ payload

/-- **A payload that does not empty the register is refused.** -/
theorem decode_badFcs {payload : Bytes} {cid : Cid} {fcs : FcsType} (hfcs : fcs.isPresent = true)
    (hlength : 4 ≤ payload.length) (hcheck : (bits (covered cid payload)).foldl crcFeed 0 ≠ 0) :
    ∃ expected actual, decode payload cid fcs = .error (.badFcs cid expected actual) := by
  have hsplit : payload = payload.take (payload.length - 2) ++
      [payload.getD (payload.length - 2) 0, payload.getD (payload.length - 2 + 1) 0] := by
    have htail : payload.drop (payload.length - 2) =
        [payload.getD (payload.length - 2) 0, payload.getD (payload.length - 2 + 1) 0] := by
      rw [drop_eq_getElem_cons (by omega), drop_eq_getElem_cons (by omega),
        drop_eq_nil_of_le (by omega)]
      simp only [getD_eq_getElem?_getD]
      rw [getElem?_eq_getElem (by omega), getElem?_eq_getElem (by omega)]
      rfl
    rw [← htail, take_append_drop]
  have hcomputed : frameCheck cid payload.length (payload.take (payload.length - 2)) ≠
      getU16Le (payload.getD (payload.length - 2) 0) (payload.getD (payload.length - 2 + 1) 0) := by
    intro heq
    have hchecked := (foldl_checksum _ _ _).mpr heq
    rw [append_assoc, ← hsplit] at hchecked
    exact hcheck hchecked
  refine ⟨frameCheck cid payload.length (payload.take (payload.length - 2)),
    getU16Le (payload.getD (payload.length - 2) 0) (payload.getD (payload.length - 2 + 1) 0), ?_⟩
  rw [decode, checkedBody, if_pos hfcs, if_neg (by omega)]
  dsimp only
  rw [if_pos hcomputed]

theorem covered_encode (frame : Frame) (cid : Cid) {fcs : FcsType} (hfcs : fcs.isPresent = true) :
    (bits (covered cid (frame.encode cid fcs))).foldl crcFeed 0 = 0 := by
  rw [covered, encode, if_pos hfcs, length_append, length_putU16Le, ← append_assoc]
  exact (foldl_checksum _ _ _).mpr (getU16Le_bytes _).symm

theorem length_encode_pos (frame : Frame) (cid : Cid) {fcs : FcsType}
    (hfcs : fcs.isPresent = true) : 4 ≤ (frame.encode cid fcs).length := by
  rw [encode, if_pos hfcs, length_append, length_putU16Le]
  have hbody : 2 ≤ frame.body.length := by simp [body]
  omega

/-- **A burst of sixteen bits is caught**, wherever it falls in the frame. -/
theorem decode_burst (frame : Frame) (cid : Cid) {fcs : FcsType} (hfcs : fcs.isPresent = true)
    {received : Bytes} {start : ℕ} (hlength : received.length = (frame.encode cid fcs).length)
    (hne : received ≠ frame.encode cid fcs)
    (hsame : ∀ i, i < start ∨ start + 16 ≤ i → bitAt received i = bitAt (frame.encode cid fcs) i) :
    ∃ expected actual, decode received cid fcs = .error (.badFcs cid expected actual) := by
  refine decode_badFcs hfcs (hlength ▸ length_encode_pos frame cid hfcs) ?_
  have hsent := covered_encode frame cid hfcs
  generalize frame.encode cid fcs = sent at *
  rw [covered, bits_append] at hsent ⊢
  rw [hlength]
  generalize putU16Le (headerLength sent.length) ++ putU16Le cid.raw = header at *
  intro hempty
  refine separates_crcFeed.ne_of_burst lossless_crcFeed ((bits header).length + start)
    (by simp [hlength]) ?_ ?_ 0 (hempty.trans hsent.symm)
  · intro heq
    exact hne (bits_injective (append_cancel_left heq))
  · intro i hi
    by_cases hheader : i < (bits header).length
    · rw [getElem?_append_left hheader, getElem?_append_left hheader]
    · rw [getElem?_append_right (by omega), getElem?_append_right (by omega),
        getElem?_bits, getElem?_bits, hlength, hsame _ (by omega)]

/-- **A frame is refused on any other channel.** -/
theorem decode_otherCid (frame : Frame) {cid other : Cid} {fcs : FcsType}
    (hfcs : fcs.isPresent = true) (hother : other ≠ cid) : ∃ expected actual,
      decode (frame.encode cid fcs) other fcs = .error (.badFcs other expected actual) := by
  refine decode_badFcs hfcs (length_encode_pos frame cid hfcs) ?_
  have hsent := covered_encode frame cid hfcs
  generalize frame.encode cid fcs = sent at *
  have hraw : bits (putU16Le other.raw) ≠ bits (putU16Le cid.raw) := by
    intro heq
    have hbytes := bits_injective heq
    have hvalue : other.raw = cid.raw := by
      rw [← getU16Le_bytes other.raw, ← getU16Le_bytes cid.raw]
      simp only [putU16Le, List.cons.injEq] at hbytes
      rw [hbytes.1, hbytes.2.1]
    exact hother (by cases other; cases cid; exact congrArg Cid.mk hvalue)
  simp only [covered, bits_append, append_assoc] at hsent ⊢
  intro hempty
  refine separates_crcFeed.ne_of_burst lossless_crcFeed 16 (by simp) ?_ ?_ 0
    (hempty.trans hsent.symm)
  · intro heq
    have hrest := append_cancel_left heq
    exact hraw (append_inj_left hrest (by simp))
  · intro i hi
    have hfirst : (bits (putU16Le (headerLength sent.length))).length = 16 := by simp
    have hcid : ∀ raw, (bits (putU16Le raw)).length = 16 := by simp
    rcases hi with hi | hi
    · rw [getElem?_append_left (by omega), getElem?_append_left (by omega)]
    · have hother := hcid other.raw
      have hcid := hcid cid.raw
      rw [getElem?_append_right (by omega), getElem?_append_right (by omega),
        getElem?_append_right (by omega), getElem?_append_right (by omega), hother, hcid]

/-- **The frame codec.**  What the control field can carry survives; a burst of
up to sixteen bits, in the order of transmission, and another channel identifier
are refused by the checksum. -/
theorem frame_codec : (∀ (frame : Frame) (cid : Cid) (fcs : FcsType), frame.WellFormed →
      decode (frame.encode cid fcs) cid fcs = .ok frame) ∧
    (∀ (frame : Frame) (cid : Cid) (fcs : FcsType) (received : Bytes) (start : ℕ),
      fcs.isPresent = true → received.length = (frame.encode cid fcs).length →
      received ≠ frame.encode cid fcs →
      (∀ i, i < start ∨ start + 16 ≤ i → bitAt received i = bitAt (frame.encode cid fcs) i) →
      ∃ expected actual, decode received cid fcs = .error (.badFcs cid expected actual)) ∧
    ∀ (frame : Frame) (cid other : Cid) (fcs : FcsType), fcs.isPresent = true → other ≠ cid →
      ∃ expected actual,
        decode (frame.encode cid fcs) other fcs = .error (.badFcs other expected actual) :=
  ⟨fun _ cid fcs h => decode_encode h cid fcs,
    fun frame cid _ _ _ hfcs hlength hne hsame => decode_burst frame cid hfcs hlength hne hsame,
    fun frame _ _ _ hfcs hother => decode_otherCid frame hfcs hother⟩

def firstFrame : Frame := information 5 9 true .start (some 7) [1, 2, 3]

theorem frame_codec_sample :
    decode (firstFrame.encode ⟨0x40⟩ .crc16) ⟨0x40⟩ .crc16 = .ok firstFrame ∧
      (∃ expected actual, decode ((firstFrame.encode ⟨0x40⟩ .crc16).set 0 0xFF) ⟨0x40⟩ .crc16 =
        .error (.badFcs ⟨0x40⟩ expected actual)) ∧
      ∃ expected actual, decode (firstFrame.encode ⟨0x40⟩ .crc16) ⟨0x41⟩ .crc16 =
        .error (.badFcs ⟨0x41⟩ expected actual) := by
  refine ⟨frame_codec.1 _ _ _ ⟨by decide, by decide, by decide⟩,
    frame_codec.2.1 firstFrame ⟨0x40⟩ .crc16 _ 0 rfl (length_set) (by decide +kernel) ?_,
    frame_codec.2.2 firstFrame ⟨0x40⟩ ⟨0x41⟩ .crc16 rfl (by decide)⟩
  intro i hi
  have hlater : 0 ≠ i / 8 := by omega
  rw [bitAt, bitAt, getD_eq_getElem?_getD, getElem?_set_ne hlater,
    getD_eq_getElem?_getD]

/-- **The encoder has two names for each supervisory function**, and the decoder
gives back the first: an `other` function does not survive. -/
theorem other_function_lost :
    decode ((supervisory (.other 0) 3 false false).encode ⟨0x40⟩ .crc16) ⟨0x40⟩ .crc16 =
        .ok (supervisory .receiverReady 3 false false) ∧
      supervisory (.other 0) 3 false false ≠ supervisory .receiverReady 3 false false := by
  decide +kernel

end Frame

end Castaway.L2cap
