import Castaway.Bluetooth.Latm
import Castaway.Lib.Bits

/-!
# What the multiplex carries

An `AudioMuxElement` is written down bit by bit, as the format has it, and what
the parser makes of it is compared with what was put in.  A reading that takes a
stretch of the stream for a value does so wherever the stretch stands (`Reads`),
and readings compose, so the header is read field by field.

The payload is taken only from a byte boundary.  An element that reuses a
configuration has one bit before its length, and with version 0 the header comes
to five bits over, so neither ever starts there: what does is a configuration of
version 1 whose length is six bits over (`Restored`).
-/

namespace Castaway.Bluetooth

open List

variable {α β : Type}

/-! ## Reading a stretch of the stream -/

/-- `m` reads `bits`, wherever they stand, as `a`. -/
def Reads (m : Reading α) (bits : List Bool) (a : α) : Prop :=
  ∀ (bytes : Bytes) (before after : List Bool), unpack bytes = before ++ bits ++ after →
    m ⟨bytes, before.length⟩ = .ok (a, ⟨bytes, before.length + bits.length⟩)

theorem reads_pure (a : α) : Reads (pure a) [] a := fun _ _ _ _ => rfl

theorem Reads.bind {m : Reading α} {f : α → Reading β} {bits more : List Bool} {a : α} {b : β}
    (hm : Reads m bits a) (hf : Reads (f a) more b) : Reads (m >>= f) (bits ++ more) b := by
  intro bytes before after hsplit
  have hfirst := hm bytes before (more ++ after) (by simpa using hsplit)
  have hsecond := hf bytes (before ++ bits) after (by simpa using hsplit)
  rw [length_append] at hsecond
  have hbind : (m >>= f) ⟨bytes, before.length⟩ =
      (m ⟨bytes, before.length⟩) >>= fun found => f found.1 found.2 := rfl
  rw [hbind, hfirst, length_append, ← Nat.add_assoc]
  exact hsecond

theorem Reads.map {m : Reading α} {bits : List Bool} {a : α} (g : α → β) (h : Reads m bits a) :
    Reads (g <$> m) bits (g a) := by
  have hbind := h.bind (f := fun a => pure (g a)) (reads_pure (g a))
  rwa [append_nil] at hbind

theorem readFrom_eq {bytes : Bytes} {before bits after : List Bool} (read : ℕ)
    (hsplit : unpack bytes = before ++ bits ++ after)
    (hfits : (read + 1) * 2 ^ bits.length ≤ 2 ^ 32) :
    BitReader.readFrom read bits.length ⟨bytes, before.length⟩ =
      .ok (ofBitsFrom read bits, ⟨bytes, before.length + bits.length⟩) := by
  induction bits generalizing before read with
  | nil => rfl
  | cons bit bits ih =>
    have hbit : bytes[before.length / 8]?.map
        (fun byte => byte.toNat.testBit (7 - before.length % 8)) = some bit := by
      rw [← getElem?_unpack, hsplit, append_assoc,
        getElem?_append_right (Nat.le_refl _), Nat.sub_self]
      rfl
    obtain ⟨byte, hbyte, hvalue⟩ := Option.map_eq_some_iff.mp hbit
    have hle : bit.toNat ≤ 1 := Bool.toNat_le bit
    have hpow := Nat.one_le_two_pow (n := bits.length)
    rw [length_cons, pow_succ] at hfits
    have hgrown : (2 * read + bit.toNat + 1) * 2 ^ bits.length ≤ 2 ^ 32 := by
      refine Nat.le_trans (Nat.mul_le_mul_right _ (show _ ≤ 2 * (read + 1) by omega)) ?_
      rw [Nat.mul_comm 2, Nat.mul_assoc, Nat.mul_comm 2]
      exact hfits
    have hsmall : 2 * read + bit.toNat < 2 ^ 32 :=
      Nat.lt_of_lt_of_le (Nat.lt_succ_self _) ((Nat.le_mul_of_pos_right _ hpow).trans hgrown)
    have hnext := @ih (before ++ [bit]) (2 * read + bit.toNat) (by simpa using hsplit) hgrown
    rw [length_append, length_singleton] at hnext
    have hstep : BitReader.readFrom read (bits.length + 1) ⟨bytes, before.length⟩ =
        BitReader.readFrom ((2 * read + bit.toNat) % 2 ^ 32) bits.length
          ⟨bytes, before.length + 1⟩ := by
      rw [← hvalue]
      refine (run_bind rfl).trans ?_
      rw [hbyte]
      rfl
    rw [length_cons, hstep, Nat.mod_eq_of_lt hsmall, hnext, ofBitsFrom_cons,
      Nat.add_assoc, Nat.add_comm 1]

/-- At most 32 bits are read as the number that they are. -/
theorem reads_read {bits : List Bool} (h : bits.length ≤ 32) :
    Reads (BitReader.read bits.length) bits (ofBits bits) := by
  intro bytes before after hsplit
  refine readFrom_eq 0 hsplit ?_
  rw [Nat.zero_add, Nat.one_mul]
  exact Nat.pow_le_pow_right (by decide) h

theorem reads_field {w n : ℕ} (hw : w ≤ 32) (hn : n < 2 ^ w) :
    Reads (BitReader.read w) (beBits w n) n := by
  have h := @reads_read (beBits w n) (by simpa using hw)
  rwa [length_beBits, ofBits_beBits hn] at h

theorem reads_readU8 {w n : ℕ} (hw : w ≤ 8) (hn : n < 2 ^ w) :
    Reads (BitReader.readU8 w) (beBits w n) (UInt8.ofNat n) := by
  have hsmall : n < 256 := Nat.lt_of_lt_of_le hn (Nat.pow_le_pow_right (by decide) hw)
  have hread := reads_field (Nat.le_trans hw (by decide)) hn
  have h : Reads (BitReader.readU8 w) (beBits w n ++ []) (UInt8.ofNat n) := by
    unfold BitReader.readU8
    rw [Nat.min_eq_left hw]
    refine hread.bind ?_
    rw [if_pos hsmall]
    exact reads_pure _
  rwa [append_nil] at h

/-! ## Bits copied out -/

theorem unpack_setHighBit {out : Bytes} {i : ℕ} (h : i < 8 * out.length) :
    unpack (BitReader.setHighBit out i) = (unpack out).set i true := by
  have hoctet : i / 8 < out.length := by omega
  refine ext_getElem? fun j => ?_
  rw [getElem?_unpack, getElem?_set, length_unpack, if_pos h, getElem?_unpack]
  unfold BitReader.setHighBit
  by_cases hsame : i / 8 = j / 8
  · rw [hsame, getElem?_set_self (hsame ▸ hoctet), getD_eq_getElem?_getD,
      getElem?_eq_getElem (hsame ▸ hoctet), Option.getD_some, Option.map_some,
      UInt8.toNat_or, toNat_one_shiftLeft (by omega), Nat.testBit_or, Nat.testBit_two_pow]
    by_cases hij : i = j
    · have heq : 7 - i % 8 = 7 - j % 8 := by rw [hij]
      rw [if_pos hij, decide_eq_true heq, Bool.or_true]
    · have hne : ¬ 7 - i % 8 = 7 - j % 8 := by omega
      rw [if_neg hij, decide_eq_false hne, Bool.or_false]
      rfl
  · have hij : i ≠ j := fun heq => hsame (by rw [heq])
    rw [getElem?_set_ne hsame, if_neg hij]

theorem exists_reads_readBitsInto {out : Bytes} (done bits : List Bool) (k : ℕ)
    (hout : unpack out = done ++ .replicate (bits.length + k) false) :
    ∃ out', Reads (BitReader.readBitsInto out done.length bits.length) bits out' ∧
      unpack out' = done ++ bits ++ .replicate k false := by
  induction bits generalizing out done with
  | nil => exact ⟨out, reads_pure out, by simpa using hout⟩
  | cons bit bits ih =>
    have hlength := congrArg List.length hout
    simp only [length_unpack, length_append, length_replicate, length_cons]
      at hlength
    let next := if ofBits [bit] = 1 then BitReader.setHighBit out done.length else out
    have hnext : unpack next = (done ++ [bit]) ++ .replicate (bits.length + k) false := by
      have hzeros : List.replicate (bits.length + 1 + k) false =
          false :: List.replicate (bits.length + k) false := by
        rw [Nat.add_right_comm]
        rfl
      rw [length_cons, hzeros] at hout
      cases bit with
      | false => simpa [next, ofBits, ofBitsFrom] using hout
      | true =>
        have hset := @unpack_setHighBit out done.length (by omega)
        rw [hout, set_append_right _ _ (Nat.le_refl _), Nat.sub_self] at hset
        simpa [next, ofBits, ofBitsFrom] using hset
    obtain ⟨out', hreads, hunpack⟩ := ih (done ++ [bit]) hnext
    refine ⟨out', ?_, by simpa using hunpack⟩
    rw [length_append, length_singleton] at hreads
    exact (@reads_read [bit] (by simp)).bind hreads

theorem reads_readBitsAsBytes (bits : List Bool) :
    Reads (BitReader.readBitsAsBytes bits.length) bits (pack bits) := by
  have hzeros (n : ℕ) : unpack (.replicate n 0) = List.replicate (8 * n) false := by
    induction n with
    | zero => rfl
    | succ n ih =>
      rw [replicate_succ, unpack_cons, ih, Nat.mul_succ, Nat.add_comm,
        ← replicate_append_replicate]
      rfl
  have hroom : 8 * ((bits.length + 7) / 8) =
      bits.length + (8 * ((bits.length + 7) / 8) - bits.length) := by omega
  obtain ⟨out, hreads, hunpack⟩ := exists_reads_readBitsInto [] bits
    (8 * ((bits.length + 7) / 8) - bits.length)
    (show unpack (.replicate ((bits.length + 7) / 8) 0) = _ by
      rw [hzeros, ← hroom, nil_append])
  have hpack : out = pack bits := by
    refine unpack_injective (hunpack.trans ?_)
    rw [pack, unpack_packInto (by omega), nil_append]
  exact hpack ▸ hreads

/-! ## The multiplex -/

/-- A number in one to four bytes, with as many as the sender likes. -/
structure LatmValue where
  extra : Fin 4
  value : ℕ
  fits : value < 2 ^ (8 * (extra.val + 1))

def LatmValue.bits (v : LatmValue) : List Bool :=
  beBits 2 v.extra ++ beBits (8 * (v.extra.val + 1)) v.value

/-- The decoder's configuration.  What follows its fields is for the decoder; in
version 1 it may be filled up with more bits. -/
structure AudioSpecificConfig where
  objectType : ℕ
  frequencyIndex : ℕ
  channelConfiguration : ℕ
  rest : List Bool
  -- 31 stands for a longer field
  object_lt : objectType ≠ 31 ∧ objectType < 96
  frequency_lt : frequencyIndex < 13
  channel_lt : channelConfiguration < 16

namespace AudioSpecificConfig

def objectBits (asc : AudioSpecificConfig) : List Bool :=
  if asc.objectType < 31 then beBits 5 asc.objectType
  else beBits 5 31 ++ beBits 6 (asc.objectType - 32)

def bits (asc : AudioSpecificConfig) : List Bool :=
  asc.objectBits ++ beBits 4 asc.frequencyIndex ++ beBits 4 asc.channelConfiguration ++ asc.rest

end AudioSpecificConfig

/-- A `StreamMuxConfig` of one program, one layer and one subframe, with frames
of variable length and no other data.  Version 1 gives a buffer fullness and the
configuration's length. -/
structure Mux where
  version1 : Option (LatmValue × LatmValue)
  asc : AudioSpecificConfig
  bufferFullness : UInt8
  crc : Option UInt8
  announced : ∀ given ∈ version1, given.2.value = asc.bits.length

namespace Mux

def versionBits (mux : Mux) : List Bool :=
  match mux.version1 with
  | none => [false]
  | some given => true :: false :: given.1.bits

def lengthBits (mux : Mux) : List Bool :=
  match mux.version1 with
  | none => []
  | some given => given.2.bits

def crcBits (mux : Mux) : List Bool :=
  match mux.crc with
  | none => [false]
  | some crc => true :: beBits 8 crc.toNat

def countBits (mux : Mux) (sameTimeFraming : Bool) : List Bool :=
  mux.versionBits ++ [sameTimeFraming] ++ beBits 6 0 ++ beBits 4 0 ++ beBits 3 0

def trailerBits (mux : Mux) : List Bool :=
  beBits 3 0 ++ beBits 8 mux.bufferFullness.toNat ++ [false] ++ mux.crcBits

def bits (mux : Mux) (sameTimeFraming : Bool) : List Bool :=
  mux.countBits sameTimeFraming ++ mux.lengthBits ++ mux.asc.bits ++ mux.trailerBits

end Mux

/-- A length as bytes that add up, of which only the last is not 255. -/
def escaped (length : ℕ) : List Bool :=
  (List.replicate (length / 255) 255 ++ [length % 255]).flatMap (beBits 8)

/-- One element: a configuration or none, and an access unit.  With no common
framing the length stands in a chunk, with the stream it is of and whether the
unit ends in it. -/
structure AudioMuxElement where
  sameTimeFraming : Bool := true
  mux : Option Mux
  accessUnit : Bytes

namespace AudioMuxElement

def configBits (element : AudioMuxElement) : List Bool :=
  match element.mux with
  | none => [true]
  | some mux => false :: mux.bits element.sameTimeFraming

def lengthInfo (element : AudioMuxElement) : List Bool :=
  if element.sameTimeFraming then escaped element.accessUnit.length
  else beBits 4 0 ++ beBits 4 0 ++ escaped element.accessUnit.length ++ [true]

def header (element : AudioMuxElement) : List Bool := element.configBits ++ element.lengthInfo

/-- The packet, filled up to whole bytes. -/
def bytes (element : AudioMuxElement) : Bytes :=
  pack (element.header ++ unpack element.accessUnit)

end AudioMuxElement

/-! ## Reading a multiplex back -/

theorem Reads.congr {m : Reading α} {bits bits' : List Bool} {a : α} (h : Reads m bits a)
    (hbits : bits = bits') : Reads m bits' a := hbits ▸ h

theorem reads_bit (bit : Bool) : Reads (BitReader.read 1) [bit] bit.toNat := by
  have h := @reads_read [bit] (by simp)
  have hvalue : ofBits [bit] = bit.toNat := by cases bit <;> rfl
  rwa [hvalue] at h

theorem reads_value (v : LatmValue) : Reads BitReader.value v.bits v.value := by
  have hextra : v.extra.val < 2 ^ 2 := v.extra.isLt
  refine (reads_field (by decide) hextra).bind ?_
  rw [Nat.mul_comm _ 8]
  exact reads_field (by omega) v.fits

theorem reads_counts (mux : Mux) (sameTimeFraming : Bool) :
    Reads StreamMuxConfig.counts (mux.countBits sameTimeFraming)
      (if mux.version1.isSome then 1 else 0) := by
  unfold Mux.countBits Mux.versionBits
  cases hversion : mux.version1 with
  | none =>
    suffices h : Reads StreamMuxConfig.counts
        ([false] ++ ([] ++ ([] ++ ([sameTimeFraming] ++ (beBits 6 0 ++ (beBits 4 0 ++
          (beBits 3 0 ++ []))))))) 0 by simpa using h
    exact (reads_bit false).bind <| (reads_pure 0).bind <| (reads_pure 0).bind <|
      (reads_bit sameTimeFraming).bind <| (reads_field (by decide) (Nat.two_pow_pos 6)).bind <|
        (reads_field (by decide) (Nat.two_pow_pos 4)).bind <|
          (reads_field (by decide) (Nat.two_pow_pos 3)).bind <| reads_pure 0
  | some given =>
    suffices h : Reads StreamMuxConfig.counts
        ([true] ++ ([false] ++ (given.1.bits ++ ([sameTimeFraming] ++ (beBits 6 0 ++
          (beBits 4 0 ++ (beBits 3 0 ++ []))))))) 1 by simpa using h
    exact (reads_bit true).bind <| (reads_bit false).bind <| (reads_value given.1).bind <|
      (reads_bit sameTimeFraming).bind <| (reads_field (by decide) (Nat.two_pow_pos 6)).bind <|
        (reads_field (by decide) (Nat.two_pow_pos 4)).bind <|
          (reads_field (by decide) (Nat.two_pow_pos 3)).bind <| reads_pure 1

theorem reads_trailer (mux : Mux) (version fuel : ℕ) :
    Reads (StreamMuxConfig.trailer version fuel) mux.trailerBits () := by
  have hfullness : mux.bufferFullness.toNat < 2 ^ 8 := mux.bufferFullness.toNat_lt
  unfold Mux.trailerBits Mux.crcBits
  cases mux.crc with
  | none =>
    suffices h : Reads (StreamMuxConfig.trailer version fuel)
        (beBits 3 0 ++ (beBits 8 mux.bufferFullness.toNat ++ ([false] ++ ([false] ++ [])))) () by
      simpa using h
    exact (reads_field (by decide) (Nat.two_pow_pos 3)).bind <|
      (reads_field (by decide) hfullness).bind <| (reads_bit false).bind <|
        (reads_bit false).bind <| reads_pure ()
  | some crc =>
    have hcrc : crc.toNat < 2 ^ 8 := crc.toNat_lt
    suffices h : Reads (StreamMuxConfig.trailer version fuel)
        (beBits 3 0 ++ (beBits 8 mux.bufferFullness.toNat ++ ([false] ++ ([true] ++
          (beBits 8 crc.toNat ++ []))))) () by
      simpa using h
    exact (reads_field (by decide) (Nat.two_pow_pos 3)).bind <|
      (reads_field (by decide) hfullness).bind <| (reads_bit false).bind <|
        (reads_bit true).bind <| (reads_field (by decide) hcrc).bind <| reads_pure ()

/-! ### The decoder's configuration -/

def AudioSpecificConfig.indexRead (asc : AudioSpecificConfig) : ℕ :=
  if asc.objectType < 31 then asc.frequencyIndex else (asc.objectType - 32) / 4

theorem AudioSpecificConfig.indexRead_lt_iff (asc : AudioSpecificConfig) :
    asc.indexRead < samplingFrequencies.length ↔ asc.objectType < 84 := by
  have hfrequency := asc.frequency_lt
  have hobject := asc.object_lt.1
  change _ < 13 ↔ _
  unfold AudioSpecificConfig.indexRead
  split <;> omega

theorem AudioSpecificConfig.indexRead_lt (asc : AudioSpecificConfig) : asc.indexRead < 2 ^ 4 := by
  have hfrequency := asc.frequency_lt
  have hobject := asc.object_lt.2
  unfold AudioSpecificConfig.indexRead
  split <;> omega

/-- The configuration, cut where the reader cuts it. -/
theorem AudioSpecificConfig.exists_fields (asc : AudioSpecificConfig) :
    ∃ t c more, t < 2 ^ 5 ∧ c < 2 ^ 4 ∧
      asc.bits = beBits 5 t ++ (beBits 4 asc.indexRead ++ (beBits 4 c ++ more)) := by
  unfold AudioSpecificConfig.bits AudioSpecificConfig.objectBits AudioSpecificConfig.indexRead
  by_cases hplain : asc.objectType < 31
  · rw [if_pos hplain, if_pos hplain]
    exact ⟨asc.objectType, asc.channelConfiguration, asc.rest, by omega, asc.channel_lt, by simp⟩
  · rw [if_neg hplain, if_neg hplain]
    let low := beBits 2 (asc.objectType - 32) ++ beBits 4 asc.frequencyIndex ++
      beBits 4 asc.channelConfiguration
    have hchannel : (low.take 4).length = 4 := by simp [low]
    refine ⟨31, ofBits (low.take 4), low.drop 4 ++ asc.rest, by decide,
      hchannel ▸ ofBits_lt (low.take 4), ?_⟩
    have htake : beBits 4 (ofBits (low.take 4)) = low.take 4 := by
      have hback := beBits_ofBits (low.take 4)
      rwa [hchannel] at hback
    have hcut : beBits 6 (asc.objectType - 32) = _ := beBits_add 4 2 (asc.objectType - 32)
    rw [htake, ← append_assoc (low.take 4), take_append_drop, hcut]
    simp [low]

theorem specific_fields {bytes : Bytes} {t i c : ℕ} (before : List Bool) {more : List Bool}
    (ascLen : Option ℕ) (ht : t < 2 ^ 5)
    (hi : i < 2 ^ 4) (hc : c < 2 ^ 4)
    (hsplit : unpack bytes = before ++ (beBits 5 t ++ (beBits 4 i ++ (beBits 4 c ++ more)))) :
    StreamMuxConfig.specific ascLen ⟨bytes, before.length⟩ =
      match samplingFrequencies[i]? with
      | none => .error (.badMediaPacket "LATM names a sampling frequency index we cannot resolve")
      | some sampleRate =>
        (BitReader.readBitsAsBytes (ascLen.getD 16) >>= fun audioSpecificConfig =>
          pure ⟨audioSpecificConfig, UInt8.ofNat t, sampleRate, UInt8.ofNat c⟩ :
            Reading StreamMuxConfig) ⟨bytes, before.length⟩ := by
  have hobject := reads_readU8 (by decide) ht bytes before (beBits 4 i ++ (beBits 4 c ++ more))
    (by simpa using hsplit)
  have hindex := reads_field (by decide) hi bytes (before ++ beBits 5 t) (beBits 4 c ++ more)
    (by simpa using hsplit)
  have hchannel := reads_readU8 (by decide) hc bytes (before ++ beBits 5 t ++ beBits 4 i) more
    (by simpa using hsplit)
  simp only [length_append, length_beBits] at hobject hindex hchannel
  refine (run_bind rfl).trans ((run_bind hobject).trans ((run_bind hindex).trans
    ((run_bind hchannel).trans ?_)))
  cases samplingFrequencies[i]? with
  | none => rfl
  | some rate =>
    have hfields : before.length + 5 + 4 + 4 - before.length + 3 = 16 := by omega
    refine (run_bind rfl).trans ((run_bind rfl).trans ?_)
    rw [hfields]

theorem exists_reads_specific (asc : AudioSpecificConfig) (hobject : asc.objectType < 84)
    {ascLen : Option ℕ} (hlen : ascLen.getD 16 = asc.bits.length) :
    ∃ config, Reads (StreamMuxConfig.specific ascLen) asc.bits config := by
  obtain ⟨t, c, more, ht, hc, hbits⟩ := asc.exists_fields
  have hindex := asc.indexRead_lt_iff.mpr hobject
  refine ⟨⟨pack asc.bits, UInt8.ofNat t, samplingFrequencies[asc.indexRead], UInt8.ofNat c⟩,
    fun bytes before after hsplit => ?_⟩
  rw [specific_fields before ascLen ht asc.indexRead_lt hc
    (hsplit.trans (by rw [hbits]; simp : _ = before ++ (beBits 5 t ++ (beBits 4 asc.indexRead ++
      (beBits 4 c ++ (more ++ after)))))), getElem?_eq_getElem hindex, hlen]
  exact (run_bind (reads_readBitsAsBytes asc.bits bytes before after hsplit)).trans rfl

/-- In version 0 the configuration is taken to be 16 bits. -/
def Mux.Legible (mux : Mux) : Prop := mux.version1 = none → mux.asc.bits.length = 16

theorem reads_ascLen (mux : Mux) (hlegible : mux.Legible) : ∃ ascLen : Option ℕ,
    Reads (StreamMuxConfig.ascLength (if mux.version1.isSome then 1 else 0)) mux.lengthBits
      ascLen ∧ ascLen.getD 16 = mux.asc.bits.length := by
  unfold Mux.lengthBits
  cases hversion : mux.version1 with
  | none => exact ⟨none, reads_pure none, (hlegible hversion).symm⟩
  | some given =>
    exact ⟨some given.2.value, (reads_value given.2).map some,
      mux.announced given (by rw [hversion]; rfl)⟩

theorem exists_reads_streamMuxConfig (mux : Mux) (sameTimeFraming : Bool)
    (hlegible : mux.Legible) (hobject : mux.asc.objectType < 84) :
    ∃ config, Reads streamMuxConfig (mux.bits sameTimeFraming) config := by
  obtain ⟨ascLen, hascLen, hlen⟩ := reads_ascLen mux hlegible
  obtain ⟨config, hspecific⟩ := exists_reads_specific mux.asc hobject hlen
  refine ⟨config, ?_⟩
  have htrailer (version : ℕ) : Reads (get >>= fun r : BitReader =>
      StreamMuxConfig.trailer version r.bytes.length >>= fun _ => pure config)
      (mux.trailerBits ++ []) config := by
    intro bytes before after hsplit
    refine (run_bind rfl).trans ?_
    exact (reads_trailer mux version _).bind (reads_pure config) bytes before after hsplit
  suffices h : Reads streamMuxConfig (mux.countBits sameTimeFraming ++ (mux.lengthBits ++
      (mux.asc.bits ++ (mux.trailerBits ++ [])))) config by
    simpa [Mux.bits] using h
  exact (reads_counts mux sameTimeFraming).bind <| hascLen.bind <| hspecific.bind <| htrailer _

/-- A configuration whose object type reads as an index out of the table is
refused. -/
theorem streamMuxConfig_refused (mux : Mux) (sameTimeFraming : Bool) (hlegible : mux.Legible)
    (hobject : ¬ mux.asc.objectType < 84) {bytes : Bytes} {before after : List Bool}
    (hsplit : unpack bytes = before ++ mux.bits sameTimeFraming ++ after) :
    ∃ e, streamMuxConfig ⟨bytes, before.length⟩ = .error e := by
  obtain ⟨ascLen, hascLen, hlen⟩ := reads_ascLen mux hlegible
  obtain ⟨t, c, more, ht, hc, hbits⟩ := mux.asc.exists_fields
  have hcounts := reads_counts mux sameTimeFraming bytes before
    (mux.lengthBits ++ mux.asc.bits ++ mux.trailerBits ++ after)
    (by rw [hsplit]; simp [Mux.bits])
  have hlength := hascLen bytes (before ++ mux.countBits sameTimeFraming)
    (mux.asc.bits ++ mux.trailerBits ++ after) (by rw [hsplit]; simp [Mux.bits])
  have hspecific := specific_fields
    (before ++ mux.countBits sameTimeFraming ++ mux.lengthBits) ascLen ht
    mux.asc.indexRead_lt hc (hsplit.trans (by
      simp [Mux.bits, hbits] : _ = _ ++ (beBits 5 t ++ (beBits 4 mux.asc.indexRead ++
        (beBits 4 c ++ (more ++ (mux.trailerBits ++ after)))))))
  have hnone : samplingFrequencies[mux.asc.indexRead]? = none :=
    getElem?_eq_none (Nat.not_lt.mp fun hlt => hobject (mux.asc.indexRead_lt_iff.mp hlt))
  rw [hnone] at hspecific
  rw [length_append] at hlength
  rw [length_append, length_append] at hspecific
  exact ⟨_, (run_bind hcounts).trans ((run_bind hlength).trans (run_bind_error hspecific))⟩

/-! ### The length -/

theorem length_escaped (n : ℕ) : (escaped n).length = 8 * (n / 255 + 1) := by
  rw [escaped, length_flatMap]
  simp
  omega

theorem reads_length (read k last fuel : ℕ) (hlast : last < 255) (hfuel : k < fuel) :
    Reads (BitReader.loop lengthTurn fuel read)
      ((List.replicate k 255 ++ [last]).flatMap (beBits 8)) (read + 255 * k + last) := by
  induction k generalizing read fuel with
  | zero =>
    obtain ⟨fuel, rfl⟩ := Nat.exists_eq_succ_of_ne_zero (Nat.ne_of_gt hfuel)
    have hturn : Reads (lengthTurn read) (beBits 8 last ++ []) (.inr (read + last)) := by
      refine (reads_field (by decide) (show last < 2 ^ 8 by omega)).bind ?_
      rw [if_pos (Nat.ne_of_lt hlast)]
      exact reads_pure _
    exact (hturn.bind (reads_pure (read + last))).congr (by simp)
  | succ k ih =>
    obtain ⟨fuel, rfl⟩ := Nat.exists_eq_succ_of_ne_zero (Nat.ne_of_gt (Nat.zero_lt_of_lt hfuel))
    have hrest := ih (read + 255) fuel (Nat.lt_of_succ_lt_succ hfuel)
    have hsum : read + 255 + 255 * k + last = read + 255 * (k + 1) + last := by omega
    have hturn : Reads (lengthTurn read) (beBits 8 255 ++ []) (.inl (read + 255)) :=
      (reads_field (by decide) (show 255 < 2 ^ 8 by decide)).bind (reads_pure _)
    rw [hsum] at hrest
    exact (hturn.bind hrest).congr (by simp [replicate_succ])

/-! ### The access unit -/

section

variable {bytes : Bytes} {before after : List Bool} {n : ℕ}

/-- The reader behind the header of an access unit of `n` bytes. -/
theorem payloadRange_eq (hsplit : unpack bytes = before ++ escaped n ++ after) :
    payloadRange ⟨bytes, before.length⟩ =
      if (before ++ escaped n).length % 8 ≠ 0 then
        .error (.badMediaPacket "LATM payload does not start on a byte boundary")
      else if 2 ^ 64 ≤ (before ++ escaped n).length / 8 + n then
        .error (.badMediaPacket "LATM payload length overflows")
      else if bytes.length < (before ++ escaped n).length / 8 + n then
        .error (.badMediaPacket "LATM payload length runs past the packet")
      else .ok (((before ++ escaped n).length / 8, (before ++ escaped n).length / 8 + n),
        ⟨bytes, (before ++ escaped n).length⟩) := by
  have hroom : n / 255 < bytes.length := by
    have hlength := congrArg List.length hsplit
    simp only [length_unpack, length_append, length_escaped] at hlength
    omega
  have hread := reads_length 0 (n / 255) (n % 255) bytes.length (Nat.mod_lt _ (by decide)) hroom
    bytes before after hsplit
  have hsum : 0 + 255 * (n / 255) + n % 255 = n := by omega
  rw [hsum, ← length_append] at hread
  refine (run_bind rfl).trans ((run_bind hread).trans ((run_bind rfl).trans ?_))
  change (if (before ++ escaped n).length % 8 ≠ 0 then _ else
    if 2 ^ 64 ≤ (before ++ escaped n).length / 8 + n then _ else
      if bytes.length < (before ++ escaped n).length / 8 + n then _ else _ : Reading (ℕ × ℕ)) _ = _
  split
  · rfl
  · split
    · rfl
    · split <;> rfl

/-- The access unit comes back if it starts on a byte, and is refused otherwise.
-/
theorem slice_eq_iff {accessUnit : Bytes}
    (hbytes : bytes = pack (before ++ escaped accessUnit.length ++ unpack accessUnit)) :
    LatmParser.slice bytes ⟨bytes, before.length⟩ = .ok accessUnit ↔
      8 ∣ (before ++ escaped accessUnit.length).length ∧ bytes.length < 2 ^ 64 := by
  obtain ⟨k, hk, hunpack, hlength⟩ := unpack_pack
    (before ++ escaped accessUnit.length ++ unpack accessUnit)
  rw [← hbytes] at hunpack hlength
  rw [append_assoc (before ++ _)] at hunpack
  let start := (before ++ escaped accessUnit.length).length
  have hlength' : 8 * bytes.length = start + 8 * accessUnit.length + k := by
    rw [hlength, length_append, length_unpack]
  rw [LatmParser.slice, payloadRange_eq hunpack]
  change (if start % 8 ≠ 0 then _ else if 2 ^ 64 ≤ start / 8 + _ then _ else
    if bytes.length < start / 8 + _ then _ else _ : Except AudioError _).map _ = _ ↔ 8 ∣ start ∧ _
  by_cases haligned : start % 8 = 0
  · have hend : bytes.length = start / 8 + accessUnit.length := by omega
    rw [if_neg (not_not.mpr haligned), ← hend]
    by_cases hmemory : bytes.length < 2 ^ 64
    · have hzero : k = 0 := by omega
      rw [if_neg (Nat.not_le.mpr hmemory), if_neg (Nat.lt_irrefl _)]
      have hdrop : bytes.drop (start / 8) = accessUnit := by
        refine unpack_injective ?_
        have hstart : 8 * (start / 8) = start := by omega
        rw [← drop_unpack, hunpack, hstart, drop_left, hzero]
        exact append_nil _
      refine ⟨fun _ => ⟨Nat.dvd_of_mod_eq_zero haligned, hmemory⟩, fun _ => ?_⟩
      rw [Except.map, take_length, hdrop]
    · rw [if_pos (Nat.not_lt.mp hmemory)]
      exact ⟨fun h => (nomatch h), fun h => absurd h.2 hmemory⟩
  · rw [if_pos haligned]
    exact ⟨fun h => (nomatch h), fun h => absurd (Nat.mod_eq_zero_of_dvd h.1) haligned⟩

end

/-! ## What comes back -/

namespace AudioMuxElement

variable {element : AudioMuxElement} {mux : Mux}

/-- The header is laid out as the parser takes it to be. -/
def Legible (element : AudioMuxElement) : Prop :=
  element.sameTimeFraming = true ∧ ∀ mux ∈ element.mux, mux.Legible

/-- The element carries a configuration, of version 1 and of such a length that
the access unit starts on a byte, and fits in memory. -/
structure Restored (element : AudioMuxElement) : Prop where
  framing : element.sameTimeFraming = true
  carries : ∃ mux ∈ element.mux, mux.version1.isSome = true ∧ mux.asc.objectType < 84 ∧
    mux.asc.bits.length % 8 = 6
  inMemory : element.bytes.length < 2 ^ 64

theorem Restored.legible (h : element.Restored) : element.Legible := by
  obtain ⟨mux, hmux, hversion, -⟩ := h.carries
  refine ⟨h.framing, fun mux' hmux' hnone => ?_⟩
  cases Option.some.inj ((Option.mem_def.mp hmux).symm.trans (Option.mem_def.mp hmux'))
  rw [hnone] at hversion
  cases hversion

theorem length_latmValue (v : LatmValue) : v.bits.length = 2 + 8 * (v.extra.val + 1) := by
  simp [LatmValue.bits]

/-- Where the access unit starts, counted in eighths of a byte. -/
theorem length_muxBits_mod (hlegible : mux.Legible) (sameTimeFraming : Bool) :
    (1 + (mux.bits sameTimeFraming).length) % 8 = 0 ↔
      mux.version1.isSome = true ∧ mux.asc.bits.length % 8 = 6 := by
  have hcrc : mux.crcBits.length % 8 = 1 := by
    unfold Mux.crcBits
    cases mux.crc <;> simp
  have hbits : (mux.bits sameTimeFraming).length = mux.versionBits.length + 14 +
      mux.lengthBits.length + mux.asc.bits.length + 12 + mux.crcBits.length := by
    simp only [Mux.bits, Mux.countBits, Mux.trailerBits, length_append, length_beBits,
      length_singleton]
    omega
  rw [hbits]
  unfold Mux.versionBits Mux.lengthBits
  cases hversion : mux.version1 with
  | none =>
    have hlength := hlegible hversion
    simp only [length_singleton, length_nil, Option.isSome_none, Bool.false_eq_true,
      false_and, iff_false]
    omega
  | some given =>
    simp only [length_cons, length_latmValue, Option.isSome_some, true_and]
    omega

theorem exists_unpack_bytes (h : element.sameTimeFraming = true) :
    element.bytes = pack (element.configBits ++ escaped element.accessUnit.length ++
      unpack element.accessUnit) ∧
      ∃ after, unpack element.bytes = element.configBits ++ after := by
  have hbytes : element.bytes = pack (element.configBits ++
      escaped element.accessUnit.length ++ unpack element.accessUnit) := by
    rw [bytes, header, lengthInfo, if_pos h]
  obtain ⟨k, -, hunpack, -⟩ := unpack_pack (element.configBits ++
    escaped element.accessUnit.length ++ unpack element.accessUnit)
  rw [← hbytes, append_assoc, append_assoc] at hunpack
  exact ⟨hbytes, _, hunpack⟩

theorem accessUnit_reused (parser : LatmParser) (h : element.sameTimeFraming = true)
    (hmux : element.mux = none) : (parser.accessUnit element.bytes).2 ≠ .ok element.accessUnit := by
  obtain ⟨hbytes, after, hunpack⟩ := exists_unpack_bytes h
  have hconfig : element.configBits = [true] := by rw [configBits, hmux]
  rw [hconfig] at hbytes hunpack
  have hread : BitReader.read 1 { bytes := element.bytes } = .ok (1, ⟨element.bytes, 1⟩) :=
    reads_bit true element.bytes [] after hunpack
  rw [LatmParser.accessUnit_of_reuse hread]
  intro hok
  dsimp only at hok
  split at hok
  · cases hok
  · have haligned := ((slice_eq_iff hbytes).mp hok).1
    rw [length_append, length_escaped, length_singleton] at haligned
    omega

theorem accessUnit_configured (parser : LatmParser) (h : element.sameTimeFraming = true)
    (hmux : element.mux = some mux) (hlegible : mux.Legible) :
    (parser.accessUnit element.bytes).2 = .ok element.accessUnit ↔
      (mux.version1.isSome = true ∧ mux.asc.bits.length % 8 = 6) ∧ mux.asc.objectType < 84 ∧
        element.bytes.length < 2 ^ 64 := by
  obtain ⟨hbytes, after, hunpack⟩ := exists_unpack_bytes h
  have hconfig : element.configBits = [false] ++ mux.bits element.sameTimeFraming := by
    rw [configBits, hmux]
    rfl
  rw [hconfig] at hbytes hunpack
  have hread : BitReader.read 1 { bytes := element.bytes } = .ok (0, ⟨element.bytes, 1⟩) :=
    reads_bit false element.bytes [] (mux.bits element.sameTimeFraming ++ after)
      (by simpa using hunpack)
  by_cases hobject : mux.asc.objectType < 84
  · obtain ⟨config, hreads⟩ :=
      exists_reads_streamMuxConfig mux element.sameTimeFraming hlegible hobject
    have hrest := hreads element.bytes [false] after hunpack
    have hslice := slice_eq_iff hbytes
    have hlength : ([false] ++ mux.bits element.sameTimeFraming).length =
        1 + (mux.bits element.sameTimeFraming).length := length_append
    rw [@length_append _ ([false] ++ mux.bits element.sameTimeFraming), length_escaped]
      at hslice
    rw [length_singleton, ← hlength] at hrest
    rw [LatmParser.accessUnit_of_config hread hrest, hslice,
      ← length_muxBits_mod hlegible element.sameTimeFraming]
    constructor
    · rintro ⟨haligned, hmemory⟩
      exact ⟨by omega, hobject, hmemory⟩
    · rintro ⟨haligned, -, hmemory⟩
      exact ⟨by omega, hmemory⟩
  · obtain ⟨e, hrefused⟩ :=
      streamMuxConfig_refused mux element.sameTimeFraming hlegible hobject hunpack
    rw [LatmParser.accessUnit_of_refused hread hrefused]
    exact ⟨fun hok => (nomatch hok), fun hnot => absurd hnot.2.1 hobject⟩

theorem accessUnit_iff (parser : LatmParser) (h : element.Legible) :
    (parser.accessUnit element.bytes).2 = .ok element.accessUnit ↔ element.Restored := by
  cases hmux : element.mux with
  | none =>
    refine ⟨fun hok => absurd hok (accessUnit_reused parser h.1 hmux), fun hrestored => ?_⟩
    obtain ⟨mux, hsome, -⟩ := hrestored.carries
    rw [hmux] at hsome
    cases hsome
  | some mux =>
    rw [accessUnit_configured parser h.1 hmux (h.2 mux hmux)]
    constructor
    · rintro ⟨⟨hversion, haligned⟩, hobject, hmemory⟩
      exact ⟨h.1, ⟨mux, hmux, hversion, hobject, haligned⟩, hmemory⟩
    · rintro ⟨-, ⟨mux', hmux', hversion, hobject, haligned⟩, hmemory⟩
      cases Option.some.inj (hmux.symm.trans (Option.mem_def.mp hmux'))
      exact ⟨⟨hversion, haligned⟩, hobject, hmemory⟩

end AudioMuxElement

namespace LatmParser

def demultiplex (parser : LatmParser) : List Bytes → List (Except AudioError Bytes)
  | [] => []
  | payload :: payloads =>
    let fed := parser.accessUnit payload
    fed.2 :: demultiplex fed.1 payloads

/-- The configuration that a packet carries, if it can be read. -/
def announced (payload : Bytes) : Option StreamMuxConfig :=
  match BitReader.read 1 { bytes := payload } with
  | .error _ => none
  | .ok (useSameStreamMux, r) =>
    if useSameStreamMux = 0 then (streamMuxConfig r).toOption.map Prod.fst else none

variable {parser : LatmParser} {payload : Bytes}

theorem slice_infix {r : BitReader} {accessUnit : Bytes} (h : slice payload r = .ok accessUnit) :
    accessUnit <:+: payload := by
  unfold slice at h
  cases hrange : payloadRange r with
  | error e =>
    rw [hrange] at h
    cases h
  | ok found =>
    rw [hrange] at h
    cases h
    exact (drop_suffix _ _).isInfix.trans (List.take_prefix _ _).isInfix

theorem accessUnit_infix {accessUnit : Bytes}
    (h : (parser.accessUnit payload).2 = .ok accessUnit) : accessUnit <:+: payload := by
  unfold LatmParser.accessUnit at h
  split at h
  · cases h
  · split at h
    · split at h
      · cases h
      · exact slice_infix h
    · split at h
      · cases h
      · exact slice_infix h

/-- What a packet does to the stored configuration. -/
theorem config_accessUnit (parser : LatmParser) (payload : Bytes) :
    (parser.accessUnit payload).1.config = (announced payload).or parser.config := by
  unfold LatmParser.accessUnit announced
  cases hread : BitReader.read 1 { bytes := payload } with
  | error e => rfl
  | ok found =>
    obtain ⟨useSame, r⟩ := found
    dsimp only
    by_cases hown : useSame = 0
    · rw [if_pos hown, if_pos hown]
      cases streamMuxConfig r <;> rfl
    · rw [if_neg hown, if_neg hown]
      split <;> rfl

theorem kept_iff (parser : LatmParser) (payload : Bytes) : (parser.accessUnit payload).1 = parser ↔
      ∀ config ∈ announced payload, parser.config = some config := by
  have hconfig := config_accessUnit parser payload
  cases hannounced : announced payload with
  | none =>
    rw [hannounced] at hconfig
    exact ⟨fun _ config hmem => (nomatch hmem), fun _ => congrArg LatmParser.mk hconfig⟩
  | some config =>
    rw [hannounced] at hconfig
    constructor
    · intro h config' hmem
      rw [h] at hconfig
      exact hconfig.trans hmem
    · exact fun h => congrArg LatmParser.mk (hconfig.trans (h config rfl).symm)

theorem demultiplex_iff {elements : List AudioMuxElement} (h : ∀ e ∈ elements, e.Legible) :
    parser.demultiplex (elements.map AudioMuxElement.bytes) =
        elements.map (fun e => .ok e.accessUnit) ↔ ∀ e ∈ elements, e.Restored := by
  induction elements generalizing parser with
  | nil => exact ⟨fun _ e he => (nomatch he), fun _ => rfl⟩
  | cons element elements ih =>
    rw [map_cons, map_cons, demultiplex, cons_eq_cons,
      element.accessUnit_iff parser (h element mem_cons_self),
      ih fun e he => h e (mem_cons_of_mem _ he), forall_mem_cons]

/-- **Demultiplexing.**  The access units of elements come back that each carry
their own configuration, with the length that has the access unit start on a
byte; of elements laid out as the parser takes them to be those are the only
ones.  Whatever the packet, nothing outside of it is taken, and a refusal keeps
the configuration exactly if the packet announces no other. -/
theorem demultiplexed (parser : LatmParser) :
    (∀ elements : List AudioMuxElement, (∀ e ∈ elements, e.Restored) →
      parser.demultiplex (elements.map AudioMuxElement.bytes) =
        elements.map fun e => .ok e.accessUnit) ∧
      (∀ elements : List AudioMuxElement, (∀ e ∈ elements, e.Legible) →
        parser.demultiplex (elements.map AudioMuxElement.bytes) =
          elements.map (fun e => .ok e.accessUnit) → ∀ e ∈ elements, e.Restored) ∧
      (∀ r found r', payloadRange r = .ok (found, r') →
        found.1 ≤ found.2 ∧ found.2 ≤ r.bytes.length) ∧
      ∀ payload : Bytes,
        (∀ accessUnit, (parser.accessUnit payload).2 = .ok accessUnit → accessUnit <:+: payload) ∧
          ∀ e, (parser.accessUnit payload).2 = .error e →
            ((parser.accessUnit payload).1 = parser ↔
              ∀ config ∈ announced payload, parser.config = some config) := by
  refine ⟨fun elements h => ?_, fun elements h => (demultiplex_iff h).mp,
    fun r found r' => payloadRange_within, fun payload => ⟨fun _ => accessUnit_infix, ?_⟩⟩
  · exact (demultiplex_iff fun e he => (h e he).legible).mpr h
  · exact fun e _ => kept_iff parser payload

/-- AAC-LC at 44.1 kHz in stereo, filled up to 22 bits. -/
def stereo : Mux where
  version1 := some (⟨0, 255, by decide⟩, ⟨0, 22, by decide⟩)
  asc := ⟨2, 4, 2, .replicate 9 false, by decide, by decide, by decide⟩
  bufferFullness := 255
  crc := none
  announced := fun given hgiven => by
    cases hgiven
    decide

def configured : AudioMuxElement := { mux := some stereo, accessUnit := [0x21, 0x10, 0x05] }

def reusing : AudioMuxElement := { mux := none, accessUnit := [0x21, 0x10, 0x06] }

theorem demultiplexed_configured :
    demultiplex {} ([configured, configured].map AudioMuxElement.bytes) =
      [configured, configured].map fun e => .ok e.accessUnit :=
  (demultiplexed {}).1 [configured, configured] fun e he => by
    have heq : e = configured := by simpa using he
    rw [heq]
    exact ⟨rfl, ⟨stereo, rfl, rfl, by decide, by decide⟩, by decide⟩

theorem reused_configuration_refused :
    demultiplex {} ([configured, reusing].map AudioMuxElement.bytes) ≠
      [configured, reusing].map fun e => .ok e.accessUnit := by
  decide +kernel

end LatmParser

end Castaway.Bluetooth
