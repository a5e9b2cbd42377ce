import Castaway.AirPlay.Mirroring

/-!
# Lengths into start codes, on any bytes

`toAnnexB` walks units that stand behind their lengths.  On the units of a real
access unit it does what it is for (`toAnnexB_avcc`).  On any bytes it returns
an error, or a walk that took all of them apart, or it looks for the first byte
of an empty unit at the very end (`toAnnexB_cases`), and the last of these is
one kind of input (`toAnnexB_of_endsInEmptyUnit`).

What the readers of a configuration record hand on stands in the record.
-/

namespace Castaway.AirPlay

open List

variable {codec : MirrorCodec} {data record : Bytes}

/-! ## The walk -/

def lengthPrefixed (unit : Bytes) : Bytes := beBytes 4 unit.length ++ unit

theorem toAnnexB_lengthPrefixed {unit rest : Bytes} (hfits : unit.length < 4294967296)
    {first : UInt8} (hfirst : (unit ++ rest).head? = some first) (hreserved : first &&& 0x80 = 0) :
    toAnnexB (lengthPrefixed unit ++ rest) codec =
      (do
        let (tail, keyframe) ← toAnnexB rest codec
        pure (startCode ++ unit ++ tail, isIdr codec first || keyframe)) := by
  obtain ⟨b₀, b₁, b₂, b₃, hbytes, hlength⟩ := exists_beBytes_four hfits
  have hlong : ¬ (unit ++ rest).length < unit.length := by
    rw [length_append]
    omega
  have hclear : ((first &&& 0x80) != 0) = false := by rw [hreserved]; rfl
  rw [lengthPrefixed, hbytes, append_assoc]
  simp only [cons_append, nil_append]
  rw [toAnnexB]
  simp only [hlength, if_neg hlong, hfirst, hclear, drop_left, take_left,
    Bool.false_eq_true, if_false]

/-- Four bytes and what they announce are a unit behind its length. -/
theorem lengthPrefixed_take {b₀ b₁ b₂ b₃ : UInt8} {rest : Bytes}
    (hlong : beNat [b₀, b₁, b₂, b₃] ≤ rest.length) :
    lengthPrefixed (rest.take (beNat [b₀, b₁, b₂, b₃])) ++ rest.drop (beNat [b₀, b₁, b₂, b₃]) =
      b₀ :: b₁ :: b₂ :: b₃ :: rest := by
  rw [lengthPrefixed, length_take, min_eq_left hlong, @beBytes_beNat 4 [b₀, b₁, b₂, b₃] rfl,
    append_assoc, take_append_drop]
  rfl

/-- Every unit passes the check when an empty one ends the data: the byte behind
its length has its top bit clear. -/
def Unreserved : List Bytes → Prop
  | [] => True
  | unit :: units =>
    unit.length < 4294967296 ∧
      (∀ first ∈ (unit ++ (units.flatMap lengthPrefixed ++ lengthPrefixed [])).head?,
        first &&& 0x80 = 0) ∧
      Unreserved units

def EndsInEmptyUnit (data : Bytes) : Prop :=
  ∃ units, Unreserved units ∧ data = units.flatMap lengthPrefixed ++ lengthPrefixed []

theorem toAnnexB_of_endsInEmptyUnit (h : EndsInEmptyUnit data) (codec : MirrorCodec) :
    toAnnexB data codec = .error .panic := by
  obtain ⟨units, hunits, rfl⟩ := h
  induction units with
  | nil =>
    change toAnnexB [0, 0, 0, 0] codec = _
    rw [toAnnexB]
    rfl
  | cons unit units ih =>
    obtain ⟨hfits, hreserved, hrest⟩ := hunits
    have hsome : (unit ++ (units.flatMap lengthPrefixed ++ lengthPrefixed [])).head?.isSome := by
      rw [isSome_head?]
      simp [lengthPrefixed, beBytes, leBytes]
    obtain ⟨first, hfirst⟩ := Option.isSome_iff_exists.mp hsome
    rw [flatMap_cons, append_assoc,
      toAnnexB_lengthPrefixed hfits hfirst (hreserved first hfirst), ih hrest]
    rfl

inductive Walked (codec : MirrorCodec) (data : Bytes) : Prop where
  | emptyUnit (hends : EndsInEmptyUnit data) (hpanic : toAnnexB data codec = .error .panic)
  | malformed (herror : toAnnexB data codec = .error (.error .malformedAccessUnit))
  | whole (units : List Bytes) (keyframe : Bool) (hfit : ∀ unit ∈ units, unit.length < 4294967296)
      (hdata : data = units.flatMap lengthPrefixed)
      (hok : toAnnexB data codec = .ok (units.flatMap (startCode ++ ·), keyframe))

theorem walked (codec : MirrorCodec) (data : Bytes) : Walked codec data := by
  induction data using toAnnexB.induct with
  | case1 => exact .whole [] false (forall_mem_nil _) rfl (by rw [toAnnexB]; rfl)
  | case2 b₀ b₁ b₂ b₃ rest nalLen hshort =>
    apply Walked.malformed
    rw [toAnnexB]
    exact if_pos hshort
  | case3 b₀ b₁ b₂ b₃ rest nalLen hlong hnone =>
    -- nothing is left, so the length is 0
    have hrest : rest = [] := List.head?_eq_none_iff.mp hnone
    subst hrest
    have hends := lengthPrefixed_take (not_lt.mp hlong)
    rw [take_nil, drop_nil, append_nil] at hends
    refine .emptyUnit ⟨[], trivial, hends.symm⟩ ?_
    rw [toAnnexB, if_neg hlong, head?_nil]
  | case4 b₀ b₁ b₂ b₃ rest nalLen hlong first hfirst hreserved =>
    apply Walked.malformed
    rw [toAnnexB, if_neg hlong, hfirst]
    exact if_pos hreserved
  | case5 b₀ b₁ b₂ b₃ rest nalLen hlong first hfirst hreserved ih =>
    have hsplit := lengthPrefixed_take (not_lt.mp hlong)
    have hfits : (rest.take nalLen).length < 4294967296 := by
      have hlt : nalLen < 4294967296 := by simpa using beNat_lt [b₀, b₁, b₂, b₃]
      rw [length_take]
      omega
    have hclear : first &&& 0x80 = 0 := by simpa using hreserved
    have hhead : (rest.take nalLen ++ rest.drop nalLen).head? = some first := by
      rw [take_append_drop]
      exact hfirst
    have hround := @toAnnexB_lengthPrefixed codec _ _ hfits _ hhead hclear
    rw [hsplit] at hround
    cases ih with
    | emptyUnit hends hpanic =>
      obtain ⟨units, hunits, hdrop⟩ := hends
      refine .emptyUnit
        ⟨rest.take nalLen :: units, ⟨hfits, fun byte hbyte => ?_, hunits⟩, ?_⟩ ?_
      · rw [← hdrop, hhead] at hbyte
        cases hbyte
        exact hclear
      · rw [flatMap_cons, append_assoc, ← hdrop, hsplit]
      · rw [hround, hpanic]
        rfl
    | malformed herror =>
      apply Walked.malformed
      rw [hround, herror]
      rfl
    | whole units keyframe hfit hdrop hok =>
      refine .whole (rest.take nalLen :: units) (isIdr codec first || keyframe)
        (forall_mem_cons.mpr ⟨hfits, hfit⟩) ?_ ?_
      · rw [flatMap_cons, ← hdrop, hsplit]
      · rw [hround, hok]
        rfl
  | case6 data hnil hcons =>
    apply Walked.malformed
    unfold toAnnexB
    split
    · exact absurd rfl hnil
    · exact absurd rfl (hcons _ _ _ _ _)
    · rfl

/-! ## The configuration records -/

theorem slice_within (record : Bytes) (at_ width : ℕ) :
    slice record at_ width = .error .malformedCodecConfig ∨
      ∃ bytes, bytes <:+: record ∧ slice record at_ width = .ok bytes := by
  unfold slice
  split
  · exact .inl rfl
  · exact .inr ⟨_, (List.take_prefix _ _).isInfix.trans (drop_suffix _ _).isInfix, rfl⟩

theorem readU16_outcome (record : Bytes) (at_ : ℕ) :
    readU16 record at_ = .error .malformedCodecConfig ∨ ∃ n, readU16 record at_ = .ok n := by
  rcases slice_within record at_ 2 with h | ⟨bytes, -, h⟩
  · exact .inl (by rw [readU16, h]; rfl)
  · exact .inr ⟨beNat bytes, by rw [readU16, h]; rfl⟩

/-- Units out of the record, behind start codes, or the one error. -/
def PartsOf (record : Bytes) (result : Except MirrorError Bytes) : Prop :=
  result = .error .malformedCodecConfig ∨
    ∃ units : List Bytes, (∀ unit ∈ units, unit <:+: record) ∧
      result = .ok (units.flatMap (startCode ++ ·))

theorem avcParameterSets_partsOf (record : Bytes) : PartsOf record (avcParameterSets record) := by
  unfold avcParameterSets
  dsimp only
  rcases readU16_outcome record 6 with h | ⟨spsLen, h⟩
  · exact .inl (by rw [h]; rfl)
  rw [h, ok_bind]
  rcases slice_within record (6 + 2) spsLen with h | ⟨sps, hsps, h⟩
  · exact .inl (by rw [h]; rfl)
  rw [h, ok_bind]
  rcases readU16_outcome record (6 + 2 + spsLen + 1) with h | ⟨ppsLen, h⟩
  · exact .inl (by rw [h]; rfl)
  rw [h, ok_bind]
  rcases slice_within record (6 + 2 + spsLen + 1 + 2) ppsLen with h | ⟨pps, hpps, h⟩
  · exact .inl (by rw [h]; rfl)
  rw [h, ok_bind]
  refine .inr ⟨[sps, pps], ?_, ?_⟩
  · intro unit hunit
    rcases mem_pair.mp hunit with rfl | rfl
    · exact hsps
    · exact hpps
  · simp only [flatMap_cons, flatMap_nil, append_nil]
    rfl

theorem hevcNals_within (record : Bytes) (count at_ : ℕ) :
    hevcNals record count at_ = .error .malformedCodecConfig ∨
      ∃ (units : List Bytes) (end_ : ℕ), (∀ unit ∈ units, unit <:+: record) ∧
        hevcNals record count at_ = .ok (units.flatMap (startCode ++ ·), end_) := by
  induction count generalizing at_ with
  | zero => exact .inr ⟨[], at_, forall_mem_nil _, rfl⟩
  | succ count ih =>
    rw [hevcNals]
    rcases readU16_outcome record at_ with h | ⟨len, h⟩
    · exact .inl (by rw [h]; rfl)
    rw [h, ok_bind]
    rcases slice_within record (at_ + 2) len with h | ⟨nal, hnal, h⟩
    · exact .inl (by rw [h]; rfl)
    rw [h, ok_bind]
    rcases ih (at_ + 2 + len) with h | ⟨units, end_, hunits, h⟩
    · exact .inl (by rw [h]; rfl)
    rw [h, ok_bind]
    exact .inr ⟨nal :: units, end_, forall_mem_cons.mpr ⟨hnal, hunits⟩, rfl⟩

theorem hevcArrays_partsOf (record : Bytes) (numArrays at_ : ℕ) :
    PartsOf record (hevcArrays record numArrays at_) := by
  induction numArrays generalizing at_ with
  | zero => exact .inr ⟨[], forall_mem_nil _, rfl⟩
  | succ numArrays ih =>
    rw [hevcArrays]
    rcases readU16_outcome record (at_ + 1) with h | ⟨count, h⟩
    · exact .inl (by rw [h]; rfl)
    rw [h, ok_bind]
    rcases hevcNals_within record count (at_ + 3) with h | ⟨nals, end_, hnals, h⟩
    · exact .inl (by rw [h]; rfl)
    rw [h, ok_bind]
    dsimp only
    rcases ih end_ with h | ⟨units, hunits, h⟩
    · exact .inl (by rw [h]; rfl)
    rw [h, ok_bind]
    refine .inr ⟨nals ++ units, forall_mem_append.mpr ⟨hnals, hunits⟩, ?_⟩
    rw [flatMap_append]
    rfl

theorem hevcParameterSets_partsOf (record : Bytes) : PartsOf record (hevcParameterSets record) := by
  unfold hevcParameterSets
  dsimp only
  rcases slice_within record 22 1 with h | ⟨numArrays, -, h⟩
  · exact .inl (by rw [h]; rfl)
  rw [h, ok_bind]
  rcases hevcArrays_partsOf record (beNat numArrays) (22 + 1) with h | ⟨units, hunits, h⟩
  · exact .inl (by rw [h]; rfl)
  rw [h, ok_bind]
  split
  · exact .inl rfl
  · exact .inr ⟨units, hunits, rfl⟩

/-! ## The result -/

/-- What a decoder can start from: an IDR of H.264, or one of the six types of
intra random access point of HEVC. -/
def Nal.StartsDecoding (nal : Nal) : MirrorCodec → Prop
  | .h264 => nal.head.toNat % 32 = 5
  | .hevc => 16 ≤ nal.head.toNat / 2 % 64 ∧ nal.head.toNat / 2 % 64 ≤ 21

theorem isIdr_iff (nal : Nal) (codec : MirrorCodec) :
    isIdr codec nal.head = true ↔ nal.StartsDecoding codec := by
  cases codec with
  | h264 =>
    have hlow : (nal.head &&& 0x1f).toNat = nal.head.toNat % 32 := by
      rw [UInt8.toNat_and]
      exact Nat.and_two_pow_sub_one_eq_mod _ 5
    rw [isIdr, beq_iff_eq, ← UInt8.toNat_inj, hlow]
    rfl
  | hevc =>
    have hmiddle : ((nal.head &&& 0x7e) >>> 1).toNat = nal.head.toNat / 2 % 64 := by
      rw [UInt8.toNat_shiftRight, UInt8.toNat_and]
      change (nal.head.toNat &&& 126) >>> 1 = _
      rw [Nat.shiftRight_and_distrib, Nat.shiftRight_eq_div_pow]
      exact Nat.and_two_pow_sub_one_eq_mod _ 6
    rw [isIdr, hmiddle, Bool.and_eq_true, decide_eq_true_iff, decide_eq_true_iff]
    rfl

theorem length_flatMap_annexB (nals : List Nal) :
    (nals.flatMap Nal.annexB).length = (nals.flatMap Nal.avcc).length := by
  induction nals with
  | nil => rfl
  | cons nal nals ih =>
    rw [flatMap_cons, flatMap_cons, length_append, length_append, ih,
      Nal.annexB, Nal.avcc, length_append, length_append, length_beBytes]
    rfl

/-- Real access units become what they should, any bytes are walked to their end
or refused, and a record gives its own parts or the error, exactly when the
bytes do not end in an empty unit that the walk gets to. -/
theorem rewrites_iff (nals : List Nal) (data avcC hvcC : Bytes) (codec : MirrorCodec) :
    ((∃ rewritten keyframe,
          toAnnexB (nals.flatMap Nal.avcc) codec = .ok (rewritten, keyframe) ∧
            rewritten = nals.flatMap Nal.annexB ∧
            rewritten.length = (nals.flatMap Nal.avcc).length ∧
            (keyframe = true ↔ ∃ nal ∈ nals, nal.StartsDecoding codec)) ∧
        (toAnnexB data codec = .error (.error .malformedAccessUnit) ∨
          ∃ (units : List Bytes) (keyframe : Bool),
            (∀ unit ∈ units, unit.length < 4294967296) ∧ data = units.flatMap lengthPrefixed ∧
            toAnnexB data codec = .ok (units.flatMap (startCode ++ ·), keyframe)) ∧
        PartsOf avcC (avcParameterSets avcC) ∧
        PartsOf hvcC (hevcParameterSets hvcC)) ↔
      ¬ EndsInEmptyUnit data := by
  constructor
  · rintro ⟨-, hwalk, -⟩ hends
    have hpanic := toAnnexB_of_endsInEmptyUnit hends codec
    rcases hwalk with herror | ⟨units, keyframe, -, -, hok⟩
    · rw [hpanic] at herror
      cases herror
    · rw [hpanic] at hok
      cases hok
  · intro hends
    refine ⟨⟨_, _, toAnnexB_avcc nals codec, rfl, length_flatMap_annexB nals, ?_⟩, ?_,
      avcParameterSets_partsOf avcC, hevcParameterSets_partsOf hvcC⟩
    · simp only [any_eq_true, isIdr_iff]
    · cases walked codec data with
      | emptyUnit h _ => exact absurd h hends
      | malformed herror => exact .inl herror
      | whole units keyframe hfit hdata hok => exact .inr ⟨units, keyframe, hfit, hdata, hok⟩

/-- An IDR, then a length of zero with nothing behind it. -/
theorem emptyLastUnit_panics : toAnnexB [0, 0, 0, 1, 0x65, 0, 0, 0, 0] .h264 = .error .panic :=
  toAnnexB_of_endsInEmptyUnit
    ⟨[[0x65]], ⟨by decide, fun first hfirst => by cases hfirst; rfl, trivial⟩, by decide⟩ .h264

end Castaway.AirPlay
