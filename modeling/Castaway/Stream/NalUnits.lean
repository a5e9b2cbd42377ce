import Castaway.Lib.Bytes

/-!
# H.264 between start codes and lengths

An encoder puts start codes between its NAL units, MP4 puts a length in front of
each.  `nalUnits` takes an access unit apart, `annexbToAvcc` repacks what
belongs in a sample, `annexb` turns a sample back for the live feed, and
`absorb` picks the parameter sets out.  `none` is an index out of range, which
`annexB_repacked` shows never to happen.

## Strategy

The scan passes over a unit without a start code and without three zeros that
does not end in a zero (`startCodes_skip`): no code can begin in it and end
behind it.
-/

namespace Castaway.Stream

open List

/-- The bytes from `start` up to `end_`, unless these are out of range. -/
def slice (data : Bytes) (start end_ : ℕ) : Option Bytes :=
  if start ≤ end_ ∧ end_ ≤ data.length then some ((data.take end_).drop start) else none

/-! ## NAL units -/

/-- Both spellings of the start code. -/
inductive StartCode where
  | short
  | long
  deriving DecidableEq

namespace StartCode

def bytes : StartCode → Bytes
  | short => [0, 0, 1]
  | long => [0, 0, 0, 1]

def width : StartCode → ℕ
  | short => 3
  | long => 4

theorem length_bytes (code : StartCode) : code.bytes.length = code.width := by
  cases code <;> rfl

theorem width_pos (code : StartCode) : 0 < code.width := by
  cases code <;> decide

end StartCode

/-- The start code at `i`, if there is one. -/
def codeAt (data : Bytes) (i : ℕ) : Option (Option StartCode) := do
  let b₀ ← data[i]?
  let b₁ ← data[i + 1]?
  let b₂ ← data[i + 2]?
  return if b₀ = 0 ∧ b₁ = 0 ∧ b₂ = 1 then some .short
    else if b₀ = 0 ∧ b₁ = 0 ∧ b₂ = 0 ∧ data[i + 3]? = some 1 then some .long
    else none

/-- Where the start codes from `i` on are, each with where its unit begins. -/
def startCodes (data : Bytes) (i : ℕ) : Option (List (ℕ × ℕ)) :=
  if i + 3 ≤ data.length then
    (codeAt data i).bind fun code =>
      match code with
      | some code =>
        (startCodes data (i + code.width)).map fun starts => (i, i + code.width) :: starts
      | none => startCodes data (i + 1)
  else some []
termination_by data.length - i
decreasing_by
  · have hwidth := code.width_pos
    omega
  · omega

/-- Each unit ends where the next start code is, and the last one with the data.
-/
def ends (data : Bytes) (starts : List (ℕ × ℕ)) : List ℕ :=
  (starts.drop 1).map Prod.fst ++ [data.length]

def unitSlices (data : Bytes) (starts : List (ℕ × ℕ)) : Option (List Bytes) :=
  (starts.zip (ends data starts)).mapM fun bounds => slice data bounds.1.2 bounds.2

/-- Split an Annex-B buffer into its NAL units. -/
def nalUnits (data : Bytes) : Option (List Bytes) := do
  let starts ← startCodes data 0
  let units ← unitSlices data starts
  return units.filter fun nal => !nal.isEmpty

inductive NalKind where
  | idrSlice
  | sps
  | pps
  | accessUnitDelimiter
  | other
  deriving DecidableEq

namespace NalKind

def of (nal : Bytes) : Option NalKind :=
  nal.head?.map fun head =>
    let type := head &&& 0x1F
    if type = 5 then .idrSlice
    else if type = 7 then .sps
    else if type = 8 then .pps
    else if type = 9 then .accessUnitDelimiter
    else .other

/-- Whether a unit belongs in a sample.  The parameter sets are in the init
segment, and a delimiter marks what the lengths mark. -/
def belongsInSample : NalKind → Bool
  | idrSlice | other => true
  | sps | pps | accessUnitDelimiter => false

end NalKind

def belongsInSample (nal : Bytes) : Bool := (NalKind.of nal).elim false NalKind.belongsInSample

/-! ## Repacking -/

/-- One coded picture, its units behind their lengths. -/
structure Sample where
  data : Bytes
  /-- In ticks. -/
  duration : UInt32
  keyframe : Bool
  deriving DecidableEq

/-- Parameter sets, without start codes or lengths. -/
structure AvcConfig where
  sps : List Bytes := []
  pps : List Bytes := []
  deriving DecidableEq

def lengthPrefixed (nal : Bytes) : Bytes := beBytes 4 nal.length ++ nal

/-- A unit behind its length, if 32 bits hold that. -/
def pushUnit (nal : Bytes) : Option Bytes :=
  if nal.length < 2 ^ 32 then some (lengthPrefixed nal) else none

/-- Repack one access unit, and drop what the container carries already.  The
inner `none` is an access unit of which nothing is left. -/
def annexbToAvcc (accessUnit : Bytes) : Option (Option Bytes) :=
  (nalUnits accessUnit).map fun units =>
    (((units.filter belongsInSample).mapM pushUnit).map List.flatten).filter fun out =>
      !out.isEmpty

def AvcConfig.found (units : List Bytes) : AvcConfig where
  sps := units.filter fun nal => NalKind.of nal = some .sps
  pps := units.filter fun nal => NalKind.of nal = some .pps

/-- Replace the parameter sets by those of an access unit, and say whether that
changed anything.  A partial set is none. -/
def AvcConfig.absorb (config : AvcConfig) (accessUnit : Bytes) : Option (AvcConfig × Bool) :=
  (nalUnits accessUnit).map fun units =>
    let found := AvcConfig.found units
    if found.sps.isEmpty || found.pps.isEmpty || found = config then (config, false)
    else (found, true)

def startCode : Bytes := StartCode.long.bytes

/-- The walk of `annexb`.  It stops at a length that cannot be. -/
def annexbUnits (rest : Bytes) : Option Bytes :=
  if 4 ≤ rest.length then
    let length := beNat (rest.take 4)
    let body := rest.drop 4
    if length = 0 ∨ body.length < length then some []
    else do
      let nal ← slice body 0 length
      -- the rest is `body` from `length` on, and the slice has checked that
      let out ← annexbUnits (body.drop length)
      return startCode ++ nal ++ out
  else some []
termination_by rest.length
decreasing_by
  simp only [length_drop]
  omega

def AvcConfig.parameterSets (config : AvcConfig) : Bytes :=
  (config.sps ++ config.pps).flatMap fun set => startCode ++ set

/-- A sample for the live feed, behind the parameter sets if it is a keyframe.
-/
def annexb (sample : Sample) (config : AvcConfig) : Option Bytes :=
  (annexbUnits sample.data).map fun out =>
    (if sample.keyframe then config.parameterSets else []) ++ out

/-! ## The scan -/

variable {data unit rest : Bytes} {i : ℕ} {code : StartCode}

/-- What is read at `i` is what the data goes on with there. -/
theorem codeAt_eq (hroom : i + 3 ≤ data.length) :
    codeAt data i = some (if StartCode.short.bytes <+: data.drop i then some .short
      else if StartCode.long.bytes <+: data.drop i then some .long else none) := by
  have hread (j : ℕ) : data[i + j]? = (data.drop i)[j]? := List.getElem?_drop.symm
  have hlength : 3 ≤ (data.drop i).length := by
    rw [length_drop]
    omega
  rw [codeAt, ← Nat.add_zero i, hread 0, Nat.add_zero, hread 1, hread 2, hread 3]
  generalize data.drop i = here at hlength
  match here, hlength with
  | b₀ :: b₁ :: b₂ :: rest, _ =>
    cases rest with
    | nil | cons b₃ rest => simp [StartCode.bytes, cons_prefix_cons, eq_comm]

theorem startCodes_code (h : code.bytes <+: data.drop i) :
    startCodes data i =
      (startCodes data (i + code.width)).map fun starts => (i, i + code.width) :: starts := by
  have hroom : i + code.width ≤ data.length := by
    have hlength := h.length_le
    rw [length_drop, code.length_bytes] at hlength
    have hwidth := code.width_pos
    omega
  have hthree : i + 3 ≤ data.length := by
    cases code <;> simp only [StartCode.width] at hroom <;> omega
  rw [startCodes, if_pos hthree, codeAt_eq hthree, Option.bind_some]
  cases code with
  | short => rw [if_pos h]
  | long =>
    have hshort : ¬ StartCode.short.bytes <+: data.drop i := by
      obtain ⟨rest, hrest⟩ := h
      rw [← hrest]
      simp [StartCode.bytes, cons_prefix_cons]
    rw [if_neg hshort, if_pos h]

theorem startCodes_step (h : ∀ code : StartCode, ¬ code.bytes <+: data.drop i) :
    startCodes data i = startCodes data (i + 1) := by
  by_cases hroom : i + 3 ≤ data.length
  · rw [startCodes, if_pos hroom, codeAt_eq hroom, if_neg (h .short), if_neg (h .long),
      Option.bind_some]
  · rw [startCodes, if_neg hroom, startCodes, if_neg (by omega)]

/-- No start code begins in these bytes, whatever follows them. -/
structure Passes (unit : Bytes) : Prop where
  noCode : ¬ [0, 0, 1] <:+: unit
  noZeros : ¬ [0, 0, 0] <:+: unit
  noTrailingZero : unit.getLast? ≠ some 0

theorem Passes.tail {b : UInt8} (h : Passes (b :: unit)) : Passes unit where
  noCode := fun hinner => h.noCode (hinner.trans (suffix_cons b unit).isInfix)
  noZeros := fun hinner => h.noZeros (hinner.trans (suffix_cons b unit).isInfix)
  noTrailingZero := by
    cases unit with
    | nil => simp
    | cons c unit =>
      have hlast := h.noTrailingZero
      rwa [getLast?_cons_cons] at hlast

theorem Passes.not_prefix {b : UInt8} (h : Passes (b :: unit)) (rest : Bytes)
    (code : StartCode) : ¬ code.bytes <+: b :: unit ++ rest := by
  -- a code has two zeros, and a unit ends in neither of them
  have hzeros (third : UInt8) (more : Bytes)
      (hbegins : 0 :: 0 :: third :: more <+: b :: (unit ++ rest)) :
      [0, 0, third] <:+: b :: unit := by
    obtain ⟨rfl, hsecond⟩ := cons_prefix_cons.mp hbegins
    cases unit with
    | nil => exact absurd rfl h.noTrailingZero
    | cons c unit =>
      rw [cons_append] at hsecond
      obtain ⟨rfl, hthird⟩ := cons_prefix_cons.mp hsecond
      cases unit with
      | nil => exact absurd rfl h.noTrailingZero
      | cons d unit =>
        rw [cons_append] at hthird
        obtain ⟨rfl, -⟩ := cons_prefix_cons.mp hthird
        exact (prefix_append [0, 0, third] unit).isInfix
  intro hbegins
  cases code with
  | short => exact h.noCode (hzeros 1 [] hbegins)
  | long => exact h.noZeros (hzeros 0 [1] hbegins)

theorem startCodes_skip (h : Passes unit) (hdrop : data.drop i = unit ++ rest) :
    startCodes data i = startCodes data (i + unit.length) := by
  induction unit generalizing i with
  | nil => rfl
  | cons b unit ih =>
    have hnone (code : StartCode) : ¬ code.bytes <+: data.drop i := by
      rw [hdrop]
      exact h.not_prefix rest code
    have hnext : data.drop (i + 1) = unit ++ rest := by
      rw [← drop_drop, hdrop]
      rfl
    rw [startCodes_step hnone, ih h.tail hnext, length_cons]
    congr 1
    omega

/-! ## Slices -/

theorem slice_of_drop (hroom : i ≤ data.length) (hdrop : data.drop i = unit ++ rest) :
    slice data i (i + unit.length) = some unit := by
  have hlength := congrArg List.length hdrop
  rw [length_drop, length_append] at hlength
  rw [slice, if_pos ⟨by omega, by omega⟩, drop_take, hdrop, Nat.add_sub_cancel_left,
    take_left]

def nextCode (data : Bytes) (starts : List (ℕ × ℕ)) : ℕ :=
  (starts.head?.map Prod.fst).getD data.length

theorem unitSlices_cons (start : ℕ × ℕ) (starts : List (ℕ × ℕ)) :
    unitSlices data (start :: starts) =
      (slice data start.2 (nextCode data starts)).bind fun nal =>
        (unitSlices data starts).map fun units => nal :: units := by
  have hzip : (start :: starts).zip (ends data (start :: starts)) =
      (start, nextCode data starts) :: starts.zip (ends data starts) := by
    cases starts <;> rfl
  rw [unitSlices, hzip, mapM_cons]
  change (slice data start.2 (nextCode data starts)).bind _ = _
  congr 1
  funext nal
  rw [← unitSlices]
  cases unitSlices data starts <;> rfl

theorem unitSlices_isSome (data : Bytes) (i : ℕ) :
    ∃ starts units, startCodes data i = some starts ∧ unitSlices data starts = some units ∧
      nextCode data starts ≤ data.length ∧ (i ≤ data.length → i ≤ nextCode data starts) := by
  induction hleft : data.length - i using Nat.strong_induction_on generalizing i with
  | _ left ih =>
    by_cases hroom : i + 3 ≤ data.length
    · by_cases hcode : ∃ code : StartCode, code.bytes <+: data.drop i
      · obtain ⟨code, hcode⟩ := hcode
        have hlength := hcode.length_le
        have hwidth := code.width_pos
        rw [length_drop, code.length_bytes] at hlength
        obtain ⟨starts, units, hstarts, hunits, hnext, hle⟩ :=
          ih _ (by omega) (i + code.width) rfl
        refine ⟨(i, i + code.width) :: starts,
          (data.take (nextCode data starts)).drop (i + code.width) :: units, ?_, ?_, ?_, ?_⟩
        · rw [startCodes_code hcode, hstarts, Option.map_some]
        · rw [unitSlices_cons, slice, if_pos ⟨hle (by omega), hnext⟩, Option.bind_some, hunits,
            Option.map_some]
        · exact Nat.le_of_lt (by omega : i < data.length)
        · exact fun _ => Nat.le_refl i
      · have hstep := startCodes_step fun code h => hcode ⟨code, h⟩
        obtain ⟨starts, units, hstarts, hunits, hnext, hle⟩ := ih _ (by omega) (i + 1) rfl
        exact ⟨starts, units, hstep.trans hstarts, hunits, hnext, fun _ => by
          have := hle (by omega)
          omega⟩
    · refine ⟨[], [], ?_, rfl, Nat.le_refl _, fun h => h⟩
      rw [startCodes, if_neg hroom]

theorem nalUnits_isSome (data : Bytes) : (nalUnits data).isSome := by
  obtain ⟨starts, units, hstarts, hunits, -⟩ := unitSlices_isSome data 0
  rw [nalUnits, hstarts]
  change ((unitSlices data starts).bind _).isSome
  rw [hunits]
  rfl

/-! ## Round trips -/

def joined (pieces : List (StartCode × Bytes)) : Bytes :=
  pieces.flatMap fun piece => piece.1.bytes ++ piece.2

/-- A unit whose end can be told. -/
structure Clean (unit : Bytes) : Prop extends Passes unit where
  nonempty : unit ≠ []

/-- The scan finds the start codes in front of the units, and no others. -/
theorem unitSlices_joined {pieces : List (StartCode × Bytes)}
    (hclean : ∀ piece ∈ pieces, Clean piece.2) (hroom : i ≤ data.length)
    (hdrop : data.drop i = joined pieces) : ∃ starts, startCodes data i = some starts ∧
      unitSlices data starts = some (pieces.map Prod.snd) ∧ nextCode data starts = i := by
  induction pieces generalizing i with
  | nil =>
    have hend : data.length ≤ i := drop_eq_nil_iff.mp hdrop
    refine ⟨[], ?_, rfl, ?_⟩
    · rw [startCodes, if_neg (by omega)]
    · exact Nat.le_antisymm hend hroom
  | cons piece pieces ih =>
    obtain ⟨code, unit⟩ := piece
    have hunit : Clean unit := hclean (code, unit) mem_cons_self
    have hjoined : data.drop i = code.bytes ++ (unit ++ joined pieces) := by
      rw [hdrop, joined, flatMap_cons, append_assoc]
      rfl
    have hbody : data.drop (i + code.width) = unit ++ joined pieces := by
      rw [← drop_drop, hjoined, ← code.length_bytes, drop_left]
    have hafter : data.drop (i + code.width + unit.length) = joined pieces := by
      rw [← drop_drop, hbody, drop_left]
    have hlength := congrArg List.length hjoined
    rw [length_drop, length_append, length_append, code.length_bytes] at hlength
    have hwidth := code.width_pos
    obtain ⟨starts, hstarts, hunits, hnext⟩ :=
      ih (fun piece hpiece => hclean piece (mem_cons_of_mem _ hpiece)) (by omega) hafter
    refine ⟨(i, i + code.width) :: starts, ?_, ?_, rfl⟩
    · rw [startCodes_code ⟨_, hjoined.symm⟩, startCodes_skip hunit.toPasses hbody, hstarts,
        Option.map_some]
    · rw [unitSlices_cons, hnext, slice_of_drop (by omega) hbody, hunits]
      rfl

/-- The units come back, whatever start codes are between them. -/
theorem nalUnits_joined {pieces : List (StartCode × Bytes)}
    (hclean : ∀ piece ∈ pieces, Clean piece.2) :
    nalUnits (joined pieces) = some (pieces.map Prod.snd) := by
  obtain ⟨starts, hstarts, hunits, -⟩ :=
    unitSlices_joined hclean (Nat.zero_le _) (drop_zero : (joined pieces).drop 0 = _)
  have hkept : (pieces.map Prod.snd).filter (fun nal => !nal.isEmpty) = pieces.map Prod.snd := by
    refine filter_eq_self.mpr fun nal hnal => ?_
    obtain ⟨piece, hpiece, rfl⟩ := mem_map.mp hnal
    simpa using (hclean piece hpiece).nonempty
  rw [nalUnits, hstarts]
  change (unitSlices (joined pieces) starts).bind _ = _
  rw [hunits]
  exact congrArg some hkept

theorem length_lengthPrefixed (nal : Bytes) : (lengthPrefixed nal).length = nal.length + 4 := by
  rw [lengthPrefixed, length_append, length_beBytes, Nat.add_comm]

theorem mapM_pushUnit (nals : List Bytes) :
    nals.mapM pushUnit =
      if ∃ nal ∈ nals, 2 ^ 32 ≤ nal.length then none else some (nals.map lengthPrefixed) := by
  induction nals with
  | nil => simp
  | cons nal nals ih =>
    rw [mapM_cons, ih, pushUnit]
    by_cases hfits : nal.length < 2 ^ 32
    · rw [if_pos hfits]
      by_cases hlarge : ∃ nal ∈ nals, 2 ^ 32 ≤ nal.length
      · rw [if_pos hlarge, if_pos (hlarge.imp fun _ h => ⟨mem_cons_of_mem _ h.1, h.2⟩)]
        rfl
      · have hnone : ¬ ∃ other ∈ nal :: nals, 2 ^ 32 ≤ other.length := by
          rintro ⟨other, hother, hlong⟩
          rcases mem_cons.mp hother with rfl | hother
          · omega
          · exact hlarge ⟨other, hother, hlong⟩
        rw [if_neg hlarge, if_neg hnone]
        rfl
    · have hlarge : ∃ other ∈ nal :: nals, 2 ^ 32 ≤ other.length :=
        ⟨nal, mem_cons_self, Nat.le_of_not_lt hfits⟩
      rw [if_neg hfits, if_pos hlarge]
      rfl

theorem annexbToAvcc_of_units {units : List Bytes} (hunits : nalUnits data = some units) :
    annexbToAvcc data =
      some (if units.filter belongsInSample = [] ∨
          ∃ nal ∈ units.filter belongsInSample, 2 ^ 32 ≤ nal.length then none
        else some ((units.filter belongsInSample).flatMap lengthPrefixed)) := by
  rw [annexbToAvcc, hunits, Option.map_some, mapM_pushUnit]
  generalize units.filter belongsInSample = kept
  by_cases hlarge : ∃ nal ∈ kept, 2 ^ 32 ≤ nal.length
  · rw [if_pos hlarge, if_pos (Or.inr hlarge)]
    rfl
  · rw [if_neg hlarge, Option.map_some, ← flatMap_def]
    cases kept with
    | nil => rfl
    | cons nal kept =>
      have hnonempty : ((nal :: kept).flatMap lengthPrefixed).isEmpty = false := by
        rw [isEmpty_eq_false_iff, flatMap_cons, Ne, append_eq_nil_iff]
        intro hnil
        have hlength := length_lengthPrefixed nal
        rw [hnil.1, length_nil] at hlength
        omega
      rw [if_neg (not_or_intro (cons_ne_nil _ _) hlarge), Option.filter_some, hnonempty]
      rfl

theorem annexbUnits_lengthPrefixed (hnonempty : unit ≠ []) (hfits : unit.length < 2 ^ 32) :
    annexbUnits (lengthPrefixed unit ++ rest) =
      (annexbUnits rest).map fun out => startCode ++ unit ++ out := by
  have hroom : 4 ≤ (lengthPrefixed unit ++ rest).length := by
    rw [length_append, length_lengthPrefixed]
    omega
  have hheader : (lengthPrefixed unit ++ rest).take 4 = beBytes 4 unit.length := by
    rw [lengthPrefixed, append_assoc]
    exact take_left' (length_beBytes 4 _)
  have hbody : (lengthPrefixed unit ++ rest).drop 4 = unit ++ rest := by
    rw [lengthPrefixed, append_assoc]
    exact drop_left' (length_beBytes 4 _)
  have hlength : beNat (beBytes 4 unit.length) = unit.length := beNat_beBytes hfits
  have hgoes : ¬ (unit.length = 0 ∨ (unit ++ rest).length < unit.length) := by
    rw [length_append]
    rintro (hzero | hshort)
    · exact hnonempty (length_eq_zero_iff.mp hzero)
    · omega
  have hslice : slice (unit ++ rest) 0 unit.length = some unit := by
    have := @slice_of_drop (unit ++ rest) unit rest 0 (Nat.zero_le _) rfl
    rwa [Nat.zero_add] at this
  rw [annexbUnits, if_pos hroom]
  simp only [hheader, hbody, hlength, if_neg hgoes, hslice, drop_left]
  cases annexbUnits rest <;> rfl

theorem annexbUnits_flatMap {nals : List Bytes}
    (hnals : ∀ nal ∈ nals, nal ≠ [] ∧ nal.length < 2 ^ 32) :
    annexbUnits (nals.flatMap lengthPrefixed) =
      some (joined (nals.map fun nal => (StartCode.long, nal))) := by
  induction nals with
  | nil =>
    rw [flatMap_nil, annexbUnits]
    rfl
  | cons nal nals ih =>
    obtain ⟨hnonempty, hfits⟩ := hnals nal mem_cons_self
    rw [flatMap_cons, annexbUnits_lengthPrefixed hnonempty hfits,
      ih fun nal hnal => hnals nal (mem_cons_of_mem _ hnal)]
    rfl

theorem annexbUnits_isSome (rest : Bytes) : (annexbUnits rest).isSome := by
  induction hlength : rest.length using Nat.strong_induction_on generalizing rest with
  | _ n ih =>
    unfold annexbUnits
    by_cases hroom : 4 ≤ rest.length
    · rw [if_pos hroom]
      dsimp only
      by_cases hstop : beNat (rest.take 4) = 0 ∨ (rest.drop 4).length < beNat (rest.take 4)
      · rw [if_pos hstop]
        rfl
      · rw [if_neg hstop, slice, if_pos ⟨Nat.zero_le _, by omega⟩]
        obtain ⟨out, hout⟩ := Option.isSome_iff_exists.mp
          (ih _ (by simp only [length_drop]; omega)
            ((rest.drop 4).drop (beNat (rest.take 4))) rfl)
        rw [hout]
        rfl
    · rw [if_neg hroom]
      rfl

theorem absorb_of_units {units : List Bytes} (hunits : nalUnits data = some units)
    (config : AvcConfig) :
    config.absorb data =
      some (if (AvcConfig.found units).sps ≠ [] ∧ (AvcConfig.found units).pps ≠ [] ∧
          AvcConfig.found units ≠ config then (AvcConfig.found units, true)
        else (config, false)) := by
  rw [AvcConfig.absorb, hunits, Option.map_some]
  generalize AvcConfig.found units = found
  by_cases hreplace : found.sps ≠ [] ∧ found.pps ≠ [] ∧ found ≠ config
  · obtain ⟨hsps, hpps, hdiffers⟩ := hreplace
    simp [hsps, hpps, hdiffers]
  · rw [if_neg hreplace]
    have hkept : (found.sps.isEmpty || found.pps.isEmpty || decide (found = config)) = true := by
      by_contra hnot
      simp only [Bool.not_eq_true, Bool.or_eq_false_iff, isEmpty_eq_false_iff,
        decide_eq_false_iff_not] at hnot
      exact hreplace ⟨hnot.1.1, hnot.1.2, hnot.2⟩
    simp [hkept]

/-- **Repacking loses nothing that a sample is to hold.**  Units behind start
codes of either spelling come back; the sample is the units that belong in one
behind their lengths, unless there is none or a length does not fit; the live
feed's bytes for that sample come apart into the same units; `absorb` goes by
whether both kinds of parameter sets are there and differ; and no input at all
makes an index leave its range. -/
theorem annexB_repacked {pieces : List (StartCode × Bytes)}
    (hclean : ∀ piece ∈ pieces, Clean piece.2) :
    (nalUnits (joined pieces) = some (pieces.map Prod.snd) ∧
      annexbToAvcc (joined pieces) =
        some (if (pieces.map Prod.snd).filter belongsInSample = [] ∨
            ∃ nal ∈ (pieces.map Prod.snd).filter belongsInSample, 2 ^ 32 ≤ nal.length then none
          else some (((pieces.map Prod.snd).filter belongsInSample).flatMap lengthPrefixed)) ∧
      (∀ sample : Sample, annexbToAvcc (joined pieces) = some (some sample.data) →
        ∀ config : AvcConfig, ∃ feed,
          annexb sample config =
            some ((if sample.keyframe then config.parameterSets else []) ++ feed) ∧
          nalUnits feed = some ((pieces.map Prod.snd).filter belongsInSample))) ∧
    ∀ data : Bytes, (annexbToAvcc data).isSome ∧
      (∀ sample config, (annexb sample config).isSome) ∧
      ∃ units, nalUnits data = some units ∧
        ∀ config : AvcConfig, ∃ after replaced, config.absorb data = some (after, replaced) ∧
          (replaced ↔ (AvcConfig.found units).sps ≠ [] ∧ (AvcConfig.found units).pps ≠ [] ∧
            AvcConfig.found units ≠ config) ∧
          after = if replaced then AvcConfig.found units else config := by
  have hunits := nalUnits_joined hclean
  have havcc := annexbToAvcc_of_units hunits
  refine ⟨⟨hunits, havcc, fun sample hsample config => ?_⟩, fun data => ?_⟩
  · have hkept : ∀ nal ∈ (pieces.map Prod.snd).filter belongsInSample, Clean nal := by
      intro nal hnal
      obtain ⟨piece, hpiece, rfl⟩ := mem_map.mp (mem_filter.mp hnal).1
      exact hclean piece hpiece
    generalize (pieces.map Prod.snd).filter belongsInSample = kept at havcc hkept
    rw [hsample] at havcc
    have hdata := Option.some.inj havcc
    by_cases hlost : kept = [] ∨ ∃ nal ∈ kept, 2 ^ 32 ≤ nal.length
    · rw [if_pos hlost] at hdata
      cases hdata
    · rw [if_neg hlost] at hdata
      have hwalk : annexbUnits sample.data =
          some (joined (kept.map fun nal => (StartCode.long, nal))) := by
        rw [Option.some.inj hdata]
        refine annexbUnits_flatMap fun nal hnal => ⟨(hkept nal hnal).nonempty, ?_⟩
        exact Nat.lt_of_not_le fun hlarge => hlost (.inr ⟨nal, hnal, hlarge⟩)
      refine ⟨_, by rw [annexb, hwalk, Option.map_some], ?_⟩
      rw [nalUnits_joined, map_map]
      · exact congrArg some (map_id kept)
      · intro piece hpiece
        obtain ⟨nal, hnal, rfl⟩ := mem_map.mp hpiece
        exact hkept nal hnal
  · obtain ⟨units, hunits⟩ := Option.isSome_iff_exists.mp (nalUnits_isSome data)
    refine ⟨?_, fun sample config => ?_, units, hunits, fun config => ?_⟩
    · rw [annexbToAvcc_of_units hunits]
      rfl
    · obtain ⟨out, hout⟩ := Option.isSome_iff_exists.mp (annexbUnits_isSome sample.data)
      rw [annexb, hout]
      rfl
    · rw [absorb_of_units hunits config]
      by_cases hreplace : (AvcConfig.found units).sps ≠ [] ∧ (AvcConfig.found units).pps ≠ [] ∧
          AvcConfig.found units ≠ config
      · rw [if_pos hreplace]
        exact ⟨_, _, rfl, iff_of_true rfl hreplace, rfl⟩
      · rw [if_neg hreplace]
        exact ⟨_, _, rfl, iff_of_false Bool.false_ne_true hreplace, rfl⟩

/-- A parameter set behind a long start code, and a slice behind a short one. -/
theorem annexB_repacked_keyframe :
    annexbToAvcc (joined [(.long, [0x67, 0x42]), (.short, [0x65, 0x88])]) =
      some (some [0, 0, 0, 2, 0x65, 0x88]) := by
  have hclean : ∀ piece ∈ [(StartCode.long, [0x67, 0x42]), (StartCode.short, [0x65, 0x88])],
      Clean piece.2 := by
    intro piece hpiece
    rcases mem_cons.mp hpiece with rfl | hpiece
    · exact ⟨⟨by decide, by decide, by decide⟩, by decide⟩
    · rw [mem_singleton.mp hpiece]
      exact ⟨⟨by decide, by decide, by decide⟩, by decide⟩
  rw [(annexB_repacked hclean).1.2.1]
  decide

theorem clean_replicate {n : ℕ} (hn : 0 < n) : Clean (List.replicate n 0x65) where
  noCode := fun h => absurd (eq_of_mem_replicate (h.subset mem_cons_self)) (by decide)
  noZeros := fun h => absurd (eq_of_mem_replicate (h.subset mem_cons_self)) (by decide)
  noTrailingZero := by
    rw [getLast?_replicate, if_neg (by omega)]
    decide
  nonempty := by
    rw [Ne, replicate_eq_nil_iff]
    omega

/-- A slice whose length 32 bits do not hold is not repacked. -/
theorem annexbToAvcc_of_large {n : ℕ} (hn : 2 ^ 32 ≤ n) :
    Clean (List.replicate n 0x65) ∧ belongsInSample (List.replicate n 0x65) ∧
      annexbToAvcc (joined [(.long, List.replicate n 0x65)]) = some none := by
  have hpos : 0 < n := Nat.lt_of_lt_of_le (by decide) hn
  have hclean := clean_replicate hpos
  have hbelongs : belongsInSample (List.replicate n 0x65) := by
    rw [belongsInSample, NalKind.of, head?_replicate, if_neg (by omega)]
    rfl
  have hunits := @nalUnits_joined [(.long, List.replicate n 0x65)] fun piece hpiece => by
    rw [mem_singleton.mp hpiece]
    exact hclean
  refine ⟨hclean, hbelongs, ?_⟩
  rw [annexbToAvcc_of_units hunits, if_pos]
  refine .inr ⟨List.replicate n 0x65, ?_, by rwa [length_replicate]⟩
  exact mem_filter.mpr ⟨mem_singleton_self _, hbelongs⟩

/-- A slice of 4 GiB is lost. -/
theorem fourGiB_not_repacked :
    Clean (List.replicate (2 ^ 32) 0x65) ∧ belongsInSample (List.replicate (2 ^ 32) 0x65) ∧
      annexbToAvcc (joined [(.long, List.replicate (2 ^ 32) 0x65)]) = some none :=
  annexbToAvcc_of_large le_rfl

end Castaway.Stream
