import Castaway.MirrorIn.Units

/-!
# Runs of the track assembler

A unit comes out in one piece where no packet closes it between its bytes
(`pieces_eq_piece_iff`).  Every byte that does not come out was pending when a
packet completed the next unit (`sizeOf_frames`), so the frames are those that
should come out only where nothing was lost and every unit is whole
(`frames_eq_iff`).
-/

namespace Castaway.MirrorIn

open Castaway.Core (EncodedFrame)
open List

section Units

open TrackAssembler

variable {depacketize : Bytes → Option Bytes} {codec : MirrorCodec} {packets : List Packet}
  {first last ticks : ℤ}

/-! ## Pieces of a unit -/

theorem unitBytes_append (xs ys : List Packet) :
    unitBytes depacketize (xs ++ ys) = unitBytes depacketize xs ++ unitBytes depacketize ys :=
  flatMap_append

@[simp] theorem unitBytes_nil : unitBytes depacketize [] = [] := rfl

@[simp] theorem unitBytes_cons (p : Packet) (unit : List Packet) :
    unitBytes depacketize (p :: unit) = p.bytes depacketize ++ unitBytes depacketize unit :=
  flatMap_cons

theorem flatten_piece (data : Bytes) : (piece data).flatten = data := by
  rw [piece]
  split
  · rename_i h
    rw [h]
    rfl
  · simp

theorem nil_notMem_piece (data : Bytes) : [] ∉ piece data := by
  rw [piece]
  split
  · simp
  · simpa [eq_comm] using ‹data ≠ []›

/-- All that a unit comes out as, if it is finished. -/
def pieces (depacketize : Bytes → Option Bytes) (codec : MirrorCodec) (pending : Bytes)
    (unit : List Packet) : List Bytes :=
  (scan depacketize codec pending unit).1 ++ piece (scan depacketize codec pending unit).2

theorem pieces_cons (pending : Bytes) (p : Packet) (unit : List Packet) :
    pieces depacketize codec pending (p :: unit) =
      if p.Closes depacketize codec then
        piece (pending ++ p.bytes depacketize) ++ pieces depacketize codec [] unit
      else pieces depacketize codec (pending ++ p.bytes depacketize) unit := by
  rw [pieces, scan]
  split
  · rw [pieces, append_assoc]
  · rw [pieces]

/-- The pieces of a unit and what is pending are its bytes. -/
theorem flatten_pieces (pending : Bytes) (unit : List Packet) :
    (pieces depacketize codec pending unit).flatten = pending ++ unitBytes depacketize unit := by
  induction unit generalizing pending with
  | nil => simp [pieces, scan, flatten_piece]
  | cons p unit ih =>
    rw [pieces_cons]
    split
    · rw [flatten_append, flatten_piece, ih, unitBytes_cons]
      simp
    · rw [ih, unitBytes_cons, append_assoc]

theorem nil_notMem_pieces (pending : Bytes) (unit : List Packet) :
    [] ∉ pieces depacketize codec pending unit := by
  induction unit generalizing pending with
  | nil => exact nil_notMem_piece pending
  | cons p unit ih =>
    rw [pieces_cons]
    split
    · exact fun h => (mem_append.mp h).elim (nil_notMem_piece _) (ih [])
    · exact ih _

theorem pieces_eq_nil_iff (pending : Bytes) (unit : List Packet) :
    pieces depacketize codec pending unit = [] ↔ pending ++ unitBytes depacketize unit = [] := by
  rw [← flatten_pieces, flatten_eq_nil_iff]
  constructor
  · intro h data hdata
    rw [h] at hdata
    cases hdata
  · intro h
    refine eq_nil_iff_forall_not_mem.mpr fun data hdata => ?_
    exact nil_notMem_pieces pending unit (h data hdata ▸ hdata)

/-- The bytes of a unit stay together where no packet closes it between them. -/
theorem pieces_eq_piece_iff (pending : Bytes) (unit : List Packet) :
    pieces depacketize codec pending unit = piece (pending ++ unitBytes depacketize unit) ↔
      ∀ before p after, unit = before ++ p :: after → p.Closes depacketize codec →
        pending ++ unitBytes depacketize (before ++ [p]) = [] ∨
          unitBytes depacketize after = [] := by
  induction unit generalizing pending with
  | nil => simp [pieces, scan]
  | cons q unit ih =>
    -- a packet that closes is the first of the unit, or one of the others
    have hsplit (P : List Packet → Packet → List Packet → Prop) :
        (∀ before p after, q :: unit = before ++ p :: after → P before p after) ↔
          P [] q unit ∧
            ∀ before p after, unit = before ++ p :: after → P (q :: before) p after := by
      constructor
      · intro h
        refine ⟨h [] q unit rfl, fun before p after heq => h (q :: before) p after ?_⟩
        rw [heq]
        rfl
      · rintro ⟨hfirst, hrest⟩ before p after heq
        cases before with
        | nil =>
          cases heq
          exact hfirst
        | cons r before =>
          cases heq
          exact hrest before p after rfl
    rw [hsplit, pieces_cons, unitBytes_cons]
    by_cases hcloses : q.Closes depacketize codec
    · rw [if_pos hcloses]
      by_cases hnil : pending ++ q.bytes depacketize = []
      · have hpending := (append_eq_nil_iff.mp hnil).1
        have hbytes := (append_eq_nil_iff.mp hnil).2
        have hih := ih []
        simp only [nil_append] at hih
        simp [hpending, hbytes, hih]
      · have hone : piece (pending ++ q.bytes depacketize) = [pending ++ q.bytes depacketize] :=
          if_neg hnil
        have hmore : piece (pending ++ (q.bytes depacketize ++ unitBytes depacketize unit)) =
            [pending ++ q.bytes depacketize ++ unitBytes depacketize unit] := by
          rw [← append_assoc]
          exact if_neg fun h => hnil (append_eq_nil_iff.mp h).1
        rw [hone, hmore]
        -- both say that the rest of the unit has no bytes
        constructor
        · intro h
          have hrest : unitBytes depacketize unit = [] := by
            have hhead := (cons.inj h).1
            simpa using hhead
          refine ⟨fun _ => Or.inr hrest, fun before p after heq _ => Or.inr ?_⟩
          rw [heq, unitBytes_append, unitBytes_cons] at hrest
          exact (append_eq_nil_iff.mp (append_eq_nil_iff.mp hrest).2).2
        · rintro ⟨hfirst, -⟩
          have hrest : unitBytes depacketize unit = [] := by
            refine (hfirst hcloses).resolve_left fun h => hnil ?_
            simpa using h
          rw [hrest, append_nil, (pieces_eq_nil_iff [] unit).mpr hrest, append_nil]
    · rw [if_neg hcloses, ← append_assoc, ih]
      simp [hcloses]

/-- One more packet ends a piece, or is pending. -/
theorem scan_concat (pending : Bytes) (unit : List Packet) (p : Packet) :
    scan depacketize codec pending (unit ++ [p]) =
      if p.Closes depacketize codec then
        ((scan depacketize codec pending unit).1 ++
          piece ((scan depacketize codec pending unit).2 ++ p.bytes depacketize), [])
      else ((scan depacketize codec pending unit).1,
        (scan depacketize codec pending unit).2 ++ p.bytes depacketize) := by
  induction unit generalizing pending with
  | nil => simp [scan]
  | cons q unit ih =>
    rw [cons_append, scan, scan]
    by_cases hq : q.Closes depacketize codec
    · simp only [if_pos hq, ih]
      split <;> simp
    · simp only [if_neg hq, ih]

/-- What stays open is what came since the last packet that closed. -/
theorem scan_snd (unit : List Packet) :
    (scan depacketize codec [] unit).2 = openBytes depacketize codec unit := by
  induction unit using List.reverseRecOn with
  | nil => simp [scan, openBytes]
  | append_singleton unit p ih =>
    rw [scan_concat, openBytes, rtakeWhile_concat]
    by_cases hp : p.Closes depacketize codec
    · simp [hp]
    · simp [hp, ih, openBytes, unitBytes_append]

/-! ## What is lost -/

/-- The number of bytes lost on the way through a list of units. -/
def lost (depacketize : Bytes → Option Bytes) (codec : MirrorCodec) :
    Bytes → List (List Packet) → ℕ
  | _, [] => 0
  | pending, [] :: units => lost depacketize codec pending units
  | pending, (p :: unit) :: units =>
    (if p.Closes depacketize codec ∧ p.bytes depacketize ≠ [] then pending.length else 0) +
      lost depacketize codec (openBytes depacketize codec (p :: unit)) units

/-- The next packet does not complete a unit while another is pending. -/
def Spares (depacketize : Bytes → Option Bytes) (codec : MirrorCodec) (pending : Bytes)
    (next : List Packet) : Prop :=
  pending ≠ [] → ∀ p ∈ next.head?, p.Closes depacketize codec → p.bytes depacketize = []

/-- Nothing is lost exactly if every unit spares what the one before left. -/
theorem lost_eq_zero_iff {units : List (List Packet)} (hunits : [] ∉ units) (pending : Bytes) :
    lost depacketize codec pending units = 0 ↔
      (∀ next ∈ units.head?, Spares depacketize codec pending next) ∧
        units.IsChain fun unit next =>
          Spares depacketize codec (openBytes depacketize codec unit) next := by
  induction units generalizing pending with
  | nil => simp [lost]
  | cons unit units ih =>
    cases unit with
    | nil => exact absurd mem_cons_self hunits
    | cons p unit =>
      rw [lost, Nat.add_eq_zero_iff, ih (fun h => hunits (mem_cons_of_mem _ h)),
        isChain_cons]
      refine and_congr ?_ Iff.rfl
      simp only [head?_cons, Option.mem_some_iff, forall_eq', Spares]
      by_cases hcloses : p.Closes depacketize codec
      · by_cases hnil : p.bytes depacketize = []
        · simp [hnil]
        · simp [hcloses, hnil]
      · simp [hcloses]

/-- How many bytes the frames carry. -/
def sizeOf (frames : List EncodedFrame) : ℕ := (frames.map (·.data.length)).sum

theorem sizeOf_append (xs ys : List EncodedFrame) : sizeOf (xs ++ ys) = sizeOf xs + sizeOf ys := by
  rw [sizeOf, map_append, sum_append, sizeOf, sizeOf]

theorem sizeOf_map_frameOf (ticks : ℤ) (data : List Bytes) :
    sizeOf (data.map (frameOf codec ticks)) = data.flatten.length := by
  rw [sizeOf, map_map, length_flatten]
  rfl

/-- Nothing but `lost` is missing from what comes out. -/
theorem sizeOf_frames {units : List (List Packet)} (pending : Bytes) (last : ℤ) :
    sizeOf (frames depacketize codec first pending last units) +
        lost depacketize codec pending units =
      pending.length + (unitBytes depacketize units.flatten).length := by
  induction units generalizing pending last with
  | nil => rw [frames, sizeOf_map_frameOf, flatten_piece]; simp [lost]
  | cons unit units ih =>
    cases unit with
    | nil => simpa [frames, lost] using ih pending last
    | cons p unit =>
      have hrest := ih (openBytes depacketize codec (p :: unit)) p.ticks
      have hunit := @flatten_pieces depacketize codec [] (p :: unit)
      have hlength := congrArg List.length hunit
      rw [pieces, flatten_append, flatten_piece, scan_snd, length_append,
        nil_append] at hlength
      rw [frames, lost, sizeOf_append, sizeOf_append, sizeOf_map_frameOf, scan_snd,
        flatten_cons, unitBytes_append, length_append]
      split
      · simp only [sizeOf, map_nil, sum_nil] at hrest ⊢
        omega
      · rw [sizeOf_map_frameOf, flatten_piece]
        omega

/-- Where nothing is lost, all pieces come out. -/
theorem frames_eq_of_lost {units : List (List Packet)} (pending : Bytes) (last : ℤ)
    (h : lost depacketize codec pending units = 0) :
    frames depacketize codec first pending last units =
      (piece pending).map (frameOf codec (last - first)) ++
        units.flatMap fun unit => (pieces depacketize codec [] unit).map
          (frameOf codec (unitTicks unit - first)) := by
  induction units generalizing pending last with
  | nil => simp [frames]
  | cons unit units ih =>
    cases unit with
    | nil =>
      rw [lost] at h
      rw [frames, ih pending last h]
      simp [pieces, scan]
    | cons p unit =>
      rw [lost, Nat.add_eq_zero_iff] at h
      rw [frames, scan_snd, ih _ _ h.2, flatMap_cons, pieces, scan_snd]
      split
      · rename_i hcrowded
        rw [if_pos hcrowded] at h
        rw [length_eq_zero_iff.mp h.1]
        simp
      · simp

/-- Two lists of lists that flatten to the same are the same, if the parts of
the one are never shorter. -/
theorem flatMap_eq_iff {γ δ : Type*} {F G : γ → List δ} {xs : List γ}
    (hle : ∀ x ∈ xs, (G x).length ≤ (F x).length) :
    xs.flatMap F = xs.flatMap G ↔ ∀ x ∈ xs, F x = G x := by
  refine ⟨fun h => ?_, fun h => flatMap_congr h⟩
  have hshort (ys : List γ) (hys : ∀ y ∈ ys, (G y).length ≤ (F y).length) :
      (ys.flatMap G).length ≤ (ys.flatMap F).length := by
    induction ys with
    | nil => simp
    | cons y ys ih =>
      have hy := hys y mem_cons_self
      have hrest := ih fun z hz => hys z (mem_cons_of_mem _ hz)
      simp only [flatMap_cons, length_append]
      omega
  induction xs with
  | nil => simp
  | cons x xs ih =>
    have hxs : ∀ y ∈ xs, (G y).length ≤ (F y).length := fun y hy =>
      hle y (mem_cons_of_mem _ hy)
    have hx := hle x mem_cons_self
    have hrest := hshort xs hxs
    have htotal := congrArg List.length h
    simp only [flatMap_cons, length_append] at h htotal
    obtain ⟨hhead, htail⟩ := append_inj h (by omega)
    intro y hy
    rcases mem_cons.mp hy with rfl | hy
    · exact hhead
    · exact ih hxs htail y hy

theorem toList_frameOfUnit (unit : List Packet) :
    (frameOfUnit depacketize codec first unit).toList =
      (piece (unitBytes depacketize unit)).map (frameOf codec (unitTicks unit - first)) := by
  rw [frameOfUnit, piece]
  split <;> rfl

theorem filterMap_frameOfUnit (units : List (List Packet)) :
    units.filterMap (frameOfUnit depacketize codec first) =
      units.flatMap fun unit => (piece (unitBytes depacketize unit)).map
        (frameOf codec (unitTicks unit - first)) := by
  rw [filterMap_eq_flatMap_toList]
  simp only [toList_frameOfUnit]

theorem sizeOf_filterMap (units : List (List Packet)) :
    sizeOf (units.filterMap (frameOfUnit depacketize codec first)) =
      (unitBytes depacketize units.flatten).length := by
  rw [filterMap_frameOfUnit]
  induction units with
  | nil => rfl
  | cons unit units ih =>
    rw [flatMap_cons, sizeOf_append, ih, sizeOf_map_frameOf, flatten_piece,
      flatten_cons, unitBytes_append, length_append]

/-- A list of units comes out as it should where nothing is lost and every unit
stays together. -/
theorem frames_eq_iff (units : List (List Packet)) (last : ℤ) :
    frames depacketize codec first [] last units =
        units.filterMap (frameOfUnit depacketize codec first) ↔
      lost depacketize codec [] units = 0 ∧
        ∀ unit ∈ units, pieces depacketize codec [] unit = piece (unitBytes depacketize unit) := by
  have hle (unit : List Packet) :
      (piece (unitBytes depacketize unit)).length ≤ (pieces depacketize codec [] unit).length := by
    by_cases hnil : unitBytes depacketize unit = []
    · simp [hnil]
    · have hpos : pieces depacketize codec [] unit ≠ [] := by
        rw [Ne, pieces_eq_nil_iff]
        exact hnil
      have hone : (piece (unitBytes depacketize unit)).length = 1 := by rw [piece, if_neg hnil]; rfl
      rw [hone]
      exact length_pos_iff.mpr hpos
  have hpieces (hlost : lost depacketize codec [] units = 0) :
      frames depacketize codec first [] last units =
          units.filterMap (frameOfUnit depacketize codec first) ↔
        ∀ unit ∈ units, pieces depacketize codec [] unit = piece (unitBytes depacketize unit) := by
    rw [frames_eq_of_lost [] last hlost, piece_nil, map_nil, nil_append,
      filterMap_frameOfUnit]
    refine (flatMap_eq_iff fun unit _ => by simpa using hle unit).trans ?_
    refine forall₂_congr fun unit _ => ?_
    exact List.map_inj_right fun x y h => congrArg EncodedFrame.data h
  constructor
  · intro h
    have hsize := @sizeOf_frames depacketize codec first units [] last
    rw [h, sizeOf_filterMap] at hsize
    have hlost : lost depacketize codec [] units = 0 := by
      simp only [length_nil] at hsize
      omega
    exact ⟨hlost, (hpieces hlost).mp h⟩
  · rintro ⟨hlost, hwhole⟩
    exact (hpieces hlost).mpr hwhole

/-! ## The units of a stream -/

theorem ticks_of_mem_units {unit : List Packet} (h : unit ∈ units packets) :
    ∀ p ∈ unit, ∀ q ∈ unit, p.ticks = q.ticks := by
  have hchain : unit.IsChain fun p q => p.ticks = q.ticks :=
    (isChain_of_mem_splitBy h).imp fun p q hpq => by simpa [sameUnit] using hpq
  have htrans : Trans (fun p q : Packet => p.ticks = q.ticks)
      (fun p q : Packet => p.ticks = q.ticks) (fun p q : Packet => p.ticks = q.ticks) := ⟨Eq.trans⟩
  cases unit with
  | nil => intro p hp; cases hp
  | cons r unit =>
    have hfirst (p : Packet) (hp : p ∈ r :: unit) : p.ticks = r.ticks := by
      rcases mem_cons.mp hp with rfl | hp
      · rfl
      · exact (hchain.rel_cons hp).symm
    intro p hp q hq
    rw [hfirst p hp, hfirst q hq]

theorem isChain_and {γ : Type*} {R S : γ → γ → Prop} {xs : List γ} (hR : xs.IsChain R)
    (hS : xs.IsChain S) : xs.IsChain fun x y => R x y ∧ S x y := by
  induction xs with
  | nil => exact isChain_nil
  | cons x xs ih =>
    rw [isChain_cons] at hR hS ⊢
    exact ⟨fun y hy => ⟨hR.1 y hy, hS.1 y hy⟩, ih hR.2 hS.2⟩

/-- In a steady stream the timestamps tell neighbours apart. -/
theorem units_media (hsteady : Steady depacketize packets) : Units (units (media packets)) := by
  have hnil : [] ∉ units (media packets) := nil_notMem_splitBy _ _
  refine ⟨hnil, fun unit hunit p hp => ?_, fun unit => ticks_of_mem_units, ?_⟩
  · have hmem : p ∈ media packets := by
      rw [← flatten_splitBy sameUnit (media packets)]
      exact mem_flatten_of_mem hunit hp
    simpa [media] using (mem_filter.mp hmem).2
  · have hnear := hsteady.media
    have hflatten : (units (media packets)).flatten = media packets := flatten_splitBy _ _
    rw [← hflatten, isChain_flatten hnil] at hnear
    have hdiffer := isChain_getLast_head_splitBy sameUnit (media packets)
    refine (isChain_and hnear.2 hdiffer).imp_of_mem_imp fun unit next hunit hnext h => ?_
    obtain ⟨hclose, hunit', hnext', hne⟩ := h
    intro p hp q hq heq
    have hlast : p.ticks = (unit.getLast hunit').ticks :=
      ticks_of_mem_units hunit p hp _ (getLast_mem hunit')
    have hfirst : q.ticks = (next.head hnext').ticks :=
      ticks_of_mem_units hnext q hq _ (head_mem hnext')
    have hnear' : |q.ticks - p.ticks| < 2 ^ 31 := by
      rw [hlast, hfirst]
      exact hclose _ (getLast?_eq_some_getLast hunit') _ (head?_eq_some_head hnext')
    have hsame : q.ticks = p.ticks := (ofInt_eq_iff hnear').mp heq.symm
    rw [hlast, hfirst] at hsame
    simp [sameUnit, hsame] at hne

theorem taken_media (packets : List Packet) :
    taken depacketize (media packets) = taken depacketize packets := by
  rw [taken, media, filter_filter]
  refine filter_congr fun p _ => ?_
  by_cases hpayload : p.payload = []
  · simp [Packet.chunk, hpayload]
  · simp [hpayload]

/-- Packets without a payload add nothing to a unit. -/
theorem unitBytes_media (unit : List Packet) :
    unitBytes depacketize (media unit) = unitBytes depacketize unit := by
  induction unit with
  | nil => rfl
  | cons p unit ih =>
    by_cases hpayload : p.payload = []
    · have hmedia : media (p :: unit) = media unit := by simp [media, hpayload]
      have hbytes : p.bytes depacketize = [] := by simp [Packet.bytes, Packet.chunk, hpayload]
      rw [hmedia, ih, unitBytes_cons, hbytes, nil_append]
    · have hmedia : media (p :: unit) = p :: media unit := by simp [media, hpayload]
      rw [hmedia, unitBytes_cons, unitBytes_cons, ih]

/-- Where the packets of one timestamp are contiguous, those without a payload
do not cut a unit in two. -/
theorem units_media_eq (h : Contiguous packets) :
    units (media packets) = ((units packets).map media).filter (· ≠ []) := by
  rw [units, splitBy_eq_iff]
  have hmem {unit : List Packet} (hunit : unit ∈ ((units packets).map media).filter (· ≠ [])) :
      unit ≠ [] ∧ ∃ whole ∈ units packets, media whole = unit := by
    rw [mem_filter, mem_map] at hunit
    exact ⟨by simpa using hunit.2, hunit.1⟩
  refine ⟨?_, fun hnil => (hmem hnil).1 rfl, fun unit hunit => ?_, ?_⟩
  · have hflatten : media packets = ((units packets).map media).flatten := by
      conv_lhs => rw [← flatten_splitBy sameUnit packets]
      rw [media, filter_flatten]
      rfl
    rw [hflatten, flatten_filter_ne_nil]
  · obtain ⟨-, whole, hwhole, rfl⟩ := hmem hunit
    refine List.Pairwise.isChain (pairwise_of_forall_mem_list fun p hp q hq => ?_)
    have hsame := ticks_of_mem_units hwhole p (mem_of_mem_filter hp) q
      (mem_of_mem_filter hq)
    simpa [sameUnit] using hsame
  · have hpairwise : ((units packets).map media).Pairwise fun earlier later =>
        ∀ p ∈ earlier, ∀ q ∈ later, p.ticks ≠ q.ticks := by
      rw [pairwise_map]
      refine h.imp fun hne p hp q hq => ?_
      exact hne p (mem_of_mem_filter hp) q (mem_of_mem_filter hq)
    refine ((hpairwise.filter _).isChain).imp_of_mem_imp fun unit next hunit hnext hne => ?_
    have hunit' := (hmem hunit).1
    have hnext' := (hmem hnext).1
    refine ⟨hunit', hnext', ?_⟩
    have hticks := hne _ (getLast_mem hunit') _ (head_mem hnext')
    simpa [sameUnit] using hticks

/-- The frames that should come out are those of the packets that have a
payload. -/
theorem filterMap_units_media (h : Contiguous packets) :
    (units (media packets)).filterMap (frameOfUnit depacketize codec first) =
      (units packets).filterMap (frameOfUnit depacketize codec first) := by
  rw [units_media_eq h, filterMap_filter, filterMap_map]
  refine filterMap_congr fun unit hunit => ?_
  simp only [Function.comp_apply]
  by_cases hnil : media unit = []
  · have hbytes : unitBytes depacketize unit = [] := by rw [← unitBytes_media, hnil]; rfl
    simp [hnil, frameOfUnit, hbytes]
  · obtain ⟨p, rest, hp⟩ := exists_cons_of_ne_nil hnil
    have hmedia : p ∈ media unit := hp ▸ mem_cons_self
    have hmem : p ∈ unit := mem_of_mem_filter hmedia
    obtain ⟨q, rest', rfl⟩ := exists_cons_of_ne_nil (ne_nil_of_mem hmem)
    have hticks : unitTicks (media (q :: rest')) = unitTicks (q :: rest') := by
      rw [hp, unitTicks_cons, unitTicks_cons]
      exact ticks_of_mem_units hunit p hmem q mem_cons_self
    rw [if_pos (by simpa using hnil), frameOfUnit, frameOfUnit, unitBytes_media, hticks]

section Audio

variable (haudio : codec.isVideo = false)
include haudio

theorem closes_of_audio (p : Packet) :
    p.Closes depacketize codec ↔ (p.chunk depacketize).isSome := by
  simp [Packet.Closes, haudio]

theorem bytes_of_not_closes {p : Packet} (h : ¬ p.Closes depacketize codec) :
    p.bytes depacketize = [] := by
  rw [closes_of_audio haudio, Option.not_isSome_iff_eq_none] at h
  rw [Packet.bytes, h]
  rfl

theorem openBytes_of_audio (unit : List Packet) : openBytes depacketize codec unit = [] := by
  rw [openBytes, unitBytes, flatMap_eq_nil_iff]
  intro p hp
  have hopen := mem_rtakeWhile_imp hp
  exact bytes_of_not_closes haudio (by simpa using hopen)

theorem pieces_of_audio (unit : List Packet) :
    pieces depacketize codec [] unit = unit.flatMap fun p => piece (p.bytes depacketize) := by
  induction unit with
  | nil => rfl
  | cons p unit ih =>
    rw [pieces_cons, flatMap_cons]
    split
    · rw [ih, nil_append]
    · rename_i hcloses
      rw [bytes_of_not_closes haudio hcloses, nil_append, ih, piece_nil, nil_append]

/-- Audio is one frame to a packet. -/
theorem frames_of_audio {units : List (List Packet)} (hunits : Units units) (last : ℤ) :
    frames depacketize codec first [] last units =
      units.flatten.filterMap fun p => frameOfUnit depacketize codec first [p] := by
  have hlost : lost depacketize codec [] units = 0 := by
    rw [lost_eq_zero_iff hunits.nonempty]
    refine ⟨fun next _ h => absurd rfl h, ?_⟩
    refine List.Pairwise.isChain (pairwise_of_forall fun unit next h => ?_)
    exact absurd (openBytes_of_audio haudio unit) h
  rw [frames_eq_of_lost [] last hlost, piece_nil, map_nil, nil_append,
    filterMap_eq_flatMap_toList, flatten_eq_flatMap, flatMap_assoc]
  refine flatMap_congr fun unit hunit => ?_
  rw [pieces_of_audio haudio, map_flatMap]
  refine flatMap_congr fun p hp => ?_
  cases unit with
  | nil => cases hp
  | cons q unit =>
    have hticks := hunits.ticks _ hunit q mem_cons_self p hp
    rw [toList_frameOfUnit, unitTicks_cons, unitTicks_cons, hticks, unitBytes_cons, unitBytes_nil,
      append_nil]

end Audio

/-- A unit is whole when it comes in one piece. -/
theorem whole_iff (packets : List Packet) : Whole depacketize codec packets ↔
    ∀ unit ∈ units (media packets),
      pieces depacketize codec [] unit = piece (unitBytes depacketize unit) := by
  refine forall₂_congr fun unit _ => ?_
  have h := @pieces_eq_piece_iff depacketize codec [] unit
  simp only [nil_append] at h
  exact h.symm

/-- Units are apart when nothing is lost between them. -/
theorem apart_iff (packets : List Packet) : Apart depacketize codec packets ↔
    lost depacketize codec [] (units (media packets)) = 0 := by
  have hnil : [] ∉ units (media packets) := nil_notMem_splitBy _ _
  rw [lost_eq_zero_iff hnil]
  exact ⟨fun h => ⟨fun next _ hne => absurd rfl hne, h⟩, And.right⟩

end Units

/-- The units of a stream come out whole, once and on one clock where the clock
stays in its range and, for video, a packet neither closes a unit that goes on
nor completes two. -/
theorem assembled_iff (depacketize : Bytes → Option Bytes) (codec : MirrorCodec)
    {packets : List Packet} (hcontiguous : Contiguous packets)
    (hsteady : Steady depacketize packets) :
    emitted depacketize (.new codec) packets = some (expected depacketize codec packets) ↔
      InRange depacketize packets ∧ (codec.isVideo = true →
        Apart depacketize codec packets ∧ Whole depacketize codec packets) := by
  have hunits := units_media hsteady
  have hflatten : (units (media packets)).flatten = media packets := flatten_splitBy _ _
  rw [← emitted_media, expected]
  cases htaken : taken depacketize packets with
  | nil =>
    -- nothing is taken, and nothing comes out
    rw [emitted_new_of_nil (by rw [taken_media, htaken])]
    have hnever (p : Packet) (hp : p ∈ media packets) : p.chunk depacketize = none := by
      rw [← taken_media, taken, filter_eq_nil_iff] at htaken
      exact Option.not_isSome_iff_eq_none.mp (htaken p hp)
    have hopen (unit : List Packet) (hunit : unit ∈ units (media packets)) (p : Packet)
        (hp : p ∈ unit) : ¬ p.Closes depacketize codec := by
      rw [Packet.Closes, hnever p (hflatten ▸ mem_flatten_of_mem hunit hp)]
      simp
    refine iff_of_true rfl ⟨fun first hfirst => ?_, fun _ => ⟨?_, ?_⟩⟩
    · rw [htaken] at hfirst
      cases hfirst
    · refine hunits.apart.imp_of_mem_imp fun unit next _ hnext _ _ p hp hcloses => ?_
      exact absurd hcloses (hopen next hnext p (mem_of_mem_head? hp))
    · intro unit hunit before p after heq hcloses
      exact absurd hcloses (hopen unit hunit p (heq ▸ by simp))
  | cons first rest =>
    have hmedia : taken depacketize (media packets) = first :: rest := by rw [taken_media, htaken]
    have hself : InI64 (first.ticks - first.ticks) := by rw [Int.sub_self]; decide
    have hnear : (first.ticks :: (taken depacketize (media packets)).map (·.ticks)).IsChain
        fun m n => |n - m| < 2 ^ 31 := by
      have hchain := hsteady.taken
      rw [htaken] at hchain
      rw [hmedia, map_cons, isChain_cons_cons, ← map_cons, isChain_map]
      exact ⟨by simp, hchain⟩
    have hrange : InRange depacketize packets ↔
        ∀ p ∈ taken depacketize (media packets), InI64 (p.ticks - first.ticks) := by
      simp [InRange, htaken, hmedia]
    rw [emitted_new_of_taken hmedia]
    by_cases hin : InRange depacketize packets
    · have hframes := @emitted_units depacketize codec first.ticks first.ticks _ hunits [] none
        (fun h => absurd rfl h) (fun h => absurd rfl h) hself
        (by rw [hflatten]; exact hrange.mp hin) (by rw [hflatten]; exact hnear)
      rw [hflatten] at hframes
      rw [hframes, Option.some_inj, and_iff_right hin]
      by_cases hvideo : codec.isVideo = true
      · simp only [hvideo, if_true, forall_const]
        rw [← filterMap_units_media hcontiguous, frames_eq_iff, apart_iff, whole_iff]
      · have haudio : codec.isVideo = false := by simpa using hvideo
        rw [frames_of_audio haudio hunits, hflatten]
        simp only [haudio, Bool.false_eq_true, if_false, false_imp_iff, iff_true]
        rw [media, filterMap_filter]
        refine filterMap_congr fun p _ => ?_
        by_cases hpayload : p.payload = []
        · simp [hpayload, frameOfUnit, Packet.bytes, Packet.chunk]
        · simp [hpayload]
    · refine iff_of_false (fun h => hin ?_) (fun h => hin h.1)
      rw [hrange]
      exact inI64_of_emitted hself hnear h

/-- Three pictures, each closed by its marker, across a wrap of the timestamp.
-/
theorem assembled_wrap :
    let packets : List Packet := [⟨2 ^ 32 - 6000, false, [1]⟩, ⟨2 ^ 32 - 6000, true, [2]⟩,
      ⟨2 ^ 32 - 3000, true, [3]⟩, ⟨2 ^ 32, false, [4]⟩, ⟨2 ^ 32, true, [5]⟩]
    emitted some (.new .h264) packets = some (expected some .h264 packets) ↔
      InRange some packets ∧ (MirrorCodec.h264.isVideo = true →
        Apart some .h264 packets ∧ Whole some .h264 packets) :=
  assembled_iff some .h264 (by unfold Contiguous; decide) ⟨by decide, by decide⟩

/-- The first picture has lost its marker and is lost itself, to the marker of
the second. -/
theorem unmarked_picture_lost :
    ¬ ∀ (depacketize : Bytes → Option Bytes) (codec : MirrorCodec) (packets : List Packet),
      Contiguous packets → (packets.IsChain fun p q => |q.ticks - p.ticks| < 2 ^ 31) →
        emitted depacketize (.new codec) packets = some (expected depacketize codec packets) := by
  intro h
  have hlost := h some .h264 [⟨0, false, [1]⟩, ⟨3000, true, [2]⟩] (by unfold Contiguous; decide)
    (by decide)
  revert hlost
  decide

end Castaway.MirrorIn
