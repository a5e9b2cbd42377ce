import Castaway.Cast.Window
import Mathlib.Data.List.Induction
import Mathlib.Data.List.Sort

/-!
# Cast feedback asks for exactly what is missing

The other end of `rtcp.rs`: `decodeFeedback` reads a compound packet by the
layout Cast prescribes, walking the packets by their lengths, and lists the
packets asked for and the frames acknowledged.  `decode_build` says what it
reads from a packet that `build` wrote: a prefix of the NACKs and a prefix of
the ACKs, with the rest counted as dropped.

## Strategy

`nacks_feedback` and `acks_feedback` say what a receiver's lists are: for each
frame between the checkpoint and the horizon, an acknowledgement, a request for
all of it, or a request for each packet not held.
-/

namespace Castaway.Cast

open List

/-! ## Reading a feedback packet -/

/-- What a sender reads from a feedback packet. -/
structure DecodedFeedback where
  checkpoint : ℤ
  nacks : List PacketNack
  acks : List ℤ
  deriving DecidableEq

/-- The first frame id past `checkpoint` with the given low eight bits. -/
def expandPast (checkpoint : ℤ) (truncated : UInt8) : ℤ :=
  checkpoint + 1 + (truncated.toNat - (checkpoint + 1)) % 256

/-- The packets one loss field names: all of the frame, or the first packet and
those of the eight after it whose bits are set. -/
def lossesNamed (frameId : ℤ) (first : ℕ) (bitVector : UInt8) : List PacketNack :=
  if first = allPacketsLost then [⟨frameId, .allPackets⟩]
  else
    (first :: (setBits [bitVector]).map (first + 1 + ·)).filterMap fun id =>
      (PacketId.new id).map fun id => ⟨frameId, .packet id⟩

/-- Read `count` loss fields. -/
def decodeLossFields (checkpoint : ℤ) : ℕ → Bytes → Option (List PacketNack × Bytes)
  | 0, rest => some ([], rest)
  | count + 1, frame :: p₀ :: p₁ :: bitVector :: rest =>
    (decodeLossFields checkpoint count rest).map fun later =>
      (lossesNamed (expandPast checkpoint frame) (beNat [p₀, p₁]) bitVector ++ later.1, later.2)
  | _ + 1, _ => none

/-- Read the frame-ACK extension, if there is one.  Bit 0 is the checkpoint plus
two. -/
def decodeAckFields (checkpoint : ℤ) (rest : Bytes) : List ℤ :=
  if rest.take 4 = Rtcp.cst2Identifier then
    match rest.drop 4 with
    | _ :: octets :: rest =>
      (setBits (rest.take octets.toNat)).map fun bit : ℕ => checkpoint + 2 + bit
    | _ => []
  else []

/-- Read the body of a feedback message, the checkpoint relative to `reference`.
-/
def decodeBody (reference : ℤ) (body : Bytes) : Option DecodedFeedback :=
  if (body.drop 8).take 4 = Rtcp.castIdentifier then
    match body.drop 12 with
    | checkpoint :: lossCount :: _ :: _ :: rest =>
      let checkpoint := FrameId.expand reference checkpoint
      (decodeLossFields checkpoint lossCount.toNat rest).map fun losses =>
        ⟨checkpoint, losses.1, decodeAckFields checkpoint losses.2⟩
    | _ => none
  else none

def findFeedback (datagram : Bytes) : Option Bytes :=
  match datagram with
  | b₀ :: packetType :: l₀ :: l₁ :: rest =>
    if b₀ >>> 5 ≠ 0b100 then none
    else
      let size := beNat [l₀, l₁] * 4
      if packetType = Rtcp.ptPayloadSpecific ∧ b₀ &&& 0b00011111 = Rtcp.subtypeFeedback then
        if rest.length < size then none else some (rest.take size)
      else findFeedback (rest.drop size)
  | _ => none
termination_by datagram.length
decreasing_by
  simp only [length_drop, length_cons]
  omega

def decodeFeedback (reference : ℤ) (datagram : Bytes) : Option DecodedFeedback :=
  (findFeedback datagram).bind (decodeBody reference)

/-! ## Loss fields -/

/-- NACKs in the order the receiver lists them: by frame, then by packet, with a
request for all of a frame standing alone. -/
def NackOrder (before after : PacketNack) : Prop :=
  before.frameId < after.frameId ∨
    before.frameId = after.frameId ∧ ∃ i j, before.target = .packet i ∧ after.target = .packet j ∧
      i.get < j.get

theorem expandPast_lower8Bits {checkpoint frameId : ℤ} (hlow : checkpoint < frameId)
    (hhigh : frameId ≤ checkpoint + 256) :
    expandPast checkpoint (FrameId.lower8Bits frameId) = frameId := by
  rw [expandPast, FrameId.toNat_lower8Bits, Int.emod_sub_emod,
    Int.emod_eq_of_lt (by omega) (by omega)]
  omega

theorem markBit_single {bitVector : UInt8} {k : ℕ} (hk : k < 8) :
    markBit [bitVector] k = [bitVector ||| 1 <<< UInt8.ofNat k] := by
  have hzero : k / 8 = 0 := by omega
  rw [markBit, hzero, Nat.mod_eq_of_lt hk]
  rfl

/-- **What folding takes**: a prefix of the NACKs, all of the frame, and the bit
vector names them after those it named before. -/
theorem foldLosses_spec (frameId : ℤ) (first : ℕ) {nacks : List PacketNack} (bitVector : UInt8)
    (horder : nacks.Pairwise NackOrder)
    (hbelow : ∀ nack ∈ nacks, nack.frameId = frameId → ∀ id, nack.target = .packet id →
      ∀ bit ∈ setBits [bitVector], first + 1 + bit < id.get) :
    ∃ folded : List PacketId,
      nacks = folded.map (fun id => ⟨frameId, .packet id⟩) ++
        (Rtcp.foldLosses frameId first nacks bitVector).2 ∧
      (setBits [(Rtcp.foldLosses frameId first nacks bitVector).1]).map (first + 1 + ·) =
        (setBits [bitVector]).map (first + 1 + ·) ++ folded.map PacketId.get := by
  induction nacks generalizing bitVector with
  | nil => exact ⟨[], by simp [Rtcp.foldLosses], by simp [Rtcp.foldLosses]⟩
  | cons nack rest ih =>
    obtain ⟨hhead, hrest⟩ := pairwise_cons.mp horder
    rw [Rtcp.foldLosses]
    split
    · rename_i id htarget
      split
      · rename_i hfits
        obtain ⟨hframe, hpast, hnear⟩ := hfits
        have hk : id.get - first - 1 < 8 := by omega
        have habove : ∀ bit ∈ setBits [bitVector], bit < id.get - first - 1 := by
          intro bit hbit
          have := hbelow nack (mem_cons_self ..) hframe id htarget bit hbit
          omega
        have hmark : setBits [bitVector ||| 1 <<< UInt8.ofNat (id.get - first - 1)] =
            setBits [bitVector] ++ [id.get - first - 1] := by
          rw [← markBit_single hk]
          exact setBits_markBit (by simpa using hk) habove
        obtain ⟨folded, hnacks, hbits⟩ := ih
          (bitVector ||| 1 <<< UInt8.ofNat (id.get - first - 1)) hrest (by
            intro later hlater hsame other hother bit hbit
            rw [hmark] at hbit
            rcases mem_append.mp hbit with hold | hnew
            · exact hbelow later (mem_cons_of_mem _ hlater) hsame other hother bit hold
            · rw [mem_singleton.mp hnew]
              rcases hhead later hlater with hlt | ⟨-, i, j, hi, hj, hij⟩
              · omega
              · rw [htarget] at hi
                rw [hother] at hj
                cases hi
                cases hj
                omega)
        refine ⟨id :: folded, ?_, ?_⟩
        · rw [map_cons, cons_append, ← hnacks]
          congr 1
          rw [← hframe, ← htarget]
        · rw [hbits, hmark, map_append, append_assoc, map_cons, map_cons]
          congr 2
          simp only [map_nil, cons_append, nil_append]
          congr 1
          omega
      · exact ⟨[], rfl, by simp⟩
    · exact ⟨[], rfl, by simp⟩

/-- Packet ids in a list come through their numbers. -/
theorem filterMap_new_get (frameId : ℤ) (ids : List PacketId) :
    (ids.map PacketId.get).filterMap (fun id =>
      (PacketId.new id).map fun id => (⟨frameId, .packet id⟩ : PacketNack)) =
      ids.map fun id => ⟨frameId, .packet id⟩ := by
  rw [filterMap_map]
  have hsome : ((fun id => (PacketId.new id).map fun id => (⟨frameId, .packet id⟩ : PacketNack)) ∘
      PacketId.get) = some ∘ fun id => ⟨frameId, .packet id⟩ := by
    funext id
    simp
  rw [hsome, filterMap_eq_map]

/-- One loss field names the NACK it starts with and those folded into it. -/
theorem lossesNamed_fold {nack : PacketNack} {rest : List PacketNack}
    (horder : (nack :: rest).Pairwise NackOrder) : ∃ folded, rest = folded ++
        (Rtcp.foldLosses nack.frameId nack.target.wireValue rest 0).2 ∧
      lossesNamed nack.frameId nack.target.wireValue
        (Rtcp.foldLosses nack.frameId nack.target.wireValue rest 0).1 = nack :: folded := by
  obtain ⟨hhead, hrest⟩ := pairwise_cons.mp horder
  have hempty : setBits [(0 : UInt8)] = [] := by decide
  obtain ⟨folded, hnacks, hbits⟩ := foldLosses_spec nack.frameId nack.target.wireValue 0 hrest
    (by simp [hempty])
  obtain ⟨frameId, target⟩ := nack
  cases target with
  | allPackets =>
    -- Nothing else of the frame may follow, so nothing is folded.
    have hnone : folded = [] := by
      cases folded with
      | nil => rfl
      | cons id folded =>
        have hmem : (⟨frameId, .packet id⟩ : PacketNack) ∈ rest := by
          rw [hnacks]
          simp
        rcases hhead _ hmem with hlt | ⟨-, i, j, hi, -⟩
        · exact absurd hlt (lt_irrefl _)
        · cases hi
    subst hnone
    exact ⟨[], by simpa using hnacks, by simp [lossesNamed, NackTarget.wireValue]⟩
  | packet id =>
    refine ⟨_, hnacks, ?_⟩
    rw [hempty, map_nil, nil_append] at hbits
    have hne : (NackTarget.packet id).wireValue ≠ allPacketsLost := by
      have := id.valid
      simp only [NackTarget.wireValue]
      omega
    dsimp only at hbits ⊢
    rw [lossesNamed, if_neg hne, hbits]
    change ((id :: folded).map PacketId.get).filterMap _ = _
    rw [filterMap_new_get]
    rfl

/-- **The loss fields decode to a prefix of the NACKs**; the rest are left over.
-/
theorem decodeLossFields_lossFields {checkpoint : ℤ} {maxSize held written : ℕ}
    {nacks : List PacketNack} (horder : nacks.Pairwise NackOrder)
    (hnear : ∀ nack ∈ nacks, checkpoint < nack.frameId ∧ nack.frameId ≤ checkpoint + 256)
    (hwritten : written ≤ Rtcp.maxLossFields) (tail : Bytes) :
    ∃ taken count, nacks = taken ++ (Rtcp.lossFields maxSize held written nacks).2.2 ∧
      (Rtcp.lossFields maxSize held written nacks).2.1 = written + count ∧
      written + count ≤ Rtcp.maxLossFields ∧
      (Rtcp.lossFields maxSize held written nacks).1.length = 4 * count ∧
      decodeLossFields checkpoint count
        ((Rtcp.lossFields maxSize held written nacks).1 ++ tail) = some (taken, tail) := by
  induction held, written, nacks using Rtcp.lossFields.induct maxSize with
  | case1 held written => exact ⟨[], 0, by simp [Rtcp.lossFields, decodeLossFields, hwritten]⟩
  | case2 held written nack rest hfull =>
    refine ⟨[], 0, ?_⟩
    rw [Rtcp.lossFields, if_pos hfull]
    simp [decodeLossFields, hwritten]
  | case3 held written nack rest hroom first folded ih =>
    obtain ⟨named, hrest, hnamed⟩ := lossesNamed_fold horder
    have htail : ∀ later ∈ folded.2, later ∈ rest := by
      intro later hlater
      rw [hrest]
      exact mem_append_right _ hlater
    have hsorted : folded.2.Pairwise NackOrder := by
      have := (pairwise_cons.mp horder).2
      rw [hrest] at this
      exact (pairwise_append.mp this).2.1
    have hlt : written < Rtcp.maxLossFields :=
      lt_of_le_of_ne hwritten fun heq => hroom (Or.inl heq)
    obtain ⟨taken, count, htaken, hcount, hbound, hlength, hdecode⟩ := ih hsorted
      (fun later hlater => hnear later (mem_cons_of_mem _ (htail later hlater))) hlt
    obtain ⟨hlow, hhigh⟩ := hnear nack (mem_cons_self ..)
    obtain ⟨p₀, p₁, hbytes, hvalue⟩ := exists_beBytes_two (n := nack.target.wireValue) (by
      cases nack.target with
      | allPackets => decide
      | packet id =>
        have := id.valid
        have hlost : allPacketsLost = 65535 := rfl
        simp only [NackTarget.wireValue]
        omega)
    rw [Rtcp.lossFields, if_neg hroom]
    dsimp only
    refine ⟨nack :: named ++ taken, count + 1, ?_, ?_, by omega, ?_, ?_⟩
    · rw [append_assoc, ← htaken, cons_append, ← hrest]
    · rw [hcount]
      omega
    · rw [length_append, hlength, Rtcp.lossField, hbytes]
      simp only [cons_append, nil_append, length_cons, length_nil]
      omega
    · rw [Rtcp.lossField, hbytes]
      simp only [cons_append, nil_append, decodeLossFields, hvalue,
        expandPast_lower8Bits hlow hhigh]
      rw [hdecode, Option.map_some, hnamed]
      rfl

/-! ## The ACK bit vector -/

section Acks

variable {firstFrame : ℤ} {available : ℕ}

/-- Once an ACK has been dropped for want of room, so are those after it. -/
theorem foldl_setAck_dropped {acks : List ℤ} {octets : Bytes} {dropped index : ℕ}
    (hshort : octets.length ≤ index / 8)
    (hfull : Rtcp.grownOctets (index / 8 + 1) > Rtcp.maxAckBitvectorOctets ∨
      Rtcp.grownOctets (index / 8 + 1) > available)
    (hlater : ∀ id ∈ acks, firstFrame + index ≤ id) :
    acks.foldl (Rtcp.setAck firstFrame available) (octets, dropped) =
      (octets, dropped + acks.length) := by
  induction acks generalizing dropped with
  | nil => rfl
  | cons id acks ih =>
    have hid := hlater id (mem_cons_self ..)
    have hindex : index ≤ (id - firstFrame).toNat := by omega
    have hgrown : Rtcp.grownOctets (index / 8 + 1) ≤
        Rtcp.grownOctets ((id - firstFrame).toNat / 8 + 1) := by
      simp only [Rtcp.grownOctets]
      have := Nat.div_le_div_right (c := 8) hindex
      omega
    have hstep : Rtcp.setAck firstFrame available (octets, dropped) id =
        (octets, dropped + 1) := by
      have := Nat.div_le_div_right (c := 8) hindex
      rw [Rtcp.setAck]
      dsimp only
      rw [if_neg (by omega), if_pos (by omega), if_pos (by omega)]
    rw [foldl_cons, hstep, ih fun later hmem => hlater later (mem_cons_of_mem _ hmem),
      length_cons]
    congr 1
    omega

/-- What folding `acks` into the bit vector `octets` leaves: a prefix of them is
in the vector and the rest are counted, and the vector has a legal size. -/
structure AcksSet (firstFrame : ℤ) (octets : Bytes) (dropped : ℕ) (acks : List ℤ)
    (result : Bytes × ℕ) : Prop where
  split : ∃ taken left, acks = taken ++ left ∧ result.2 = dropped + left.length ∧
    (setBits result.1).map (fun bit : ℕ => firstFrame + bit) =
      (setBits octets).map (fun bit : ℕ => firstFrame + bit) ++ taken
  length_mod : result.1.length % 4 = 2
  length_le : result.1.length ≤ Rtcp.maxAckBitvectorOctets

/-- A grown vector has room for the octet it was grown for, and a legal size. -/
theorem length_grown {octets : Bytes} {octetIndex : ℕ} (h : octets.length ≤ octetIndex) :
    (octets ++ .replicate (Rtcp.grownOctets (octetIndex + 1) - octets.length) (0 : UInt8)).length =
      Rtcp.grownOctets (octetIndex + 1) := by
  simp only [length_append, length_replicate, Rtcp.grownOctets,
    Rtcp.minAckBitvectorOctets]
  omega

/-- **The bit vector holds a prefix of the ACKs**; the rest are counted as
dropped. -/
theorem foldl_setAck {acks : List ℤ} (hsorted : acks.Pairwise (· < ·))
    (hfirst : ∀ id ∈ acks, firstFrame ≤ id) (octets : Bytes) (dropped : ℕ)
    (hbelow : ∀ bit ∈ setBits octets, ∀ id ∈ acks, firstFrame + bit < id)
    (hlength : octets.length % 4 = 2) (hmax : octets.length ≤ Rtcp.maxAckBitvectorOctets) :
    AcksSet firstFrame octets dropped acks
      (acks.foldl (Rtcp.setAck firstFrame available) (octets, dropped)) := by
  induction acks generalizing octets dropped with
  | nil => exact ⟨⟨[], [], rfl, rfl, by simp⟩, hlength, hmax⟩
  | cons id acks ih =>
    obtain ⟨hhead, hrest⟩ := pairwise_cons.mp hsorted
    have hid := hfirst id (mem_cons_self ..)
    have hrestFirst : ∀ later ∈ acks, firstFrame ≤ later := fun later hlater =>
      hfirst later (mem_cons_of_mem _ hlater)
    -- The bit of this ACK goes into `base`, which has room for it and the same bits set.
    have hmark : ∀ base : Bytes, setBits base = setBits octets →
        (id - firstFrame).toNat < 8 * base.length → base.length % 4 = 2 →
        base.length ≤ Rtcp.maxAckBitvectorOctets →
        Rtcp.setAck firstFrame available (octets, dropped) id =
          (markBit base (id - firstFrame).toNat, dropped) →
        AcksSet firstFrame octets dropped (id :: acks)
          ((id :: acks).foldl (Rtcp.setAck firstFrame available) (octets, dropped)) := by
      intro base hbits hroom hbase hbaseMax hstep
      have hmarked : setBits (markBit base (id - firstFrame).toNat) =
          setBits octets ++ [(id - firstFrame).toNat] := by
        rw [← hbits]
        refine setBits_markBit hroom fun bit hbit => ?_
        have := hbelow bit (by rwa [← hbits]) id (mem_cons_self ..)
        omega
      have hlater := ih hrest hrestFirst (markBit base (id - firstFrame).toNat) dropped (by
          intro bit hbit later hlater
          rw [hmarked] at hbit
          have hlt := hhead later hlater
          rcases mem_append.mp hbit with hold | hnew
          · exact hbelow bit hold later (mem_cons_of_mem _ hlater)
          · rw [mem_singleton.mp hnew]
            omega) (by rwa [length_markBit]) (by rwa [length_markBit])
      obtain ⟨⟨taken, left, hacks, hdropped, htaken⟩, hmod, hle⟩ := hlater
      rw [foldl_cons, hstep]
      refine ⟨⟨id :: taken, left, by rw [hacks, cons_append], hdropped, ?_⟩, hmod, hle⟩
      rw [htaken, hmarked, map_append, append_assoc, map_singleton,
        singleton_append]
      congr 2
      omega
    by_cases hinside : (id - firstFrame).toNat / 8 ≥ octets.length
    · by_cases hfull : Rtcp.grownOctets ((id - firstFrame).toNat / 8 + 1) >
          Rtcp.maxAckBitvectorOctets ∨
        Rtcp.grownOctets ((id - firstFrame).toNat / 8 + 1) > available
      · -- No room: this ACK and all after it are dropped.
        rw [foldl_setAck_dropped hinside hfull (by
          intro later hlater
          rcases mem_cons.mp hlater with rfl | hlater
          · omega
          · have := hhead later hlater
            omega)]
        exact ⟨⟨[], id :: acks, rfl, rfl, by simp⟩, hlength, hmax⟩
      · have hgrown := length_grown hinside
        have hzeros := setBits_append_zeros octets
          (Rtcp.grownOctets ((id - firstFrame).toNat / 8 + 1) - octets.length)
        have hstep : Rtcp.setAck firstFrame available (octets, dropped) id =
            (markBit (octets ++ .replicate
              (Rtcp.grownOctets ((id - firstFrame).toNat / 8 + 1) - octets.length) 0)
              (id - firstFrame).toNat, dropped) := by
          rw [Rtcp.setAck]
          dsimp only
          rw [if_neg (by omega), if_pos hinside, if_neg hfull]
        have hsize : (id - firstFrame).toNat / 8 + 1 ≤
              Rtcp.grownOctets ((id - firstFrame).toNat / 8 + 1) ∧
            Rtcp.grownOctets ((id - firstFrame).toNat / 8 + 1) % 4 = 2 := by
          simp only [Rtcp.grownOctets, Rtcp.minAckBitvectorOctets]
          omega
        generalize octets ++ List.replicate
          (Rtcp.grownOctets ((id - firstFrame).toNat / 8 + 1) - octets.length) 0 = base at *
        exact hmark base hzeros (by omega) (by omega) (by omega) hstep
    · refine hmark octets rfl (by omega) hlength hmax ?_
      rw [Rtcp.setAck]
      dsimp only
      rw [if_neg (by omega), if_neg hinside]

/-- **The frame-ACK extension decodes to a prefix of the ACKs.** -/
theorem decodeAckFields_ackFields {feedback : Feedback} {maxSize held : ℕ}
    (hsorted : feedback.acks.Pairwise (· < ·))
    (hfirst : ∀ id ∈ feedback.acks, feedback.checkpoint + 2 ≤ id) :
    ∃ taken left, feedback.acks = taken ++ left ∧
      (Rtcp.ackFields feedback maxSize held).2 = left.length ∧
      decodeAckFields feedback.checkpoint (Rtcp.ackFields feedback maxSize held).1 = taken ∧
      (Rtcp.ackFields feedback maxSize held).1.length % 4 = 0 ∧
      (Rtcp.ackFields feedback maxSize held).1.length ≤ 260 := by
  unfold Rtcp.ackFields
  split
  · exact ⟨[], feedback.acks, rfl, rfl, rfl, rfl, by simp⟩
  · obtain ⟨⟨taken, left, hacks, hdropped, htaken⟩, hmod, hle⟩ :=
      @foldl_setAck _ (maxSize - (held + 6)) _ hsorted hfirst
        (.replicate Rtcp.minAckBitvectorOctets 0) 0 (by simp [setBits_zeros]) (by decide)
        (by decide)
    dsimp only
    have hmax : Rtcp.maxAckBitvectorOctets = 254 := rfl
    refine ⟨taken, left, hacks, by rw [hdropped, Nat.zero_add], ?_, ?_, ?_⟩
    · generalize feedback.acks.foldl (Rtcp.setAck (feedback.checkpoint + 2)
        (maxSize - (held + 6))) (.replicate Rtcp.minAckBitvectorOctets 0, 0) = set at *
      have hsize : (UInt8.ofNat set.1.length).toNat = set.1.length := by
        rw [UInt8.toNat_ofNat']
        exact Nat.mod_eq_of_lt (by omega)
      rw [decodeAckFields, if_pos (by simp [Rtcp.cst2Identifier])]
      simp only [Rtcp.cst2Identifier, cons_append, nil_append, drop_succ_cons,
        drop_zero, hsize, take_length]
      rw [htaken, setBits_zeros, map_nil, nil_append]
    · simp only [Rtcp.cst2Identifier, length_append, length_cons, length_nil]
      omega
    · simp only [Rtcp.cst2Identifier, length_append, length_cons, length_nil]
      omega

end Acks

/-! ## The compound packet -/

/-- The lists a packet can name: frames within reach of eight bits, in order. -/
structure Nameable (feedback : Feedback) : Prop where
  nacks_order : feedback.nacks.Pairwise NackOrder
  nacks_near : ∀ nack ∈ feedback.nacks,
    feedback.checkpoint < nack.frameId ∧ nack.frameId ≤ feedback.checkpoint + 256
  acks_order : feedback.acks.Pairwise (· < ·)
  acks_low : ∀ id ∈ feedback.acks, feedback.checkpoint + 2 ≤ id

/-- A packet of another kind is walked over by its length. -/
theorem findFeedback_header {packetType countOrSubtype : UInt8} (payload rest : Bytes) {words : ℕ}
    (hcount : countOrSubtype < 32)
    (hother : ¬(packetType = Rtcp.ptPayloadSpecific ∧ countOrSubtype = Rtcp.subtypeFeedback))
    (hlength : payload.length = words * 4) (hwords : words < 65536) :
    findFeedback (Rtcp.header packetType countOrSubtype (words * 4) ++ payload ++ rest) =
      findFeedback rest := by
  have hbits : ∀ n : Fin 32, (0b10000000 ||| UInt8.ofNat n) >>> 5 = 0b100 ∧
      (0b10000000 ||| UInt8.ofNat n) &&& 0b00011111 = UInt8.ofNat n := by decide +kernel
  have hfin := hbits ⟨countOrSubtype.toNat, hcount⟩
  simp only [UInt8.ofNat_toNat] at hfin
  obtain ⟨l₀, l₁, hbytes, hvalue⟩ := exists_beBytes_two hwords
  have hmin : min (words * 4 / 4) 65535 = words := by omega
  rw [Rtcp.header, hmin, hbytes]
  simp only [cons_append, nil_append]
  rw [findFeedback, if_neg (not_not.mpr hfin.1), hvalue, hfin.2, if_neg hother, ← hlength,
    drop_left]

theorem findFeedback_body {body : Bytes} {words : ℕ} (hlength : body.length = words * 4)
    (hwords : words < 65536) :
    findFeedback (Rtcp.header Rtcp.ptPayloadSpecific Rtcp.subtypeFeedback body.length ++ body) =
      some body := by
  obtain ⟨l₀, l₁, hbytes, hvalue⟩ := exists_beBytes_two hwords
  have hmin : min (body.length / 4) 65535 = words := by omega
  rw [Rtcp.header, hmin, hbytes]
  simp only [cons_append, nil_append]
  rw [findFeedback, if_neg (by decide), hvalue, if_pos ⟨rfl, by decide⟩, ← hlength,
    if_neg (lt_irrefl _), take_length]

theorem length_ssrcBytes (ssrc : UInt32) : (Rtcp.ssrcBytes ssrc).length = 4 := length_beBytes 4 _

/-- The reports before the feedback message are walked over. -/
theorem findFeedback_preamble (feedback : Feedback) (rest : Bytes) :
    findFeedback (Rtcp.preamble feedback ++ rest) = findFeedback rest := by
  have hreport : ∀ rest, findFeedback (Rtcp.receiverReport feedback ++ rest) =
      findFeedback rest := by
    intro rest
    unfold Rtcp.receiverReport
    split
    · rename_i echo hecho
      have hskip := @findFeedback_header Rtcp.ptReceiverReport 1
        (Rtcp.ssrcBytes feedback.receiverSsrc ++ Rtcp.ssrcBytes feedback.senderSsrc ++
          beBytes 4 0 ++ beBytes 4 0 ++ beBytes 4 0 ++ beBytes 4 echo.reportId.toNat ++
          beBytes 4 echo.delay.toNat) rest 7 (by decide) (by decide)
        (by simp [length_ssrcBytes]) (by decide)
      simpa only [append_assoc] using hskip
    · exact @findFeedback_header Rtcp.ptReceiverReport 0 _ rest 1 (by decide) (by decide)
        (length_ssrcBytes _) (by decide)
  have htime : ∀ rest, findFeedback (Rtcp.referenceTimeReport feedback ++ rest) =
      findFeedback rest := by
    intro rest
    unfold Rtcp.referenceTimeReport
    split
    · rename_i ntp hntp
      have hskip := @findFeedback_header Rtcp.ptExtendedReports 0
        (Rtcp.ssrcBytes feedback.receiverSsrc ++ [Rtcp.receiverReferenceTimeBlockType, 0] ++
          beBytes 2 2 ++ beBytes 8 ntp.toNat) rest 4 (by decide) (by decide)
        (by simp [length_ssrcBytes]) (by decide)
      simpa only [append_assoc] using hskip
    · rfl
  have hloss : ∀ rest, findFeedback (Rtcp.pictureLossIndicator feedback ++ rest) =
      findFeedback rest := by
    intro rest
    unfold Rtcp.pictureLossIndicator
    split
    · have hskip := @findFeedback_header Rtcp.ptPayloadSpecific Rtcp.subtypePictureLossIndicator
        (Rtcp.ssrcBytes feedback.receiverSsrc ++ Rtcp.ssrcBytes feedback.senderSsrc) rest 2
        (by decide) (by decide) (by simp [length_ssrcBytes]) (by decide)
      simpa only [append_assoc] using hskip
    · rfl
  rw [Rtcp.preamble, append_assoc, append_assoc, hreport, htime, hloss]

/-- **What a sender reads from a packet**: a prefix of the NACKs and a prefix of
the ACKs, as long as the report says. -/
theorem decode_build {feedback : Feedback} (h : Nameable feedback) {reference : ℤ}
    (hlow : reference - 128 ≤ feedback.checkpoint) (hhigh : feedback.checkpoint ≤ reference + 127)
    (maxSize : ℕ) : (Rtcp.build feedback maxSize).2.nacksDropped ≤ feedback.nacks.length ∧
      (Rtcp.build feedback maxSize).2.acksDropped ≤ feedback.acks.length ∧
      decodeFeedback reference (Rtcp.build feedback maxSize).1 =
        some ⟨feedback.checkpoint,
          feedback.nacks.take
            (feedback.nacks.length - (Rtcp.build feedback maxSize).2.nacksDropped),
          feedback.acks.take
            (feedback.acks.length - (Rtcp.build feedback maxSize).2.acksDropped)⟩ := by
  have hrelevant : Rtcp.relevantNacks feedback = feedback.nacks := by
    refine filter_eq_self.mpr fun nack hnack => ?_
    exact decide_eq_true (h.nacks_near nack hnack).1
  unfold Rtcp.build
  dsimp only
  rw [hrelevant]
  generalize hheld : (Rtcp.preamble feedback).length + 20 = held
  obtain ⟨takenAcks, leftAcks, hacks, hacksDropped, hdecodeAcks, hacksMod, hacksLength⟩ :=
    @decodeAckFields_ackFields feedback maxSize
      (held + (Rtcp.lossFields maxSize held 0 feedback.nacks).1.length) h.acks_order h.acks_low
  obtain ⟨taken, count, hnacks, hwritten, hcount, hlength, hdecode⟩ :=
    @decodeLossFields_lossFields feedback.checkpoint maxSize held 0 feedback.nacks h.nacks_order
      h.nacks_near (Nat.zero_le _) (Rtcp.ackFields feedback maxSize
        (held + (Rtcp.lossFields maxSize held 0 feedback.nacks).1.length)).1
  generalize Rtcp.ackFields feedback maxSize
    (held + (Rtcp.lossFields maxSize held 0 feedback.nacks).1.length) = ackFields at *
  generalize Rtcp.lossFields maxSize held 0 feedback.nacks = losses at *
  rw [Nat.zero_add] at hwritten hcount
  have hmax : Rtcp.maxLossFields = 255 := rfl
  refine ⟨?_, ?_, ?_⟩
  · rw [hnacks, length_append]
    exact Nat.le_add_left _ _
  · rw [hacksDropped, hacks, length_append]
    exact Nat.le_add_left _ _
  · have htakenNacks : feedback.nacks.take (feedback.nacks.length - losses.2.2.length) = taken := by
      rw [hnacks, length_append, Nat.add_sub_cancel, take_left]
    have htakenAcks : feedback.acks.take (feedback.acks.length - ackFields.2) = takenAcks := by
      rw [hacksDropped, hacks, length_append, Nat.add_sub_cancel, take_left]
    have hfixed : (Rtcp.feedbackFixed feedback losses.2.1).length = 16 := by
      simp [Rtcp.feedbackFixed, length_ssrcBytes, Rtcp.castIdentifier]
    have hbody : (Rtcp.feedbackFixed feedback losses.2.1 ++ losses.1 ++ ackFields.1).length =
        (4 + count + ackFields.1.length / 4) * 4 := by
      rw [length_append, length_append, hfixed, hlength]
      omega
    rw [decodeFeedback, append_assoc, findFeedback_preamble,
      findFeedback_body hbody (by omega), Option.bind_some, htakenNacks, htakenAcks]
    -- The fixed part, field by field.
    obtain ⟨d₀, d₁, hdelay⟩ : ∃ d₀ d₁, beBytes 2 feedback.playoutDelayMs = [d₀, d₁] :=
      ⟨_, _, rfl⟩
    have hdrop : ∀ (first second rest : Bytes), first.length = 4 → second.length = 4 →
        (first ++ (second ++ rest)).drop 8 = rest := by
      intro first second rest hfirst hsecond
      rw [← append_assoc, drop_left' (by rw [length_append]; omega)]
    have hcountByte : (UInt8.ofNat losses.2.1).toNat = count := by
      rw [hwritten, UInt8.toNat_ofNat', Nat.mod_eq_of_lt (by omega)]
    rw [decodeBody, Rtcp.feedbackFixed, hdelay]
    simp only [append_assoc]
    have hidentifier := hdrop (Rtcp.ssrcBytes feedback.receiverSsrc)
      (Rtcp.ssrcBytes feedback.senderSsrc) (Rtcp.castIdentifier ++
        ([FrameId.lower8Bits feedback.checkpoint, UInt8.ofNat losses.2.1] ++ ([d₀, d₁] ++
          (losses.1 ++ ackFields.1)))) (length_ssrcBytes _) (length_ssrcBytes _)
    have hcast : ∀ rest : Bytes, (Rtcp.castIdentifier ++ rest).take 4 = Rtcp.castIdentifier ∧
        (Rtcp.castIdentifier ++ rest).drop 4 = rest := fun rest => ⟨rfl, rfl⟩
    rw [hidentifier, show 12 = 8 + 4 from rfl, ← drop_drop, hidentifier,
      if_pos (hcast _).1, (hcast _).2]
    simp only [cons_append, nil_append, hcountByte,
      FrameId.expand_lower8Bits hlow hhigh, hdecode, Option.map_some, hdecodeAcks]

/-! ## What the receiver lists -/

namespace FrameCollector

/-- Whether packet `id` is held. -/
def held (collector : FrameCollector) (id : ℕ) : Bool :=
  (collector.chunks.bind (·[id]?.join)).isSome

def packetCount (collector : FrameCollector) : ℕ := (collector.chunks.map List.length).getD 0

/-- What the sender owes of an incomplete frame: all of it when no packet is
held, otherwise the packets not held. -/
def owed (collector : FrameCollector) : List PacketNack :=
  if (List.range collector.packetCount).any collector.held then
    ((List.range collector.packetCount).filter fun id => !collector.held id).filterMap fun id =>
      (PacketId.new id).map fun id => ⟨collector.frameId, .packet id⟩
  else [⟨collector.frameId, .allPackets⟩]

/-- Walking a list with its indices is walking its indices. -/
theorem filter_zipIdx_filterMap {β : Type} (chunks : List (Option Bytes)) (g : ℕ → Option β) :
    (chunks.zipIdx.filter fun entry => entry.1.isNone).filterMap (fun entry => g entry.2) =
      ((List.range chunks.length).filter fun id => !(chunks[id]?.join).isSome).filterMap g := by
  induction chunks using List.reverseRecOn with
  | nil => rfl
  | append_singleton chunks chunk ih =>
    have hsame : (List.range chunks.length).filter
        (fun id => !((chunks ++ [chunk])[id]?.join).isSome) =
        (List.range chunks.length).filter fun id => !(chunks[id]?.join).isSome := by
      refine filter_congr fun id hid => ?_
      rw [getElem?_append_left (mem_range.mp hid)]
    rw [zipIdx_append, filter_append, filterMap_append, ih, length_append,
      length_singleton, range_succ, filter_append, filterMap_append, hsame]
    congr 1
    simp only [zipIdx_cons, zipIdx_nil, Nat.zero_add, filter_cons, filter_nil,
      getElem?_concat_length]
    cases chunk <;> rfl

theorem missingPackets_eq_owed {collector : FrameCollector} (h : collector.Consistent)
    (hincomplete : collector.isComplete = false) : collector.missingPackets = collector.owed := by
  unfold missingPackets owed
  cases hchunks : collector.chunks with
  | none => simp [packetCount, hchunks]
  | some chunks =>
    have hmissing := h.missing_eq chunks hchunks
    have hheld : ∀ id, collector.held id = (chunks[id]?.join).isSome := by
      intro id
      simp [held, hchunks]
    have hcount : collector.packetCount = chunks.length := by simp [packetCount, hchunks]
    have hpositive : collector.missing ≠ 0 := by
      intro hzero
      simp [isComplete, hchunks, hzero] at hincomplete
    dsimp only
    rw [if_neg hpositive, hcount]
    by_cases hall : collector.missing ≥ chunks.length
    · -- No chunk is there: every packet is missing.
      have hnone : ∀ chunk ∈ chunks, chunk.isNone = true := by
        rw [hmissing] at hall
        exact countP_eq_length.mp (le_antisymm countP_le_length hall)
      have hany : (List.range chunks.length).any collector.held = false := by
        rw [any_eq_false]
        intro id hid
        have hbound := mem_range.mp hid
        rw [hheld, getElem?_eq_getElem hbound, Option.join_some]
        have := hnone _ (getElem_mem hbound)
        simpa using this
      rw [if_pos hall, hany]
      rfl
    · have hany : (List.range chunks.length).any collector.held = true := by
        by_contra hnot
        apply hall
        rw [hmissing]
        refine (countP_eq_length.mpr fun chunk hchunk => ?_).ge
        obtain ⟨id, hbound, rfl⟩ := mem_iff_getElem.mp hchunk
        rw [Bool.not_eq_true, any_eq_false] at hnot
        have := hnot id (mem_range.mpr hbound)
        rw [hheld, getElem?_eq_getElem hbound, Option.join_some] at this
        simpa using this
      rw [if_neg hall, hany, if_pos rfl, filter_zipIdx_filterMap chunks fun id =>
        (PacketId.new id).map fun id => (⟨collector.frameId, .packet id⟩ : PacketNack)]
      simp only [hheld]

end FrameCollector

namespace CastRtpReceiver

variable {receiver : CastRtpReceiver}

/-- The frames past the checkpoint up to the horizon, in order. -/
def framesAbove (receiver : CastRtpReceiver) : List ℤ :=
  (List.range (receiver.latestExpected - receiver.checkpoint).toNat).map fun offset : ℕ =>
    receiver.checkpoint + 1 + offset

def collectorAt (receiver : CastRtpReceiver) (id : ℤ) : FrameCollector :=
  receiver.pending[id]?.getD (.new id)

theorem mem_framesAbove {id : ℤ} :
    id ∈ receiver.framesAbove ↔ receiver.checkpoint < id ∧ id ≤ receiver.latestExpected := by
  simp only [framesAbove, mem_map, mem_range]
  constructor
  · rintro ⟨offset, hoffset, rfl⟩
    omega
  · rintro ⟨hlow, hhigh⟩
    exact ⟨(id - receiver.checkpoint - 1).toNat, by omega, by omega⟩

theorem framesAbove_sorted : receiver.framesAbove.Pairwise (· < ·) := by
  rw [framesAbove, pairwise_map]
  refine List.pairwise_lt_range.imp ?_
  intro a b hab
  omega

section

variable (h : receiver.WindowInv)
include h

theorem WindowInv.getElem?_of_mem {id : ℤ}
    (hid : id ∈ receiver.framesAbove) : receiver.pending[id]? = some (receiver.collectorAt id) := by
  obtain ⟨hlow, hhigh⟩ := mem_framesAbove.mp hid
  obtain ⟨collector, hcollector⟩ :=
    h.exists_collector (lt_of_le_of_lt h.lastDelivered_le hlow) hhigh
  rw [collectorAt, hcollector, Option.getD_some]

/-- **The pending frames above the checkpoint are all those up to the horizon.**
-/
theorem WindowInv.aboveCheckpoint_eq :
    receiver.aboveCheckpoint =
      receiver.framesAbove.map fun id => (id, receiver.collectorAt id) := by
  have hsorted : receiver.aboveCheckpoint.Pairwise fun a b => a.1 < b.1 := by
    refine List.Pairwise.filter _ ?_
    exact Std.TreeMap.ordered_keys_toList.imp fun hlt => compare_lt_iff_lt.mp hlt
  have hsorted' : (receiver.framesAbove.map fun id => (id, receiver.collectorAt id)).Pairwise
      fun a b => a.1 < b.1 := by
    rw [pairwise_map]
    exact framesAbove_sorted
  have hirrefl : Std.Irrefl fun a b : ℤ × FrameCollector => a.1 < b.1 :=
    ⟨fun a => lt_irrefl a.1⟩
  refine List.Perm.eq_of_pairwise (fun a b _ _ hab hba => absurd (lt_trans hab hba) (lt_irrefl _))
    hsorted hsorted' ?_
  have hnodup : ∀ {l : List (ℤ × FrameCollector)}, l.Pairwise (fun a b => a.1 < b.1) → l.Nodup :=
    fun hl => hl.imp fun hlt heq => absurd (heq ▸ hlt) (lt_irrefl _)
  rw [perm_ext_iff_of_nodup (hnodup hsorted) (hnodup hsorted')]
  rintro ⟨id, collector⟩
  simp only [aboveCheckpoint, mem_filter, Std.TreeMap.mem_toList_iff_getElem?_eq_some,
    FrameId.next, mem_map, Prod.mk.injEq]
  constructor
  · rintro ⟨hcollector, habove⟩
    have hlow := of_decide_eq_true habove
    have hbounds := h.bounds hcollector
    refine ⟨id, mem_framesAbove.mpr ⟨by omega, hbounds.2⟩, rfl, ?_⟩
    rw [collectorAt, hcollector, Option.getD_some]
  · rintro ⟨other, hother, rfl, rfl⟩
    refine ⟨h.getElem?_of_mem hother, decide_eq_true ?_⟩
    exact (mem_framesAbove.mp hother).1

/-- **The acknowledgements are the complete frames above the checkpoint, in
order.** -/
theorem WindowInv.acks_feedback (ntpTimestamp : Option UInt64) :
    (receiver.feedback ntpTimestamp).2.acks =
      receiver.framesAbove.filter fun id => (receiver.collectorAt id).isComplete := by
  change receiver.aboveCheckpoint.filterMap _ = _
  rw [h.aboveCheckpoint_eq, filterMap_map, ← filterMap_eq_filter]
  refine filterMap_congr fun id _ => ?_
  simp only [Function.comp_apply, Option.guard_apply]

/-- **The NACKs are what the sender owes of each incomplete frame, in order.**
-/
theorem WindowInv.nacks_feedback (ntpTimestamp : Option UInt64) :
    (receiver.feedback ntpTimestamp).2.nacks =
      (receiver.framesAbove.filter fun id => !(receiver.collectorAt id).isComplete).flatMap
        fun id => (receiver.collectorAt id).owed := by
  change receiver.aboveCheckpoint.flatMap _ = _
  rw [h.aboveCheckpoint_eq, flatMap_map]
  have hpoint : ∀ ids : List ℤ, (∀ id ∈ ids, id ∈ receiver.framesAbove) →
      (ids.flatMap fun id => if (receiver.collectorAt id).isComplete then []
        else (receiver.collectorAt id).missingPackets) =
      (ids.filter fun id => !(receiver.collectorAt id).isComplete).flatMap
        fun id => (receiver.collectorAt id).owed := by
    intro ids hids
    induction ids with
    | nil => rfl
    | cons id ids ih =>
      have hrest := ih fun other hother => hids other (mem_cons_of_mem _ hother)
      rw [flatMap_cons, filter_cons, hrest]
      cases hcomplete : (receiver.collectorAt id).isComplete with
      | true => simp
      | false =>
        have hconsistent := (h.collectors id _
          (h.getElem?_of_mem (hids id (mem_cons_self ..)))).2
        simp [FrameCollector.missingPackets_eq_owed hconsistent hcomplete]
  exact hpoint _ fun id hid => hid

end

theorem frameId_of_mem_owed {collector : FrameCollector} {nack : PacketNack}
    (hnack : nack ∈ collector.owed) : nack.frameId = collector.frameId := by
  unfold FrameCollector.owed at hnack
  split at hnack
  · obtain ⟨id, -, hid⟩ := mem_filterMap.mp hnack
    obtain ⟨packet, -, rfl⟩ := Option.map_eq_some_iff.mp hid
    rfl
  · rw [mem_singleton.mp hnack]

theorem owed_order (collector : FrameCollector) : collector.owed.Pairwise NackOrder := by
  unfold FrameCollector.owed
  split
  · rw [pairwise_filterMap]
    refine (List.pairwise_lt_range.filter _).imp ?_
    intro a b hab nack hnack later hlater
    obtain ⟨i, hi, rfl⟩ := Option.map_eq_some_iff.mp hnack
    obtain ⟨j, hj, rfl⟩ := Option.map_eq_some_iff.mp hlater
    have hget : ∀ {value : ℕ} {id : PacketId}, PacketId.new value = some id → id.get = value := by
      intro value id hid
      unfold PacketId.new at hid
      split at hid <;> cases hid
      rfl
    exact Or.inr ⟨rfl, i, j, rfl, rfl, by rw [hget hi, hget hj]; exact hab⟩
  · exact pairwise_singleton _ _

/-- A reachable receiver's lists can be named in eight bits. -/
theorem WindowInv.nameable (h : receiver.WindowInv) (ntpTimestamp : Option UInt64)
    (echo : Option SenderReportEcho) :
    Nameable { (receiver.feedback ntpTimestamp).2 with lastSenderReport := echo } := by
  have hframe : ∀ id ∈ receiver.framesAbove, (receiver.collectorAt id).frameId = id :=
    fun id hid => (h.collectors id _ (h.getElem?_of_mem hid)).1
  have hlast := h.lastDelivered_le
  have hroom := h.latestExpected_le
  have hmax : maxUnackedFrames = 120 := rfl
  refine ⟨?_, ?_, ?_, ?_⟩
  · change (receiver.feedback ntpTimestamp).2.nacks.Pairwise NackOrder
    rw [h.nacks_feedback, pairwise_flatMap]
    refine ⟨fun id _ => owed_order _, ?_⟩
    refine (framesAbove_sorted.filter _).imp_of_mem ?_
    intro a b ha hb hab nack hnack later hlater
    left
    rw [frameId_of_mem_owed hnack, frameId_of_mem_owed hlater,
      hframe a (mem_of_mem_filter ha), hframe b (mem_of_mem_filter hb)]
    exact hab
  · change ∀ nack ∈ (receiver.feedback ntpTimestamp).2.nacks, receiver.checkpoint < nack.frameId ∧
      nack.frameId ≤ receiver.checkpoint + 256
    rw [h.nacks_feedback]
    intro nack hnack
    obtain ⟨id, hid, hmem⟩ := mem_flatMap.mp hnack
    have habove := mem_of_mem_filter hid
    rw [frameId_of_mem_owed hmem, hframe id habove]
    obtain ⟨hlow, hhigh⟩ := mem_framesAbove.mp habove
    omega
  · change (receiver.feedback ntpTimestamp).2.acks.Pairwise (· < ·)
    rw [h.acks_feedback]
    exact framesAbove_sorted.filter _
  · change ∀ id ∈ (receiver.feedback ntpTimestamp).2.acks, receiver.checkpoint + 2 ≤ id
    rw [h.acks_feedback]
    intro id hid
    obtain ⟨habove, hcomplete⟩ := mem_filter.mp hid
    obtain ⟨hlow, -⟩ := mem_framesAbove.mp habove
    -- The frame right after the checkpoint would have moved it.
    have hne : id ≠ receiver.checkpoint + 1 := by
      rintro rfl
      have hincomplete := h.incomplete _ (h.getElem?_of_mem habove)
      rw [hincomplete] at hcomplete
      cases hcomplete
    omega

/-- **Feedback asks for exactly what is missing**, in every reachable receiver
and within every packet size, for every sender whose reference is near the
checkpoint. -/
theorem feedback_run (senderSsrc receiverSsrc : UInt32) (calls : List Call)
    (ntpTimestamp : Option UInt64) (echo : Option SenderReportEcho) (maxSize : ℕ) {reference : ℤ}
    (hlow : reference - 128 ≤ ((new senderSsrc receiverSsrc).run calls).checkpoint)
    (hhigh : ((new senderSsrc receiverSsrc).run calls).checkpoint ≤ reference + 127) :
    let receiver := (new senderSsrc receiverSsrc).run calls
    let feedback := { (receiver.feedback ntpTimestamp).2 with lastSenderReport := echo }
    let built := Rtcp.build feedback maxSize
    (feedback.acks = receiver.framesAbove.filter fun id =>
        (receiver.collectorAt id).isComplete) ∧
      (feedback.nacks =
        (receiver.framesAbove.filter fun id => !(receiver.collectorAt id).isComplete).flatMap
          fun id => (receiver.collectorAt id).owed) ∧
      built.2.nacksDropped ≤ feedback.nacks.length ∧
      built.2.acksDropped ≤ feedback.acks.length ∧
      decodeFeedback reference built.1 =
        some ⟨feedback.checkpoint,
          feedback.nacks.take (feedback.nacks.length - built.2.nacksDropped),
          feedback.acks.take (feedback.acks.length - built.2.acksDropped)⟩ := by
  have hinv := (windowInv_new senderSsrc receiverSsrc).run calls
  obtain ⟨hnacks, hacks, hdecode⟩ := decode_build (hinv.nameable ntpTimestamp echo) hlow hhigh
    maxSize
  exact ⟨hinv.acks_feedback ntpTimestamp, hinv.nacks_feedback ntpTimestamp, hnacks, hacks, hdecode⟩

/-- One packet of two has arrived, of frame 1. -/
def sampleCalls : List Call :=
  [.receive [0x80, 96, 0, 7, 0, 0, 3, 0xe8, 1, 2, 3, 4, 0x80, 1, 0, 1, 0, 1, 42]]

theorem feedback_run_sample :
    let receiver := (new 0x01020304 5).run sampleCalls
    let feedback := { (receiver.feedback none).2 with lastSenderReport := none }
    let built := Rtcp.build feedback 1472
    feedback.nacks = [⟨0, .allPackets⟩, ⟨1, .packet .zero⟩] ∧
      (feedback.acks = receiver.framesAbove.filter fun id =>
        (receiver.collectorAt id).isComplete) ∧
      (feedback.nacks =
        (receiver.framesAbove.filter fun id => !(receiver.collectorAt id).isComplete).flatMap
          fun id => (receiver.collectorAt id).owed) ∧
      built.2.nacksDropped ≤ feedback.nacks.length ∧
      built.2.acksDropped ≤ feedback.acks.length ∧
      decodeFeedback (-1) built.1 =
        some ⟨feedback.checkpoint,
          feedback.nacks.take (feedback.nacks.length - built.2.nacksDropped),
          feedback.acks.take (feedback.acks.length - built.2.acksDropped)⟩ :=
  ⟨by decide +kernel,
    feedback_run 0x01020304 5 sampleCalls none none 1472 (by decide +kernel) (by decide +kernel)⟩

end CastRtpReceiver

end Castaway.Cast
