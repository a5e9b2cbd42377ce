import Castaway.Cast.Feedback

/-!
# Compound packets are well formed and within budget

A receiver walks a compound packet by its length fields, so one slip loses it
for the rest of the packet.  `walk` is the walk of `rtcp.rs`'s own tests: it
reads a list of parts, and nothing at all unless every header is of version 2
and the lengths cover the packet exactly.  `walk_header` takes one part off the
front, and the parts of `build` follow one after the other.

## Strategy

Two spec lemmas say what the lists come to.  `Written` is what the loss fields
are for any NACKs, in whatever order: a prefix of them is named and the rest is
left over, and with room reserved for the ACK vector.  `ackFields_fits` says
that the vector stays inside the room and grows in whole words.

`findSenderReport` is the other reader.  Each turn of its loop drops four bytes
or more (`senderReportTurn_next`), so it returns on any bytes, and what it
returns was read from sixteen bytes of the datagram.
-/

namespace Castaway.Cast

open List

namespace Rtcp

/-! ## Walking a packet -/

/-- One packet of a compound: its type, count or subtype, and body. -/
structure Part where
  packetType : UInt8
  countOrSubtype : UInt8
  body : Bytes
  deriving DecidableEq

/-- The parts of a compound packet, if every header is of version 2 without
padding and the length fields cover the packet exactly. -/
def walk (packet : Bytes) : Option (List Part) :=
  match packet with
  | [] => some []
  | b₀ :: packetType :: l₀ :: l₁ :: rest =>
    if b₀ >>> 5 ≠ 0b100 then none
    else
      let size := beNat [l₀, l₁] * 4
      if rest.length < size then none
      else (walk (rest.drop size)).map (⟨packetType, b₀ &&& 0b00011111, rest.take size⟩ :: ·)
  | _ => none
termination_by packet.length
decreasing_by
  simp only [length_drop, length_cons]
  omega

/-- **One part is walked by its length.** -/
theorem walk_header {packetType countOrSubtype : UInt8} (body rest : Bytes) {words : ℕ}
    (hcount : countOrSubtype < 32) (hlength : body.length = words * 4) (hwords : words < 65536) :
    walk (header packetType countOrSubtype body.length ++ body ++ rest) =
      (walk rest).map (⟨packetType, countOrSubtype, body⟩ :: ·) := by
  have hbits : ∀ n : Fin 32, (0b10000000 ||| UInt8.ofNat n) >>> 5 = 0b100 ∧
      (0b10000000 ||| UInt8.ofNat n) &&& 0b00011111 = UInt8.ofNat n := by decide +kernel
  have hfin := hbits ⟨countOrSubtype.toNat, hcount⟩
  simp only [UInt8.ofNat_toNat] at hfin
  obtain ⟨l₀, l₁, hbytes, hvalue⟩ := exists_beBytes_two hwords
  have hmin : min (body.length / 4) 65535 = words := by omega
  rw [header, hmin, hbytes]
  simp only [cons_append, nil_append]
  rw [walk, if_neg (not_not.mpr hfin.1), hvalue, hfin.2]
  dsimp only
  rw [if_neg (by simp only [length_append]; omega), ← hlength, drop_left, take_left]

/-! ## The parts before the feedback message -/

/-- The size of what `build` writes whatever the budget: the reports, the
picture loss indicator, and the feedback message without its two lists. -/
def mandatorySize (feedback : Feedback) : ℕ :=
  (if feedback.lastSenderReport.isSome then 32 else 8) +
    (if feedback.ntpTimestamp.isSome then 20 else 0) + (if feedback.pictureLoss then 12 else 0) + 20

theorem length_header (packetType countOrSubtype : UInt8) (payloadSize : ℕ) :
    (header packetType countOrSubtype payloadSize).length = 4 := by
  simp [header]

theorem length_preamble (feedback : Feedback) :
    (preamble feedback).length + 20 = mandatorySize feedback := by
  have hreport : (receiverReport feedback).length =
      if feedback.lastSenderReport.isSome then 32 else 8 := by
    unfold receiverReport
    cases feedback.lastSenderReport <;> simp [length_header, length_ssrcBytes]
  have htime : (referenceTimeReport feedback).length =
      if feedback.ntpTimestamp.isSome then 20 else 0 := by
    unfold referenceTimeReport
    cases feedback.ntpTimestamp <;> simp [length_header, length_ssrcBytes]
  have hloss : (pictureLossIndicator feedback).length =
      if feedback.pictureLoss then 12 else 0 := by
    unfold pictureLossIndicator
    split <;> simp [length_header, length_ssrcBytes]
  rw [preamble, length_append, length_append, hreport, htime, hloss, mandatorySize]

theorem mandatorySize_mod (feedback : Feedback) : mandatorySize feedback % 4 = 0 := by
  unfold mandatorySize
  split <;> split <;> split <;> rfl

/-- The parts of `bytes` are `parts`, whatever follows them. -/
def Walks (bytes : Bytes) (parts : List Part) : Prop :=
  ∀ rest, walk (bytes ++ rest) = (walk rest).map (parts ++ ·)

theorem Walks.nil : Walks [] [] := by
  intro rest
  simp

theorem Walks.append {first second : Bytes} {parts later : List Part} (hfirst : Walks first parts)
    (hsecond : Walks second later) : Walks (first ++ second) (parts ++ later) := by
  intro rest
  rw [append_assoc, hfirst, hsecond, Option.map_map]
  congr 1
  funext more
  exact (append_assoc parts later more).symm

theorem Walks.part {packetType countOrSubtype : UInt8} {body : Bytes} {words : ℕ}
    (hcount : countOrSubtype < 32) (hlength : body.length = words * 4) (hwords : words < 65536) :
    Walks (header packetType countOrSubtype (words * 4) ++ body)
      [⟨packetType, countOrSubtype, body⟩] := by
  intro rest
  rw [← hlength]
  exact walk_header body rest hcount hlength hwords

/-- **The reports before the feedback message are parts of their own**, and none
of them is a Sender Report. -/
theorem walks_preamble (feedback : Feedback) : ∃ parts, Walks (preamble feedback) parts ∧
      ∀ part ∈ parts,
        part.packetType ∈ [ptReceiverReport, ptExtendedReports, ptPayloadSpecific] := by
  have hreport : ∃ body count,
      Walks (receiverReport feedback) [⟨ptReceiverReport, count, body⟩] := by
    unfold receiverReport
    cases feedback.lastSenderReport with
    | some echo =>
      refine ⟨ssrcBytes feedback.receiverSsrc ++ ssrcBytes feedback.senderSsrc ++ beBytes 4 0 ++
        beBytes 4 0 ++ beBytes 4 0 ++ beBytes 4 echo.reportId.toNat ++
        beBytes 4 echo.delay.toNat, 1, ?_⟩
      have hwalks := @Walks.part ptReceiverReport 1
        (ssrcBytes feedback.receiverSsrc ++ ssrcBytes feedback.senderSsrc ++ beBytes 4 0 ++
          beBytes 4 0 ++ beBytes 4 0 ++ beBytes 4 echo.reportId.toNat ++
          beBytes 4 echo.delay.toNat) 7 (by decide) (by simp [length_ssrcBytes]) (by decide)
      simpa only [append_assoc] using hwalks
    | none => exact ⟨_, 0, @Walks.part _ 0 _ 1 (by decide) (length_ssrcBytes _) (by decide)⟩
  have htime : ∃ parts, Walks (referenceTimeReport feedback) parts ∧
      ∀ part ∈ parts, part.packetType = ptExtendedReports := by
    unfold referenceTimeReport
    cases feedback.ntpTimestamp with
    | some ntp =>
      have hwalks := @Walks.part ptExtendedReports 0
        (ssrcBytes feedback.receiverSsrc ++ [receiverReferenceTimeBlockType, 0] ++ beBytes 2 2 ++
          beBytes 8 ntp.toNat) 4 (by decide) (by simp [length_ssrcBytes]) (by decide)
      exact ⟨_, by simpa only [append_assoc] using hwalks, by simp⟩
    | none => exact ⟨[], Walks.nil, by simp⟩
  have hloss : ∃ parts, Walks (pictureLossIndicator feedback) parts ∧
      ∀ part ∈ parts, part.packetType = ptPayloadSpecific := by
    unfold pictureLossIndicator
    split
    · have hwalks := @Walks.part ptPayloadSpecific subtypePictureLossIndicator
        (ssrcBytes feedback.receiverSsrc ++ ssrcBytes feedback.senderSsrc) 2 (by decide)
        (by simp [length_ssrcBytes]) (by decide)
      exact ⟨_, by simpa only [append_assoc] using hwalks, by simp⟩
    · exact ⟨[], Walks.nil, by simp⟩
  obtain ⟨body, count, hreport⟩ := hreport
  obtain ⟨timeParts, htime, htimeType⟩ := htime
  obtain ⟨lossParts, hloss, hlossType⟩ := hloss
  rw [preamble]
  refine ⟨[⟨ptReceiverReport, count, body⟩] ++ timeParts ++ lossParts,
    (hreport.append htime).append hloss, fun part hpart => ?_⟩
  rcases mem_append.mp hpart with hpart | hpart
  · rcases mem_append.mp hpart with hpart | hpart
    · rw [mem_singleton.mp hpart]
      exact mem_cons_self ..
    · rw [htimeType part hpart]
      simp
  · rw [hlossType part hpart]
    simp

/-! ## What the loss fields name -/

/-- One loss field as it lies in a packet. -/
structure LossField where
  frame : UInt8
  first : ℕ
  bitVector : UInt8
  deriving DecidableEq

/-- The packets a loss field names, each by its frame's byte and its own id: the
first one, and those of the eight after it whose bits are set. -/
def LossField.names (loss : LossField) : List (UInt8 × ℕ) :=
  (loss.frame, loss.first) ::
    (setBits [loss.bitVector]).map fun bit => (loss.frame, loss.first + 1 + bit)

def wireName (nack : PacketNack) : UInt8 × ℕ :=
  (FrameId.lower8Bits nack.frameId, nack.target.wireValue)

/-- Read `count` loss fields. -/
def readLossFields : ℕ → Bytes → Option (List LossField)
  | 0, _ => some []
  | count + 1, frame :: p₀ :: p₁ :: bitVector :: rest =>
    (readLossFields count rest).map (⟨frame, beNat [p₀, p₁], bitVector⟩ :: ·)
  | _ + 1, _ => none

theorem mem_setBits_or {bitVector : UInt8} {k bit : ℕ} (hk : k < 8) :
    bit ∈ setBits [bitVector ||| 1 <<< UInt8.ofNat k] ↔ bit ∈ setBits [bitVector] ∨ bit = k := by
  have hmark := @bitAt_markBit [bitVector] k (by simpa using hk) bit
  rw [← markBit_single hk]
  unfold setBits
  rw [mem_filter, mem_filter, hmark, length_markBit, mem_range, Bool.or_eq_true,
    beq_iff_eq, length_singleton]
  constructor
  · rintro ⟨hlt, hold | hnew⟩
    · exact Or.inl ⟨hlt, hold⟩
    · exact Or.inr hnew
  · rintro (⟨hlt, hold⟩ | rfl)
    · exact ⟨hlt, Or.inl hold⟩
    · exact ⟨by omega, Or.inr rfl⟩

/-- What folding takes, in whatever order the NACKs come: a prefix of them, all
packets of the frame, and the bit vector gains exactly their bits. -/
theorem foldLosses_names (frameId : ℤ) (first : ℕ) (nacks : List PacketNack) (bitVector : UInt8) :
    ∃ folded : List PacketNack, nacks = folded ++ (foldLosses frameId first nacks bitVector).2 ∧
      (∀ nack ∈ folded, nack.frameId = frameId) ∧
      ∀ id, (∃ bit ∈ setBits [(foldLosses frameId first nacks bitVector).1], first + 1 + bit = id) ↔
        (∃ bit ∈ setBits [bitVector], first + 1 + bit = id) ∨
          ∃ nack ∈ folded, nack.target.wireValue = id := by
  induction nacks generalizing bitVector with
  | nil => exact ⟨[], rfl, by simp, by simp [foldLosses]⟩
  | cons nack rest ih =>
    rw [foldLosses]
    split
    · rename_i id htarget
      split
      · rename_i hfits
        obtain ⟨hframe, hpast, hnear⟩ := hfits
        have hk : id.get - first - 1 < 8 := by omega
        obtain ⟨folded, hnacks, hsame, hbits⟩ :=
          ih (bitVector ||| 1 <<< UInt8.ofNat (id.get - first - 1))
        have hwire : nack.target.wireValue = id.get := by rw [htarget]; rfl
        refine ⟨nack :: folded, by rw [cons_append, ← hnacks], ?_, fun other => ?_⟩
        · intro later hlater
          rcases mem_cons.mp hlater with rfl | hlater
          · exact hframe
          · exact hsame later hlater
        · rw [hbits other]
          constructor
          · rintro (⟨bit, hbit, rfl⟩ | ⟨later, hlater, rfl⟩)
            · rcases (mem_setBits_or hk).mp hbit with hold | rfl
              · exact Or.inl ⟨bit, hold, rfl⟩
              · exact Or.inr ⟨nack, mem_cons_self .., by omega⟩
            · exact Or.inr ⟨later, mem_cons_of_mem _ hlater, rfl⟩
          · rintro (⟨bit, hbit, rfl⟩ | ⟨later, hlater, rfl⟩)
            · exact Or.inl ⟨bit, (mem_setBits_or hk).mpr (Or.inl hbit), rfl⟩
            · rcases mem_cons.mp hlater with rfl | hlater
              · exact Or.inl ⟨_, (mem_setBits_or hk).mpr (Or.inr rfl), by omega⟩
              · exact Or.inr ⟨later, hlater, rfl⟩
      · exact ⟨[], rfl, by simp, by simp⟩
    · exact ⟨[], rfl, by simp, by simp⟩

/-- **What the loss fields are**: `count` fields of four bytes, which name
exactly a prefix of the NACKs and leave the rest over, and behind which there is
still room for the smallest ACK vector. -/
structure Written (maxSize held written : ℕ) (nacks : List PacketNack)
    (losses : Bytes × ℕ × List PacketNack) (covered : List PacketNack) (count : ℕ) : Prop where
  split : nacks = covered ++ losses.2.2
  counted : losses.2.1 = written + count
  bounded : written + count ≤ maxLossFields
  length : losses.1.length = 4 * count
  room : count = 0 ∨ held + losses.1.length + (6 + minAckBitvectorOctets) ≤ maxSize
  names : ∀ tail, ∃ fields, readLossFields count (losses.1 ++ tail) = some fields ∧
    ∀ name, name ∈ fields.flatMap LossField.names ↔ name ∈ covered.map wireName

theorem lossFields_written {maxSize held written : ℕ} {nacks : List PacketNack}
    (hwritten : written ≤ maxLossFields) :
    ∃ covered count, Written maxSize held written nacks (lossFields maxSize held written nacks)
      covered count := by
  induction held, written, nacks using lossFields.induct maxSize with
  | case1 held written =>
    rw [lossFields]
    exact ⟨[], 0, rfl, rfl, hwritten, rfl, Or.inl rfl, fun _ => ⟨[], rfl, by simp⟩⟩
  | case2 held written nack rest hfull =>
    rw [lossFields, if_pos hfull]
    exact ⟨[], 0, rfl, rfl, hwritten, rfl, Or.inl rfl, fun _ => ⟨[], rfl, by simp⟩⟩
  | case3 held written nack rest hroom first folded ih =>
    have hlt : written < maxLossFields := lt_of_le_of_ne hwritten fun heq => hroom (Or.inl heq)
    have hfits : held + lossFieldSize + (6 + minAckBitvectorOctets) ≤ maxSize := by
      by_contra hover
      exact hroom (Or.inr (Nat.lt_of_not_le hover))
    obtain ⟨taken, hrest, hsame, hbits⟩ := foldLosses_names nack.frameId first rest 0
    obtain ⟨covered, count, hlater⟩ := ih hlt
    obtain ⟨p₀, p₁, hbytes, hvalue⟩ := exists_beBytes_two (n := first) (by
      have hlost : allPacketsLost = 65535 := rfl
      have hwire : first = nack.target.wireValue := rfl
      rw [hwire]
      cases nack.target with
      | allPackets => decide
      | packet id =>
        have := id.valid
        simp only [NackTarget.wireValue]
        omega)
    rw [lossFields, if_neg hroom]
    change ∃ covered count, Written maxSize held written (nack :: rest)
      (lossField nack.frameId first folded.1 ++
        (lossFields maxSize (held + lossFieldSize) (written + 1) folded.2).1,
        (lossFields maxSize (held + lossFieldSize) (written + 1) folded.2).2) covered count
    generalize lossFields maxSize (held + lossFieldSize) (written + 1) folded.2 = later
      at hlater ⊢
    refine ⟨nack :: taken ++ covered, count + 1, ?_, ?_, ?_, ?_, ?_, fun tail => ?_⟩
    · calc nack :: rest = nack :: (taken ++ folded.2) := by rw [← hrest]
        _ = nack :: (taken ++ (covered ++ later.2.2)) := by rw [← hlater.split]
        _ = nack :: taken ++ covered ++ later.2.2 := by
          simp only [cons_append, append_assoc]
    · have := hlater.counted
      dsimp only
      omega
    · have := hlater.bounded
      omega
    · have := hlater.length
      rw [length_append, lossField, hbytes]
      simp only [cons_append, nil_append, length_cons, length_nil]
      omega
    · right
      have hsize : lossFieldSize = 4 := rfl
      have hlength := hlater.length
      rw [length_append, lossField, hbytes]
      simp only [cons_append, nil_append, length_cons, length_nil]
      rcases hlater.room with hzero | hroom
      · rw [hlength, hzero]
        omega
      · omega
    · obtain ⟨fields, hread, hnames⟩ := hlater.names tail
      refine ⟨⟨FrameId.lower8Bits nack.frameId, first, folded.1⟩ :: fields, ?_, fun name => ?_⟩
      · rw [lossField, hbytes]
        simp only [cons_append, nil_append, readLossFields, hvalue]
        rw [hread]
        rfl
      · have hfirst : name ∈ LossField.names ⟨FrameId.lower8Bits nack.frameId, first, folded.1⟩ ↔
            name ∈ (nack :: taken).map wireName := by
          obtain ⟨frame, id⟩ := name
          have hempty : setBits [(0 : UInt8)] = [] := by decide
          have hid := hbits id
          rw [hempty] at hid
          simp only [not_mem_nil, false_and, exists_false, false_or] at hid
          rw [LossField.names, map_cons, mem_cons, mem_cons]
          refine or_congr Iff.rfl ?_
          rw [mem_map, mem_map]
          constructor
          · rintro ⟨bit, hbit, hname⟩
            obtain ⟨rfl, rfl⟩ := Prod.mk.inj hname
            obtain ⟨later, hlater, hwire⟩ := hid.mp ⟨bit, hbit, rfl⟩
            exact ⟨later, hlater, by rw [wireName, hwire, hsame later hlater]⟩
          · rintro ⟨later, hlater, hname⟩
            obtain ⟨hframe, rfl⟩ := Prod.mk.inj hname
            obtain ⟨bit, hbit, hwire⟩ := hid.mpr ⟨later, hlater, rfl⟩
            refine ⟨bit, hbit, ?_⟩
            rw [← hframe, hsame later hlater]
            exact Prod.ext rfl hwire
        rw [flatMap_cons, mem_append, hfirst, hnames name, ← mem_append,
          ← map_append]

/-! ## The room the ACK vector takes -/

/-- One ACK keeps the vector inside the room, in its legal sizes. -/
theorem setAck_fits {firstFrame : ℤ} {available : ℕ} {state : Bytes × ℕ} (frameId : ℤ)
    (hmod : state.1.length % 4 = 2) (hmax : state.1.length ≤ maxAckBitvectorOctets)
    (hfits : state.1.length ≤ available) :
    (setAck firstFrame available state frameId).1.length % 4 = 2 ∧
      (setAck firstFrame available state frameId).1.length ≤ maxAckBitvectorOctets ∧
      (setAck firstFrame available state frameId).1.length ≤ available := by
  unfold setAck
  dsimp only
  split
  · exact ⟨hmod, hmax, hfits⟩
  · split
    · rename_i hshort
      split
      · exact ⟨hmod, hmax, hfits⟩
      · rename_i hroom
        rw [length_markBit, length_grown hshort]
        have hlegal : grownOctets ((frameId - firstFrame).toNat / 8 + 1) % 4 = 2 := by
          simp only [grownOctets, minAckBitvectorOctets]
          omega
        omega
    · rw [length_markBit]
      exact ⟨hmod, hmax, hfits⟩

/-- **The ACK extension is whole words and stays inside the budget.** -/
theorem ackFields_fits (feedback : Feedback) (maxSize held : ℕ) :
    (ackFields feedback maxSize held).1.length % 4 = 0 ∧
      (ackFields feedback maxSize held).1.length ≤ 260 ∧
      held + (ackFields feedback maxSize held).1.length ≤ max maxSize held := by
  unfold ackFields
  split
  · exact ⟨rfl, Nat.zero_le _, le_max_right ..⟩
  · rename_i hroom
    have hfits : ∀ (acks : List ℤ) (state : Bytes × ℕ), state.1.length % 4 = 2 →
        state.1.length ≤ maxAckBitvectorOctets → state.1.length ≤ maxSize - (held + 6) →
        (acks.foldl (setAck (feedback.checkpoint + 2) (maxSize - (held + 6))) state).1.length % 4 =
            2 ∧
          (acks.foldl (setAck (feedback.checkpoint + 2) (maxSize - (held + 6))) state).1.length ≤
            maxAckBitvectorOctets ∧
          (acks.foldl (setAck (feedback.checkpoint + 2) (maxSize - (held + 6))) state).1.length ≤
            maxSize - (held + 6) := by
      intro acks
      induction acks with
      | nil => exact fun state hmod hmax hle => ⟨hmod, hmax, hle⟩
      | cons id acks ih =>
        intro state hmod hmax hle
        obtain ⟨hmod', hmax', hle'⟩ := @setAck_fits (feedback.checkpoint + 2) _ state id
          hmod hmax hle
        exact ih _ hmod' hmax' hle'
    have hmin : minAckBitvectorOctets = 2 := rfl
    have hmax : maxAckBitvectorOctets = 254 := rfl
    obtain ⟨hmod, hle, havailable⟩ := hfits feedback.acks
      (.replicate minAckBitvectorOctets 0, 0) (by decide) (by decide)
      (by rw [length_replicate]; omega)
    simp only [cst2Identifier, length_append, length_cons, length_nil]
    omega

/-! ## Looking for a Sender Report -/

def ptSenderReport : UInt8 := 200

/-- A Sender Report's identifying fields. -/
structure SenderReport where
  senderSsrc : UInt32
  ntpTimestamp : UInt64
  rtpTimestamp : UInt32
  deriving DecidableEq

/-- The bytes from `start` up to `stop`, if all of them are there. -/
def getRange (bytes : Bytes) (start stop : ℕ) : Option Bytes :=
  if start ≤ stop ∧ stop ≤ bytes.length then some ((bytes.take stop).drop start) else none

def readSenderReport (body : Bytes) : Option SenderReport := do
  let senderSsrc ← getRange body 0 4
  let ntpTimestamp ← getRange body 4 12
  let rtpTimestamp ← getRange body 12 16
  some ⟨.ofNat (beNat senderSsrc), .ofNat (beNat ntpTimestamp), .ofNat (beNat rtpTimestamp)⟩

/-- One turn of the loop: the function returns, or goes on with the rest. -/
inductive Turn where
  | done (report : Option SenderReport)
  | next (rest : Bytes)

/-- One turn of the loop, or nothing where the code indexes outside a slice. -/
def senderReportTurn (rest : Bytes) : Option Turn :=
  match getRange rest 0 4 with
  | none => some (.done none)
  | some header => do
      let version : UInt8 ← header[0]?
      if version >>> 6 ≠ 0b10 then some (.done none)
      else
        let high : UInt8 ← header[2]?
        let low : UInt8 ← header[3]?
        let words := beNat [high, low]
        match getRange rest 4 (4 + words * 4) with
        | none => some (.done none)
        | some body => do
            let packetType : UInt8 ← header[1]?
            if packetType = ptSenderReport then some (.done (readSenderReport body))
            else
              match getRange rest (4 + words * 4) rest.length with
              | none => some (.done none)
              | some rest => some (.next rest)

/-- Find the Sender Report in a compound datagram, in at most `turns` turns. -/
def findSenderReport : ℕ → Bytes → Option (Option SenderReport)
  | 0, _ => none
  | turns + 1, rest =>
    match senderReportTurn rest with
    | none => none
    | some (.done report) => some report
    | some (.next rest) => findSenderReport turns rest

/-- **What one turn does**: give up, or come to the body its header announces.
-/
theorem senderReportTurn_cases (rest : Bytes) :
    senderReportTurn rest = some (.done none) ∨
      ∃ b₀ packetType l₀ l₁ body after, rest = b₀ :: packetType :: l₀ :: l₁ :: (body ++ after) ∧
        body.length = beNat [l₀, l₁] * 4 ∧
        senderReportTurn rest = some (if packetType = ptSenderReport then
          .done (readSenderReport body) else .next after) := by
  match rest with
  | [] | [_] | [_, _] | [_, _, _] => exact Or.inl rfl
  | b₀ :: packetType :: l₀ :: l₁ :: rest =>
    have hheader : getRange (b₀ :: packetType :: l₀ :: l₁ :: rest) 0 4 =
        some [b₀, packetType, l₀, l₁] := by
      rw [getRange, if_pos ⟨Nat.zero_le _, by simp⟩]
      rfl
    by_cases hversion : b₀ >>> 6 ≠ 0b10
    · left
      simp [senderReportTurn, hheader, hversion]
    · by_cases hshort : rest.length < beNat [l₀, l₁] * 4
      · left
        have hbody : getRange (b₀ :: packetType :: l₀ :: l₁ :: rest) 4
            (4 + beNat [l₀, l₁] * 4) = none := by
          rw [getRange, if_neg (by simp only [length_cons]; omega)]
        simp [senderReportTurn, hheader, hbody]
      · right
        have hbody : getRange (b₀ :: packetType :: l₀ :: l₁ :: rest) 4
            (4 + beNat [l₀, l₁] * 4) = some (rest.take (beNat [l₀, l₁] * 4)) := by
          rw [getRange, if_pos ⟨by omega, by simp only [length_cons]; omega⟩, Nat.add_comm]
          rfl
        have hafter : getRange (b₀ :: packetType :: l₀ :: l₁ :: rest)
            (4 + beNat [l₀, l₁] * 4) (b₀ :: packetType :: l₀ :: l₁ :: rest).length =
            some (rest.drop (beNat [l₀, l₁] * 4)) := by
          rw [getRange, if_pos ⟨by simp only [length_cons]; omega, le_rfl⟩,
            take_length, Nat.add_comm]
          rfl
        refine ⟨b₀, packetType, l₀, l₁, rest.take (beNat [l₀, l₁] * 4),
          rest.drop (beNat [l₀, l₁] * 4), by rw [take_append_drop],
          by rw [length_take]; omega, ?_⟩
        by_cases htype : packetType = ptSenderReport
        · subst htype
          simp [senderReportTurn, hheader, hversion, hbody]
        · simp only [length_cons] at hafter
          simp [senderReportTurn, hheader, hversion, hbody, hafter, htype]

/-- **The loop returns on any bytes**, indexing only inside its slices, and what
it finds was read from a stretch of them. -/
theorem findSenderReport_total (datagram : Bytes) {turns : ℕ}
    (hturns : datagram.length / 4 < turns) : ∃ found, findSenderReport turns datagram = some found ∧
      ∀ report, found = some report → ∃ before body after, datagram = before ++ body ++ after ∧
        16 ≤ body.length ∧ readSenderReport body = some report := by
  induction turns generalizing datagram with
  | zero => omega
  | succ turns ih =>
    rw [findSenderReport]
    rcases senderReportTurn_cases datagram with hdone |
      ⟨b₀, packetType, l₀, l₁, body, after, hrest, -, hturn⟩
    · rw [hdone]
      exact ⟨none, rfl, fun _ hreport => nomatch hreport⟩
    · rw [hturn]
      subst hrest
      by_cases htype : packetType = ptSenderReport
      · rw [if_pos htype]
        refine ⟨_, rfl, fun report hreport => ?_⟩
        refine ⟨[b₀, packetType, l₀, l₁], body, after, by simp, ?_, hreport⟩
        by_contra hshort
        have hnone : getRange body 12 16 = none := by
          rw [getRange, if_neg (by omega)]
        rw [readSenderReport, hnone] at hreport
        simp at hreport
      · rw [if_neg htype]
        obtain ⟨found, hfound, hinside⟩ := ih after (by
          simp only [length_cons, length_append] at hturns
          omega)
        refine ⟨found, hfound, fun report hreport => ?_⟩
        obtain ⟨before, inner, later, hafter, hlong, hread⟩ := hinside report hreport
        exact ⟨b₀ :: packetType :: l₀ :: l₁ :: (body ++ before), inner, later,
          by simp [hafter], hlong, hread⟩

theorem findSenderReport_of_walk {packet : Bytes} {parts : List Part} {turns : ℕ}
    (hwalk : walk packet = some parts) (hnone : ∀ part ∈ parts, part.packetType ≠ ptSenderReport)
    (hturns : packet.length / 4 < turns) : findSenderReport turns packet = some none := by
  induction turns generalizing packet parts with
  | zero => omega
  | succ turns ih =>
    rw [findSenderReport]
    rcases senderReportTurn_cases packet with hdone |
      ⟨b₀, packetType, l₀, l₁, body, after, rfl, hlength, hturn⟩
    · rw [hdone]
    · obtain ⟨later, hlater, rfl⟩ : ∃ later, walk after = some later ∧
          ⟨packetType, b₀ &&& 0b00011111, body⟩ :: later = parts := by
        rw [walk] at hwalk
        split at hwalk
        · cases hwalk
        · dsimp only at hwalk
          rw [if_neg (by simp only [length_append]; omega), ← hlength, drop_left,
            take_left] at hwalk
          exact Option.map_eq_some_iff.mp hwalk
      have htype : packetType ≠ ptSenderReport := hnone _ (mem_cons_self ..)
      rw [hturn, if_neg htype]
      refine ih hlater (fun part hpart => hnone part (mem_cons_of_mem _ hpart)) ?_
      simp only [length_cons, length_append] at hturns
      omega

/-! ## The whole packet -/

/-- **Packets are well formed and within budget.**  Whatever the lists, the
packet takes the budget or what it must take if that is more, and whole words of
it; its lengths cover it, with the feedback message last, whose loss fields name
exactly the NACKs that the report does not count as dropped; and it holds no
Sender Report, for which any bytes can be searched. -/
theorem build_wellFormed (feedback : Feedback) (maxSize : ℕ) :
    (build feedback maxSize).1.length ≤ max maxSize (mandatorySize feedback) ∧
      (build feedback maxSize).1.length % 4 = 0 ∧
      (build feedback maxSize).2.lossFieldsWritten ≤ 255 ∧
      (∃ before body losses covered dropped,
        walk (build feedback maxSize).1 =
          some (before ++ [⟨ptPayloadSpecific, subtypeFeedback, body⟩]) ∧
        body[13]? = some (UInt8.ofNat (build feedback maxSize).2.lossFieldsWritten) ∧
        readLossFields (build feedback maxSize).2.lossFieldsWritten (body.drop 16) = some losses ∧
        relevantNacks feedback = covered ++ dropped ∧
        dropped.length = (build feedback maxSize).2.nacksDropped ∧
        ∀ name, name ∈ losses.flatMap LossField.names ↔ name ∈ covered.map wireName) ∧
      (∀ turns, (build feedback maxSize).1.length / 4 < turns →
        findSenderReport turns (build feedback maxSize).1 = some none) ∧
      ∀ (datagram : Bytes) (turns : ℕ), datagram.length / 4 < turns →
        ∃ found, findSenderReport turns datagram = some found ∧
          ∀ report, found = some report → ∃ before body after, datagram = before ++ body ++ after ∧
            16 ≤ body.length ∧ readSenderReport body = some report := by
  have hmandatory := length_preamble feedback
  have hwhole := mandatorySize_mod feedback
  obtain ⟨covered, count, hlosses⟩ := @lossFields_written maxSize
    ((preamble feedback).length + 20) 0 (relevantNacks feedback) (Nat.zero_le _)
  obtain ⟨parts, hwalks, htypes⟩ := walks_preamble feedback
  unfold build
  dsimp only
  obtain ⟨hacksMod, hacksLe, hacksFit⟩ := ackFields_fits feedback maxSize
    ((preamble feedback).length + 20 +
      (lossFields maxSize ((preamble feedback).length + 20) 0 (relevantNacks feedback)).1.length)
  generalize lossFields maxSize ((preamble feedback).length + 20) 0 (relevantNacks feedback) =
    losses at *
  generalize ackFields feedback maxSize ((preamble feedback).length + 20 + losses.1.length) =
    acks at *
  have hlength := hlosses.length
  have hbounded := hlosses.bounded
  have hcounted := hlosses.counted
  have hmax : maxLossFields = 255 := rfl
  have hmin : minAckBitvectorOctets = 2 := rfl
  have hfixed : (feedbackFixed feedback losses.2.1).length = 16 := by
    simp [feedbackFixed, length_ssrcBytes, castIdentifier]
  generalize hbody : feedbackFixed feedback losses.2.1 ++ losses.1 ++ acks.1 = body
  have hbodyLength : body.length = (4 + count + acks.1.length / 4) * 4 := by
    rw [← hbody, length_append, length_append, hfixed, hlength]
    omega
  have hpacket : (preamble feedback ++ header ptPayloadSpecific subtypeFeedback body.length ++
      body).length = mandatorySize feedback + losses.1.length + acks.1.length := by
    rw [length_append, length_append, length_header, hbodyLength, hlength]
    omega
  have hwalk : walk (preamble feedback ++ header ptPayloadSpecific subtypeFeedback body.length ++
      body) = some (parts ++ [⟨ptPayloadSpecific, subtypeFeedback, body⟩]) := by
    have hlast := @walk_header ptPayloadSpecific subtypeFeedback body [] _ (by decide) hbodyLength
      (by omega)
    rw [append_assoc, hwalks, ← append_nil (_ ++ body), hlast, walk]
    rfl
  have hnone : ∀ part ∈ parts ++ [⟨ptPayloadSpecific, subtypeFeedback, body⟩],
      part.packetType ≠ ptSenderReport := by
    intro part hpart hreport
    rcases mem_append.mp hpart with hpart | hpart
    · have htype := htypes part hpart
      rw [hreport] at htype
      exact absurd htype (by decide)
    · rw [mem_singleton.mp hpart] at hreport
      have hne : ptPayloadSpecific ≠ ptSenderReport := by decide
      exact hne hreport
  obtain ⟨fields, hread, hnames⟩ := hlosses.names acks.1
  refine ⟨?_, ?_, by omega, ?_, fun turns => findSenderReport_of_walk hwalk hnone,
    fun datagram turns => findSenderReport_total datagram⟩
  · rw [hpacket]
    rcases hlosses.room with hzero | hroom
    · -- No loss field: the mandatory parts and, if it fits, the vector.
      omega
    · omega
  · rw [hpacket, hlength]
    omega
  · refine ⟨parts, body, fields, covered, losses.2.2, hwalk, ?_, ?_, hlosses.split, rfl, hnames⟩
    · rw [← hbody, append_assoc, getElem?_append_left (by omega), feedbackFixed]
      rfl
    · rw [← hbody, append_assoc, drop_left' hfixed, hcounted, Nat.zero_add]
      exact hread

end Rtcp

end Castaway.Cast
