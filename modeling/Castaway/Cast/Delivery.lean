import Castaway.Cast.Sender
import Castaway.Cast.Window

/-!
# Cast frames come out whole, once and in order

A receiver is fed datagrams of one sender, in any order and with any losses and
duplicates, and asked for frames under any policies.  `Stream` is a run of it
with the log of what it handed out.

## Strategy

Two invariants carry the result.  Every pending collector holds chunks and a
header of the frame it is for (`Collects`), whatever packets it has seen; and
the log accounts for every frame id up to the last one delivered
(`CountsSkipped`).
-/

namespace Castaway.Cast

open List

/-! ## What a collector holds -/

/-- The metadata packet 0 of a frame was sent with.  Thirty-two bits of the
timestamp are on the wire. -/
structure Describes {frameId : ℤ} (frame : SentFrame frameId) (header : FrameHeader) : Prop where
  frameId_eq : header.frameId = frameId
  dependency_eq : header.dependency = (frame.packets.head frame.nonempty).dependency
  referenced_eq : header.referencedFrameId =
    (frame.packets.head frame.nonempty).referencedFrameId
  delay_eq : header.newPlayoutDelayMs = (frame.packets.head frame.nonempty).newPlayoutDelayMs
  timestamp_eq : header.rtpTimestamp % 2 ^ 32 =
    (frame.packets.head frame.nonempty).rtpTimestamp.toNat

/-- A parsed packet is packet `packetId` of the frame, as sent. -/
structure PacketOf {frameId : ℤ} (frame : SentFrame frameId) (packet : CastRtpPacket) : Prop where
  frameId_eq : packet.frameId = frameId
  count_eq : packet.framePacketCount = frame.packets.length
  id_lt : packet.packetId.get < frame.packets.length
  payload_eq : packet.payload = frame.packets[packet.packetId.get].payload
  header : packet.packetId.get = 0 → Describes frame packet.header

/-- A collector holds nothing but parts of the frame. -/
structure Collects {frameId : ℤ} (frame : SentFrame frameId) (collector : FrameCollector) :
    Prop where
  length_eq : ∀ chunks, collector.chunks = some chunks → chunks.length = frame.packets.length
  payload_eq : ∀ chunks (i : ℕ) (hi : i < frame.packets.length) payload,
    collector.chunks = some chunks → chunks[i]? = some (some payload) →
      payload = frame.packets[i].payload
  header : ∀ header, collector.header = some header → Describes frame header

section Collectors

variable {frameId : ℤ} {frame : SentFrame frameId} {collector : FrameCollector}
  {packet : CastRtpPacket}

theorem collects_new : Collects frame (.new frameId) := by
  constructor <;> simp [FrameCollector.new]

theorem Collects.establish (h : Collects frame collector) {count : ℕ}
    (hcount : count = frame.packets.length) : Collects frame (collector.establish count) := by
  unfold FrameCollector.establish
  split
  · exact h
  · refine ⟨?_, ?_, h.header⟩
    · rintro chunks ⟨⟩
      simpa using hcount
    · rintro chunks i hi payload ⟨⟩ hchunk
      rw [getElem?_replicate] at hchunk
      split at hchunk <;> cases hchunk

/-- **A packet of the frame leaves a collector with parts of the frame.** -/
theorem Collects.collect (h : Collects frame collector) (hpacket : PacketOf frame packet)
    (hframe : packet.frameId = collector.frameId)
    (hle : packet.packetId.get ≤ packet.maxPacketId.get) :
    Collects frame (collector.collect packet).1 := by
  rcases FrameCollector.collect_cases hframe hle with
    ⟨chunks, hchunks, hlength, hempty, hcollect⟩ | ⟨hsame, -⟩
  · have hold := h.establish hpacket.count_eq
    rw [hcollect]
    refine ⟨?_, ?_, ?_⟩
    · rintro filled ⟨⟩
      simpa using hlength.trans hpacket.count_eq
    · rintro filled i hi payload ⟨⟩ hchunk
      rw [getElem?_set] at hchunk
      split at hchunk
      · rename_i heq
        subst heq
        split at hchunk
        · cases hchunk
          exact hpacket.payload_eq
        · cases hchunk
      · exact hold.payload_eq chunks i hi payload hchunks hchunk
    · intro header hheader
      simp only [FrameCollector.put] at hheader
      split at hheader
      · rename_i hzero
        cases hheader
        exact hpacket.header (by rw [hzero]; rfl)
      · exact hold.header header hheader
  · rw [hsame]
    exact h

/-- **A complete collector gives the whole frame.** -/
theorem Collects.takeFrame (h : Collects frame collector) (hconsistent : collector.Consistent)
    (hcomplete : collector.isComplete = true) {taken : EncryptedFrame}
    (htake : collector.takeFrame = some taken) :
    Describes frame taken.header ∧ taken.payload = frame.packets.flatMap SentPacket.payload := by
  obtain ⟨chunks, header, hchunks, hheader, hall⟩ := hconsistent.of_isComplete hcomplete
  rw [FrameCollector.takeFrame, if_pos hcomplete, hchunks, hheader] at htake
  cases htake
  refine ⟨h.header header hheader, ?_⟩
  have hfull : chunks = frame.packets.map fun packet => some packet.payload := by
    refine ext_getElem (by simpa using h.length_eq chunks hchunks) ?_
    intro i hi hi'
    rw [length_map] at hi'
    obtain ⟨payload, hpayload⟩ := Option.isSome_iff_exists.mp (hall _ (getElem_mem hi))
    have hchunk : chunks[i]? = some (some payload) := by
      rw [getElem?_eq_getElem hi, hpayload]
    rw [getElem_map, hpayload, h.payload_eq chunks i hi' payload hchunks hchunk]
  rw [hfull]
  simp only [List.reduceOption, filterMap_map, Function.comp_def, id_eq,
    flatMap_def]
  simp

end Collectors

/-! ## What a call does to the collectors -/

namespace CastRtpReceiver

variable {receiver : CastRtpReceiver} {P : ℤ → FrameCollector → Prop}

/-- Every pending collector satisfies `P`. -/
def AllPending (P : ℤ → FrameCollector → Prop) (receiver : CastRtpReceiver) : Prop :=
  ∀ (id : ℤ) (collector : FrameCollector), receiver.pending[id]? = some collector → P id collector

theorem AllPending.advanceCheckpoint (h : receiver.AllPending P) (newCheckpoint : ℤ) :
    (receiver.advanceCheckpoint newCheckpoint).AllPending P := by
  intro id collector hcollector
  simp only [CastRtpReceiver.advanceCheckpoint, getElem?_filter_id] at hcollector
  split at hcollector
  · exact h id collector hcollector
  · cases hcollector

section

variable (h : receiver.AllPending P)
include h

theorem AllPending.extendTo (hnew : ∀ id, P id (.new id))
    (frameId : ℤ) : (receiver.extendTo frameId).AllPending P := by
  intro id collector hcollector
  rw [CastRtpReceiver.extendTo, getElem?_expectFrames] at hcollector
  split at hcollector
  · cases hcollector
    exact hnew id
  · exact h id collector hcollector

theorem AllPending.collectPacket {packet : CastRtpPacket}
    (hcollect : ∀ collector, P packet.frameId collector →
      P packet.frameId (collector.collect packet).1) :
    (receiver.collectPacket packet).1.AllPending P := by
  unfold CastRtpReceiver.collectPacket
  dsimp only
  split
  · exact h
  · rename_i collector hcollector
    have hinsert : ({ receiver with
        pending := receiver.pending.insert packet.frameId (collector.collect packet).1 } :
        CastRtpReceiver).AllPending P := by
      intro id found hfound
      simp only [Std.TreeMap.getElem?_insert, Std.LawfulEqCmp.compare_eq_iff_eq] at hfound
      split at hfound
      · rename_i heq
        cases hfound
        rw [← heq]
        exact hcollect collector (h _ _ hcollector)
      · exact h id found hfound
    split
    · unfold accepted
      dsimp only
      split
      · exact hinsert
      · split
        all_goals
          dsimp only
          split
          · exact AllPending.advanceCheckpoint hinsert packet.frameId
          · exact hinsert
    · exact hinsert
    · exact hinsert

theorem AllPending.receivePacket (hnew : ∀ id, P id (.new id))
    {packet : CastRtpPacket} (hcollect : ∀ collector, P packet.frameId collector →
      P packet.frameId (collector.collect packet).1) :
    (receiver.receivePacket packet).1.AllPending P := by
  unfold CastRtpReceiver.receivePacket
  dsimp only
  split
  · exact h
  · split
    · split
      · exact h
      · exact (h.extendTo hnew packet.frameId).collectPacket hcollect
    · exact h.collectPacket hcollect

theorem AllPending.nextFrame (policy : Consume) :
    (receiver.nextFrame policy).1.AllPending P := by
  have hdropped : ∀ (target : ℤ) (count : ℕ), ({ receiver with
      pending := (dropFrames receiver.pending (FrameId.next receiver.lastDelivered) count).erase
        target } : CastRtpReceiver).AllPending P := by
    intro target count id collector hcollector
    simp only [Std.TreeMap.getElem?_erase, getElem?_dropFrames] at hcollector
    split at hcollector
    · cases hcollector
    · split at hcollector
      · cases hcollector
      · exact h id collector hcollector
  unfold CastRtpReceiver.nextFrame
  split
  · exact h
  · rename_i target hfind
    unfold CastRtpReceiver.deliver
    dsimp only
    split
    · exact hdropped target _
    · split
      · exact @AllPending.advanceCheckpoint
          { receiver with pending := _, lastDelivered := target } P (hdropped target _) target
      · exact hdropped target _

end

end CastRtpReceiver

/-! ## A stream of datagrams -/

/-- The datagram that carries packet `index` of frame `frameId`. -/
def CastSender.datagram (sender : CastSender) (frameId : ℤ) (index : ℕ)
    (hindex : index < (sender.frame frameId).packets.length) (transmission : Transmission) :
    Bytes :=
  (sender.frame frameId).packets[index].datagram sender.ssrc index
    (sender.frame frameId).packets.length transmission

/-- A frame handed out, and the policy it was asked for under. -/
structure Handed where
  policy : Consume
  delivered : Delivered

/-- A receiver fed datagrams of one sender, and what it has handed out so far.
-/
inductive Stream (sender : CastSender) (receiverSsrc : UInt32) :
    CastRtpReceiver → List Handed → Prop
  | start : Stream sender receiverSsrc (.new sender.ssrc receiverSsrc) []
  /-- A datagram arrives; the same one may arrive again, or never. -/
  | datagram {receiver : CastRtpReceiver} {log : List Handed}
      (hstream : Stream sender receiverSsrc receiver log) (frameId : ℤ) (index : ℕ)
      (hindex : index < (sender.frame frameId).packets.length) (transmission : Transmission)
      (hlow : receiver.stream.highestFrameId - 127 ≤ frameId)
      (hhigh : frameId ≤ receiver.stream.highestFrameId + 127) :
      Stream sender receiverSsrc
        (receiver.call (.receive (sender.datagram frameId index hindex transmission))) log
  | nextFrame {receiver : CastRtpReceiver} {log : List Handed}
      (hstream : Stream sender receiverSsrc receiver log) (policy : Consume) :
      Stream sender receiverSsrc (receiver.nextFrame policy).1
        (log ++ (receiver.nextFrame policy).2.toList.map (Handed.mk policy))

/-- The frame ids handed out after `last`, each past the one before by one and
the number skipped. -/
def CountsSkipped : ℤ → List Delivered → Prop
  | _, [] => True
  | last, delivered :: rest =>
    delivered.frame.header.frameId = last + 1 + delivered.skipped ∧
      CountsSkipped delivered.frame.header.frameId rest

/-- What is right about one frame handed out. -/
structure Whole (sender : CastSender) (handed : Handed) : Prop where
  describes : Describes (sender.frame handed.delivered.frame.header.frameId)
    handed.delivered.frame.header
  payload_eq : handed.delivered.frame.payload =
    (sender.frame handed.delivered.frame.header.frameId).packets.flatMap SentPacket.payload
  inOrder : handed.policy = .inOrder → handed.delivered.skipped = 0
  independent : 0 < handed.delivered.skipped →
    handed.delivered.frame.header.dependency ≠ .dependent

/-- The last frame id of a log that starts after `last`. -/
def lastOf (last : ℤ) (log : List Delivered) : ℤ :=
  (log.getLast?.map fun delivered => delivered.frame.header.frameId).getD last

theorem CountsSkipped.concat {last : ℤ} {log : List Delivered} {delivered : Delivered}
    (h : CountsSkipped last log)
    (hnext : delivered.frame.header.frameId = lastOf last log + 1 + delivered.skipped) :
    CountsSkipped last (log ++ [delivered]) := by
  induction log generalizing last with
  | nil => exact ⟨hnext, trivial⟩
  | cons first log ih =>
    refine ⟨h.1, ih h.2 ?_⟩
    cases log with
    | nil => exact hnext
    | cons second log => simpa [lastOf, getLast?_cons] using hnext

/-- Counting the frames skipped puts the frame ids in order. -/
theorem CountsSkipped.sorted {last : ℤ} {log : List Delivered} (h : CountsSkipped last log) :
    (∀ delivered ∈ log, last < delivered.frame.header.frameId) ∧
      (log.map fun delivered => delivered.frame.header.frameId).Pairwise (· < ·) := by
  induction log generalizing last with
  | nil => simp
  | cons first log ih =>
    obtain ⟨hfirst, hrest⟩ := h
    obtain ⟨habove, hpairwise⟩ := ih hrest
    refine ⟨?_, ?_⟩
    · intro delivered hdelivered
      rcases mem_cons.mp hdelivered with rfl | hdelivered
      · omega
      · have := habove delivered hdelivered
        omega
    · rw [map_cons, pairwise_cons]
      refine ⟨?_, hpairwise⟩
      intro id hid
      obtain ⟨delivered, hdelivered, rfl⟩ := mem_map.mp hid
      exact habove delivered hdelivered

/-! ### The packet a datagram parses to -/

theorem CastSender.parse_datagram (sender : CastSender) {stream : CastRtpStream}
    (hssrc : stream.senderSsrc = sender.ssrc) {frameId : ℤ} {index : ℕ}
    (hindex : index < (sender.frame frameId).packets.length) (transmission : Transmission)
    (hlow : stream.highestFrameId - 127 ≤ frameId) (hhigh : frameId ≤ stream.highestFrameId + 127) :
    ∃ packet stream', stream.parse (sender.datagram frameId index hindex transmission) =
      .ok (packet, stream') ∧ PacketOf (sender.frame frameId) packet := by
  obtain ⟨packet, stream', hparse, hframe, hid, hmax, hpayload, hkey, hreferenced, hdelay,
    htimestamp⟩ := ((sender.frame frameId).packets[index]).parse_datagram stream hindex
      (sender.frame frameId).length_le transmission hlow hhigh
  rw [hssrc] at hparse
  subst hid
  refine ⟨packet, stream', hparse, hframe, ?_, hindex, hpayload, ?_⟩
  · rw [CastRtpPacket.framePacketCount, hmax]
    omega
  · intro hzero
    have hhead : (sender.frame frameId).packets.head (sender.frame frameId).nonempty =
        (sender.frame frameId).packets[packet.packetId.get] := by
      simp only [hzero, head_eq_getElem]
    refine ⟨hframe, ?_, ?_, ?_, ?_⟩ <;> rw [hhead]
    · simp only [CastRtpPacket.header, SentPacket.dependency, hkey, hframe, hreferenced]
    · exact hreferenced
    · exact hdelay
    · change packet.rtpTimestamp % 2 ^ 32 = _
      rw [htimestamp, RtpTimestamp.expand, expand_emod]
      exact Int.emod_eq_of_lt (Int.natCast_nonneg _) (by exact_mod_cast UInt32.toNat_lt _)

/-! ### The invariant of a stream -/

/-- What holds of the receiver and the log at every moment. -/
structure StreamInv (sender : CastSender) (receiver : CastRtpReceiver) (log : List Handed) :
    Prop where
  window : receiver.WindowInv
  ssrc_eq : receiver.stream.senderSsrc = sender.ssrc
  collects : receiver.AllPending fun id collector => collector.frameId = id ∧
    Collects (sender.frame id) collector
  whole : ∀ handed ∈ log, Whole sender handed
  counts : CountsSkipped FrameId.leader (log.map Handed.delivered)
  last_eq : receiver.lastDelivered = lastOf FrameId.leader (log.map Handed.delivered)

theorem streamInv_start (sender : CastSender) (receiverSsrc : UInt32) :
    StreamInv sender (.new sender.ssrc receiverSsrc) [] := by
  refine ⟨CastRtpReceiver.windowInv_new _ _, rfl, ?_, by simp, trivial, rfl⟩
  intro id collector hcollector
  simp [CastRtpReceiver.new] at hcollector

section Steps

variable {sender : CastSender} {receiver : CastRtpReceiver} {log : List Handed}

/-- Receiving moves neither the stream's SSRC nor the last frame delivered. -/
theorem receivePacket_frame (receiver : CastRtpReceiver) (packet : CastRtpPacket) :
    (receiver.receivePacket packet).1.stream = receiver.stream ∧
      (receiver.receivePacket packet).1.lastDelivered = receiver.lastDelivered := by
  have hadvance : ∀ (receiver : CastRtpReceiver) (c : Prop) [Decidable c],
      (if c then receiver.advanceCheckpoint packet.frameId else receiver).stream =
          receiver.stream ∧
        (if c then receiver.advanceCheckpoint packet.frameId else receiver).lastDelivered =
          receiver.lastDelivered := by
    intro receiver c _
    split <;> exact ⟨rfl, rfl⟩
  have hcollect : ∀ receiver : CastRtpReceiver,
      (receiver.collectPacket packet).1.stream = receiver.stream ∧
        (receiver.collectPacket packet).1.lastDelivered = receiver.lastDelivered := by
    intro receiver
    unfold CastRtpReceiver.collectPacket CastRtpReceiver.accepted
    dsimp only
    split
    · exact ⟨rfl, rfl⟩
    · split
      · split
        · exact ⟨rfl, rfl⟩
        · rw [(hadvance _ _).1, (hadvance _ _).2]
          split <;> exact ⟨rfl, rfl⟩
      · exact ⟨rfl, rfl⟩
      · exact ⟨rfl, rfl⟩
  unfold CastRtpReceiver.receivePacket
  dsimp only
  split
  · exact ⟨rfl, rfl⟩
  · split
    · split
      · exact ⟨rfl, rfl⟩
      · exact hcollect _
    · exact hcollect _

theorem StreamInv.receivePacket (h : StreamInv sender receiver log) {packet : CastRtpPacket}
    (hpacket : PacketOf (sender.frame packet.frameId) packet)
    (hle : packet.packetId.get ≤ packet.maxPacketId.get) :
    StreamInv sender (receiver.receivePacket packet).1 log := by
  obtain ⟨hstream, hlast⟩ := receivePacket_frame receiver packet
  refine ⟨h.window.receivePacket hle, ?_, ?_, h.whole, h.counts, hlast.trans h.last_eq⟩
  · rw [hstream]
    exact h.ssrc_eq
  · refine h.collects.receivePacket (fun id => ⟨rfl, collects_new⟩) ?_
    rintro collector ⟨hframe, hcollects⟩
    exact ⟨(FrameCollector.frameId_collect hframe.symm hle).trans hframe,
      hcollects.collect hpacket hframe.symm hle⟩

theorem StreamInv.nextFrame (h : StreamInv sender receiver log) (policy : Consume) :
    StreamInv sender (receiver.nextFrame policy).1
      (log ++ (receiver.nextFrame policy).2.toList.map (Handed.mk policy)) := by
  rcases h.window.nextFrame_cases policy with hnone | ⟨target, collector, frame, hcollector,
    hcomplete, hframe, hpast, hlast, hdelivered, hreason⟩
  · rw [hnone]
    simpa using h
  · obtain ⟨-, hcollects⟩ := h.collects _ _ hcollector
    obtain ⟨hdescribes, hpayload⟩ :=
      hcollects.takeFrame (h.window.collectors _ _ hcollector).2 hcomplete hframe
    have hid := hdescribes.frameId_eq
    have hheader : collector.header = some frame.header := by
      rw [FrameCollector.takeFrame, if_pos hcomplete] at hframe
      split at hframe
      · rename_i hheader
        cases hframe
        exact hheader
      · cases hframe
    subst hid
    have hssrc : (receiver.nextFrame policy).1.stream = receiver.stream := by
      unfold CastRtpReceiver.nextFrame CastRtpReceiver.deliver CastRtpReceiver.advanceCheckpoint
      dsimp only
      split
      · rfl
      · split
        · rfl
        · split <;> rfl
    rw [hdelivered]
    simp only [Option.toList_some, map_cons, map_nil]
    refine ⟨h.window.nextFrame policy, hssrc ▸ h.ssrc_eq, h.collects.nextFrame policy, ?_, ?_, ?_⟩
    · intro handed hhanded
      rcases mem_append.mp hhanded with hold | hnew
      · exact h.whole handed hold
      · rw [mem_singleton.mp hnew]
        refine ⟨hdescribes, hpayload, ?_, ?_⟩
        · intro horder
          rcases hreason with himmediate | ⟨hskip, -⟩
          · simp only [himmediate, FrameId.next]
            omega
          · exact absurd (hskip.symm.trans horder) (by decide)
        · intro hskipped
          rcases hreason with himmediate | ⟨-, hindependent⟩
          · simp only [himmediate, FrameId.next] at hskipped
            omega
          · exact hindependent frame.header hheader
    · rw [map_append]
      refine h.counts.concat ?_
      rw [← h.last_eq]
      simp only [FrameId.next]
      omega
    · rw [hlast, map_append]
      simp [lastOf]

end Steps

theorem streamInv_of_stream {sender : CastSender} {receiverSsrc : UInt32}
    {receiver : CastRtpReceiver} {log : List Handed}
    (h : Stream sender receiverSsrc receiver log) : StreamInv sender receiver log := by
  induction h with
  | start => exact streamInv_start sender receiverSsrc
  | datagram hstream frameId index hindex transmission hlow hhigh ih =>
    rename_i receiver log
    obtain ⟨packet, stream', hparse, hpacket⟩ :=
      sender.parse_datagram ih.ssrc_eq hindex transmission hlow hhigh
    obtain ⟨hle, hssrc⟩ := CastRtpStream.parse_spec hparse
    have hid := hpacket.frameId_eq
    subst hid
    rw [CastRtpReceiver.call, CastRtpReceiver.receive, hparse]
    have hmoved : StreamInv sender { receiver with stream := stream' } log :=
      ⟨ih.window.congr rfl rfl rfl rfl, hssrc.trans ih.ssrc_eq, ih.collects, ih.whole, ih.counts,
        ih.last_eq⟩
    exact hmoved.receivePacket hpacket hle
  | nextFrame hstream policy ih => exact ih.nextFrame policy

/-- **Frames come out whole, once and in order.** -/
theorem stream_delivers {sender : CastSender} {receiverSsrc : UInt32}
    {receiver : CastRtpReceiver} {log : List Handed}
    (h : Stream sender receiverSsrc receiver log) :
    (log.map fun handed => handed.delivered.frame.header.frameId).Pairwise (· < ·) ∧
      (∀ handed ∈ log, Whole sender handed) ∧
      CountsSkipped FrameId.leader (log.map Handed.delivered) := by
  have hinv := streamInv_of_stream h
  refine ⟨?_, hinv.whole, hinv.counts⟩
  have hsorted := hinv.counts.sorted.2
  rwa [map_map] at hsorted

/-! ### One frame of two packets -/

/-- A sender whose every frame is a key frame of two packets. -/
def sampleSender : CastSender where
  ssrc := 0x01020304
  frame _ :=
    { packets := [⟨1000, true, none, [], [1, 2], by simp, by decide⟩,
        ⟨1000, true, none, [], [3], by simp, by decide⟩]
      nonempty := by simp
      length_le := by simp [allPacketsLost] }

def sampleTransmission : Transmission := ⟨96, 7, by decide⟩

/-- The two packets of frame 0 in the wrong order. -/
def sampleReceiver : CastRtpReceiver :=
  ((CastRtpReceiver.new sampleSender.ssrc 5).call
    (.receive (sampleSender.datagram 0 1 (by decide) sampleTransmission))).call
    (.receive (sampleSender.datagram 0 0 (by decide) sampleTransmission))

def sampleLog : List Handed :=
  (sampleReceiver.nextFrame .inOrder).2.toList.map (Handed.mk .inOrder)

theorem stream_delivers_sample :
    (sampleLog.map fun handed => handed.delivered.frame.payload) = [[1, 2, 3]] ∧
      (sampleLog.map fun handed => handed.delivered.frame.header.frameId).Pairwise (· < ·) ∧
      (∀ handed ∈ sampleLog, Whole sampleSender handed) ∧
      CountsSkipped FrameId.leader (sampleLog.map Handed.delivered) := by
  refine ⟨by decide +kernel, ?_⟩
  refine @stream_delivers sampleSender 5 _ _ (.nextFrame (.datagram (.datagram .start 0 1 (by decide)
    sampleTransmission (by decide) (by decide)) 0 0 (by decide) sampleTransmission ?_ ?_) .inOrder)
  · decide +kernel
  · decide +kernel

end Castaway.Cast
