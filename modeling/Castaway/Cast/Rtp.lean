import Castaway.Lib.Bytes
import Castaway.Lib.Result
import Mathlib.Data.Int.ModEq
import Mathlib.Data.List.ReduceOption

/-!
# Cast RTP packets and frame reassembly

The parser and the frame collector of `rtp.rs`.  Frame ids and timestamps
arrive truncated, to eight and to thirty-two bits, and are expanded against the
highest value seen; `expand_eq` is what makes that exact inside half the
field's range.  A `PacketId` cannot be the reserved all-packets-lost value.

## Strategy

A collector holds the chunks of one frame.  `Consistent` says what its fields
mean for each other, `collect_cases` what one packet can do to it, and
`takeFrame_eq_some` that a complete collector has a frame to give.
-/

namespace Castaway.Cast

/-! ## Identifiers -/

/-- Re-expand a field truncated to `bits` bits: the largest value with these low
bits that is at most half the field's range above `reference`.  Masking the low
bits off and grafting the received ones on is written as division. -/
def expand (reference : ℤ) (truncated : ℕ) (bits : ℕ) : ℤ :=
  let modulus : ℤ := 2 ^ bits
  let maxPossible := reference + (modulus / 2 - 1)
  let candidate := maxPossible / modulus * modulus + truncated % modulus
  if candidate > maxPossible then candidate - modulus else candidate

/-! A frame's identifier is an integer, expanded from the eight bits the wire
carries. -/

namespace FrameId

def first : ℤ := 0

/-- A frame that never exists, standing for "nothing received yet". -/
def leader : ℤ := -1

/-- The low eight bits, as they appear in an RTP or RTCP header. -/
def lower8Bits (id : ℤ) : UInt8 := UInt8.ofNat (id % 256).toNat

def next (id : ℤ) : ℤ := id + 1

def previous (id : ℤ) : ℤ := id - 1

def expand (id : ℤ) (truncated : UInt8) : ℤ := Cast.expand id truncated.toNat 8

end FrameId

/-- Expand a media timestamp, truncated to 32 bits, against this value. -/
def RtpTimestamp.expand (timestamp : ℤ) (truncated : UInt32) : ℤ :=
  Cast.expand timestamp truncated.toNat 32

/-- The value of half the field's range around the reference that has the given
low bits. -/
theorem expand_eq {reference value : ℤ} {truncated bits : ℕ} (hbits : 1 ≤ bits)
    (hmod : (truncated : ℤ) % 2 ^ bits = value % 2 ^ bits)
    (hlow : reference - 2 ^ bits / 2 ≤ value) (hhigh : value < reference + 2 ^ bits / 2) :
    expand reference truncated bits = value := by
  obtain ⟨half, hhalf⟩ : ∃ half : ℤ, (2 : ℤ) ^ bits = 2 * half := by
    obtain ⟨n, rfl⟩ := Nat.exists_eq_add_of_le hbits
    exact ⟨2 ^ n, by rw [Int.pow_add]; rfl⟩
  have hpos : (0 : ℤ) < 2 ^ bits := Int.pow_pos (by decide)
  rw [hhalf] at hmod hlow hhigh hpos
  simp only [expand, hhalf, hmod]
  rw [Int.mul_ediv_cancel_left _ (by decide)] at hlow hhigh ⊢
  -- Both numbers split into a multiple of the modulus and a remainder.
  have hvalue := Int.mul_ediv_add_emod value (2 * half)
  have hmax := Int.mul_ediv_add_emod (reference + (half - 1)) (2 * half)
  have hvalue₀ := Int.emod_nonneg value hpos.ne'
  have hvalue₁ := Int.emod_lt_of_pos value hpos
  have hmax₀ := Int.emod_nonneg (reference + (half - 1)) hpos.ne'
  have hmax₁ := Int.emod_lt_of_pos (reference + (half - 1)) hpos
  rw [Int.mul_comm (2 * half)] at hvalue hmax
  generalize hq : (reference + (half - 1)) / (2 * half) = q at *
  generalize hr : (reference + (half - 1)) % (2 * half) = r at *
  generalize hv : value / (2 * half) = v at *
  generalize hw : value % (2 * half) = w at *
  -- The quotients agree, or the value's is one less.
  have hle : v ≤ q := by
    by_contra hlt
    have : (q + 1) * (2 * half) ≤ v * (2 * half) :=
      Int.mul_le_mul_of_nonneg_right (by omega) (by omega)
    rw [Int.add_mul] at this
    omega
  have hge : q - 1 ≤ v := by
    by_contra hlt
    have : (v + 1) * (2 * half) ≤ (q - 1) * (2 * half) :=
      Int.mul_le_mul_of_nonneg_right (by omega) (by omega)
    rw [Int.add_mul, Int.sub_mul] at this
    omega
  rcases Int.lt_or_eq_of_le hle with hlt | rfl
  · have hq' : v = q - 1 := by omega
    subst hq'
    rw [Int.sub_mul] at hvalue
    rw [if_pos (by omega)]
    omega
  · rw [if_neg (by omega)]
    omega

/-- Expansion keeps the low bits that were received. -/
theorem expand_emod (reference : ℤ) (truncated bits : ℕ) :
    expand reference truncated bits % 2 ^ bits = truncated % 2 ^ bits := by
  unfold expand
  dsimp only
  split
  · rw [Int.sub_emod_right, Int.add_comm, Int.add_mul_emod_self_right, Int.emod_emod]
  · rw [Int.add_comm, Int.add_mul_emod_self_right, Int.emod_emod]

theorem FrameId.toNat_lower8Bits (id : ℤ) : ((lower8Bits id).toNat : ℤ) = id % 256 := by
  have h₀ := Int.emod_nonneg id (show (256 : ℤ) ≠ 0 by decide)
  have h₁ := Int.emod_lt_of_pos id (show (0 : ℤ) < 256 by decide)
  rw [lower8Bits, UInt8.toNat_ofNat', Nat.mod_eq_of_lt (by omega)]
  exact Int.toNat_of_nonneg h₀

/-- **A frame id within 127 of the reference survives truncation to eight
bits.** -/
theorem FrameId.expand_lower8Bits {reference id : ℤ} (hlow : reference - 128 ≤ id)
    (hhigh : id ≤ reference + 127) : FrameId.expand reference (FrameId.lower8Bits id) = id := by
  refine expand_eq (by decide) ?_ hlow
    (by change id < reference + 128; omega)
  rw [toNat_lower8Bits]
  exact Int.emod_emod_of_dvd id (dvd_refl _)

/-! ## Packets -/

/-- The reserved packet id meaning "none of this frame's packets arrived". -/
def allPacketsLost : ℕ := 0xffff

/-- A packet's index within its frame, which is never the reserved value. -/
structure PacketId where
  get : ℕ
  valid : get < allPacketsLost
  deriving DecidableEq

namespace PacketId

/-- The first packet of a frame, the only one carrying complete frame metadata.
-/
def zero : PacketId := ⟨0, by decide⟩

/-- Construct a packet id from 16 bits, rejecting the reserved value. -/
def new (value : ℕ) : Option PacketId :=
  if h : value < allPacketsLost then some ⟨value, h⟩ else none

@[simp] theorem new_get (id : PacketId) : new id.get = some id := by simp [new, id.valid]

end PacketId

/-- Why a datagram was not a Cast RTP packet. -/
inductive RtpError where
  | tooShort
  | notCastRtp (first : UInt8)
  | badPayloadType (payloadType : UInt8)
  | wrongSsrc (got want : UInt32)
  | reservedMaxPacketId
  | packetIdOutOfRange (packet max : ℕ)
  | truncated
  | badLatencyExtension (size : ℕ)
  deriving DecidableEq, Repr

/-- How a frame depends on earlier frames. -/
inductive Dependency where
  | keyFrame
  | independent
  | dependent
  deriving DecidableEq, Repr

structure CastRtpPacket where
  payloadType : UInt8
  sequenceNumber : ℕ
  rtpTimestamp : ℤ
  isKeyFrame : Bool
  frameId : ℤ
  packetId : PacketId
  maxPacketId : PacketId
  referencedFrameId : ℤ
  newPlayoutDelayMs : Option ℕ
  payload : Bytes
  deriving DecidableEq

def CastRtpPacket.framePacketCount (packet : CastRtpPacket) : ℕ := packet.maxPacketId.get + 1

structure CastRtpStream where
  senderSsrc : UInt32
  highestFrameId : ℤ := FrameId.first
  lastTimestamp : ℤ := 0
  deriving DecidableEq

/-- Cast's payload types, out of RTP's dynamic range. -/
def isAssignedPayloadType (payloadType : UInt8) : Bool :=
  (96 ≤ payloadType && payloadType ≤ 104) || payloadType == 127

def adaptiveLatencyExtType : ℕ := 1

/-- Skip `count` extensions, keeping the last playout delay any of them asked
for. -/
def parseExtensions : ℕ → Option ℕ → Bytes → Except RtpError (Option ℕ × Bytes)
  | 0, delay, rest => .ok (delay, rest)
  | count + 1, delay, b₀ :: b₁ :: rest =>
    let typeAndSize := beNat [b₀, b₁]
    let extType := typeAndSize / 1024
    let extSize := typeAndSize % 1024
    if rest.length < extSize then .error .truncated
    else if extType = adaptiveLatencyExtType then
      if extSize ≠ 2 then .error (.badLatencyExtension extSize)
      else parseExtensions count (some (beNat (rest.take 2))) (rest.drop extSize)
    else parseExtensions count delay (rest.drop extSize)
  | _ + 1, _, _ => .error .truncated

/-- The frame a packet refers to, and what follows in the packet.  Without an
explicit reference a key frame stands alone and any other frame is assumed to
depend on its predecessor. -/
def parseReference (frameId : ℤ) (isKeyFrame hasReference : Bool) (rest : Bytes) :
    Except RtpError (ℤ × Bytes) :=
  if hasReference then
    match rest with
    | byte :: rest => .ok (FrameId.expand frameId byte, rest)
    | [] => .error .truncated
  else if isKeyFrame then .ok (frameId, rest)
  else .ok (FrameId.previous frameId, rest)

/-- Parse one datagram.  The reference points for expansion advance on a fully
valid packet only, so the stream is returned inside the `Except`. -/
def CastRtpStream.parse (stream : CastRtpStream) (buf : Bytes) :
    Except RtpError (CastRtpPacket × CastRtpStream) :=
  match buf with
  | b₀ :: b₁ :: b₂ :: b₃ :: b₄ :: b₅ :: b₆ :: b₇ :: b₈ :: b₉ :: b₁₀ :: b₁₁ :: b₁₂ :: b₁₃ :: b₁₄ ::
      b₁₅ :: b₁₆ :: b₁₇ :: rest =>
      if b₀ ≠ 0b10000000 then .error (.notCastRtp b₀)
      else
        let payloadType := b₁ &&& 0b01111111
        if !isAssignedPayloadType payloadType then .error (.badPayloadType payloadType)
        else
          let rtpTimestamp := RtpTimestamp.expand stream.lastTimestamp (.ofNat (beNat [b₄, b₅, b₆, b₇]))
          let ssrc : UInt32 := .ofNat (beNat [b₈, b₉, b₁₀, b₁₁])
          if ssrc ≠ stream.senderSsrc then .error (.wrongSsrc ssrc stream.senderSsrc)
          else
            let isKeyFrame := decide (b₁₂ &&& 0b10000000 ≠ 0)
            let hasReference := decide (b₁₂ &&& 0b01000000 ≠ 0)
            let extensionCount := (b₁₂ &&& 0b00111111).toNat
            let frameId := FrameId.expand stream.highestFrameId b₁₃
            let rawPacketId := beNat [b₁₄, b₁₅]
            let rawMaxPacketId := beNat [b₁₆, b₁₇]
            match PacketId.new rawMaxPacketId with
            | none => .error .reservedMaxPacketId
            | some maxPacketId =>
              if rawPacketId > rawMaxPacketId then
                .error (.packetIdOutOfRange rawPacketId rawMaxPacketId)
              else
                match PacketId.new rawPacketId with
                | none => .error .reservedMaxPacketId
                | some packetId => do
                    let (referencedFrameId, rest) ←
                      parseReference frameId isKeyFrame hasReference rest
                    let (newPlayoutDelayMs, payload) ← parseExtensions extensionCount none rest
                    .ok ({ payloadType
                           sequenceNumber := beNat [b₂, b₃]
                           rtpTimestamp, isKeyFrame, frameId, packetId, maxPacketId
                           referencedFrameId, newPlayoutDelayMs, payload },
                      { stream with
                        lastTimestamp := rtpTimestamp
                        highestFrameId := max stream.highestFrameId frameId })
  | _ => .error .tooShort

/-- A parsed packet lies within its frame, and the stream keeps its SSRC. -/
theorem CastRtpStream.parse_spec {stream stream' : CastRtpStream} {buf : Bytes}
    {packet : CastRtpPacket} (h : stream.parse buf = .ok (packet, stream')) :
    packet.packetId.get ≤ packet.maxPacketId.get ∧ stream'.senderSsrc = stream.senderSsrc := by
  have hnew : ∀ {value : ℕ} {id : PacketId}, PacketId.new value = some id → id.get = value := by
    intro value id hid
    unfold PacketId.new at hid
    split at hid <;> cases hid
    rfl
  unfold parse at h
  split at h
  · dsimp only at h
    split at h
    · cases h
    · split at h
      · cases h
      · split at h
        · cases h
        · split at h
          · cases h
          · rename_i maxPacketId hmax
            split at h
            · cases h
            · rename_i hle
              split at h
              · cases h
              · rename_i packetId hid
                obtain ⟨⟨referenced, rest⟩, -, h⟩ := bind_eq_ok.mp h
                obtain ⟨⟨delay, payload⟩, -, h⟩ := bind_eq_ok.mp h
                cases h
                rw [← hnew hmax, ← hnew hid] at hle
                exact ⟨not_lt.mp hle, rfl⟩
  · cases h

/-! ## Retransmission requests -/

/-- What a NACK asks the sender to retransmit. -/
inductive NackTarget where
  | allPackets
  | packet (id : PacketId)
  deriving DecidableEq

/-- The 16-bit value this target serializes to in RTCP feedback. -/
def NackTarget.wireValue : NackTarget → ℕ
  | allPackets => allPacketsLost
  | packet id => id.get

/-- A request to retransmit part of a frame. -/
structure PacketNack where
  frameId : ℤ
  target : NackTarget
  deriving DecidableEq

/-! ## Frames -/

/-- Frame metadata, taken from packet 0. -/
structure FrameHeader where
  frameId : ℤ
  dependency : Dependency
  referencedFrameId : ℤ
  rtpTimestamp : ℤ
  newPlayoutDelayMs : Option ℕ
  deriving DecidableEq

/-- A complete frame: metadata and the concatenated, still-encrypted payload. -/
structure EncryptedFrame where
  header : FrameHeader
  payload : Bytes
  deriving DecidableEq

/-- Whether a packet added anything to a frame. -/
inductive Accepted where
  | new
  | duplicate
  deriving DecidableEq

/-- Why a packet could not be added to a frame. -/
inductive CollectError where
  | wrongFrame (want got : ℤ)
  | packetCountMismatch (established got : ℕ)
  deriving DecidableEq

/-- The metadata packet 0 carries. -/
def CastRtpPacket.header (packet : CastRtpPacket) : FrameHeader where
  frameId := packet.frameId
  dependency :=
    if packet.isKeyFrame then .keyFrame
    else if packet.frameId = packet.referencedFrameId then .independent
    else .dependent
  referencedFrameId := packet.referencedFrameId
  rtpTimestamp := packet.rtpTimestamp
  newPlayoutDelayMs := packet.newPlayoutDelayMs

/-- Accumulates the packets of a single frame. -/
structure FrameCollector where
  frameId : ℤ
  header : Option FrameHeader := none
  /-- `none` until the first packet reveals the count. -/
  chunks : Option (List (Option Bytes)) := none
  missing : ℕ := 0
  deriving DecidableEq

namespace FrameCollector

def new (frameId : ℤ) : FrameCollector := { frameId }

def isComplete (collector : FrameCollector) : Bool :=
  collector.chunks.isSome && collector.missing == 0

/-- Put a packet in its place among the established chunks. -/
def fill (collector : FrameCollector) (chunks : List (Option Bytes)) (packet : CastRtpPacket) :
    FrameCollector × Except CollectError Accepted :=
  let index := packet.packetId.get
  match chunks[index]? with
  | none => (collector, .error (.packetCountMismatch chunks.length (index + 1)))
  | some (some _) => (collector, .ok .duplicate)
  | some none =>
    ({ collector with
        chunks := some (chunks.set index (some packet.payload))
        missing := collector.missing - 1
        header := if packet.packetId = .zero then some packet.header else collector.header },
      .ok .new)

def collect (collector : FrameCollector) (packet : CastRtpPacket) :
    FrameCollector × Except CollectError Accepted :=
  if packet.frameId ≠ collector.frameId then
    (collector, .error (.wrongFrame collector.frameId packet.frameId))
  else
    let count := packet.framePacketCount
    match collector.chunks with
    | some chunks =>
      if chunks.length ≠ count then
        (collector, .error (.packetCountMismatch chunks.length count))
      else collector.fill chunks packet
    | none =>
      let chunks := List.replicate count none
      ({ collector with missing := count, chunks := some chunks } : FrameCollector).fill chunks
        packet

def missingPackets (collector : FrameCollector) : List PacketNack :=
  match collector.chunks with
  | none => [⟨collector.frameId, .allPackets⟩]
  | some chunks =>
    if collector.missing = 0 then []
    else if collector.missing ≥ chunks.length then [⟨collector.frameId, .allPackets⟩]
    else
      (chunks.zipIdx.filter fun entry => entry.1.isNone).filterMap fun entry =>
        (PacketId.new entry.2).map fun id => ⟨collector.frameId, .packet id⟩

/-- Take the assembled frame, if every packet has arrived. -/
def takeFrame (collector : FrameCollector) : Option EncryptedFrame :=
  if collector.isComplete then
    match collector.chunks, collector.header with
    | some chunks, some header => some ⟨header, chunks.reduceOption.flatten⟩
    | _, _ => none
  else none

/-! ### What a collector's fields say about each other -/

/-- The counters and the header agree with the chunks. -/
structure Consistent (collector : FrameCollector) : Prop where
  nonempty : ∀ chunks, collector.chunks = some chunks → 0 < chunks.length
  length_le : ∀ chunks, collector.chunks = some chunks → chunks.length ≤ allPacketsLost
  missing_eq : ∀ chunks, collector.chunks = some chunks →
    collector.missing = chunks.countP Option.isNone
  header_isSome : ∀ chunks payload, collector.chunks = some chunks →
    chunks[0]? = some (some payload) → collector.header.isSome

theorem consistent_new (frameId : ℤ) : (new frameId).Consistent := by
  constructor <;> simp [new]

/-- The collector once the number of packets is known. -/
def establish (collector : FrameCollector) (count : ℕ) : FrameCollector :=
  match collector.chunks with
  | some _ => collector
  | none => { collector with missing := count, chunks := some (.replicate count none) }

variable {collector : FrameCollector}

theorem Consistent.establish (h : collector.Consistent) {count : ℕ}
    (hpos : 0 < count) (hcount : count ≤ allPacketsLost) :
    (collector.establish count).Consistent := by
  unfold FrameCollector.establish
  split
  · exact h
  · constructor <;> rintro chunks
    · rintro ⟨⟩
      simpa using hpos
    · rintro ⟨⟩
      simpa using hcount
    · rintro ⟨⟩
      simp [List.countP_replicate]
    · rintro payload ⟨⟩ hfirst
      rw [List.getElem?_replicate] at hfirst
      split at hfirst <;> simp at hfirst

def put (collector : FrameCollector) (chunks : List (Option Bytes)) (packet : CastRtpPacket) :
    FrameCollector :=
  { collector with
    chunks := some (chunks.set packet.packetId.get (some packet.payload))
    missing := collector.missing - 1
    header := if packet.packetId = .zero then some packet.header else collector.header }

theorem countP_isNone_set {chunks : List (Option Bytes)} {i : ℕ} (hi : chunks[i]? = some none)
    (payload : Bytes) :
    (chunks.set i (some payload)).countP Option.isNone = chunks.countP Option.isNone - 1 := by
  obtain ⟨hbound, hnone⟩ := List.getElem?_eq_some_iff.mp hi
  rw [List.countP_set hbound, hnone]
  simp

variable {packet : CastRtpPacket}

theorem Consistent.put {chunks : List (Option Bytes)}
    (h : collector.Consistent) (hchunks : collector.chunks = some chunks)
    (hempty : chunks[packet.packetId.get]? = some none) :
    (collector.put chunks packet).Consistent := by
  constructor <;> rintro filled
  · rintro ⟨⟩
    simpa using h.nonempty chunks hchunks
  · rintro ⟨⟩
    simpa using h.length_le chunks hchunks
  · rintro ⟨⟩
    simp only [FrameCollector.put, h.missing_eq chunks hchunks]
    exact (countP_isNone_set hempty packet.payload).symm
  · rintro payload ⟨⟩ hfirst
    simp only [FrameCollector.put]
    split
    · rfl
    · rename_i hid
      have hne : packet.packetId.get ≠ 0 := by
        intro hzero
        apply hid
        cases hpacket : packet.packetId
        simp_all [PacketId.zero]
      rw [List.getElem?_set_ne hne] at hfirst
      exact h.header_isSome chunks payload hchunks hfirst

/-- **What one packet does to a collector**: it fills a hole, or it changes
nothing. -/
theorem collect_cases (hframe : packet.frameId = collector.frameId)
    (hpacket : packet.packetId.get ≤ packet.maxPacketId.get) :
    (∃ chunks, (collector.establish packet.framePacketCount).chunks = some chunks ∧
      chunks.length = packet.framePacketCount ∧ chunks[packet.packetId.get]? = some none ∧
      collector.collect packet =
        ((collector.establish packet.framePacketCount).put chunks packet, .ok .new)) ∨
    (collector.collect packet).1 = collector ∧ (collector.collect packet).2 ≠ .ok .new := by
  unfold collect
  rw [if_neg (not_not.mpr hframe)]
  cases hchunks : collector.chunks with
  | none =>
    left
    refine ⟨.replicate packet.framePacketCount none, ?_, by simp, ?_, ?_⟩
    · simp only [establish, hchunks]
    · rw [List.getElem?_replicate_of_lt (by rw [CastRtpPacket.framePacketCount]; omega)]
    · simp only [fill, establish, hchunks]
      rw [List.getElem?_replicate_of_lt (by rw [CastRtpPacket.framePacketCount]; omega)]
      rfl
  | some chunks =>
    dsimp only
    split
    · exact Or.inr ⟨rfl, by simp⟩
    · rename_i hlength
      cases hchunk : chunks[packet.packetId.get]? with
      | none => exact Or.inr (by simp [fill, hchunk])
      | some chunk =>
        cases chunk with
        | some payload => exact Or.inr (by simp [fill, hchunk])
        | none =>
          refine Or.inl ⟨chunks, ?_, not_not.mp hlength, hchunk, ?_⟩
          · simp only [establish, hchunks]
          · simp only [fill, hchunk, establish, hchunks]
            rfl

theorem Consistent.collect (h : collector.Consistent) (hframe : packet.frameId = collector.frameId)
    (hpacket : packet.packetId.get ≤ packet.maxPacketId.get) :
    (collector.collect packet).1.Consistent := by
  rcases collect_cases hframe hpacket with ⟨chunks, hchunks, -, hempty, hcollect⟩ | ⟨hsame, -⟩
  · rw [hcollect]
    refine (h.establish (Nat.succ_pos _) ?_).put hchunks hempty
    exact packet.maxPacketId.valid
  · rw [hsame]
    exact h

@[simp] theorem frameId_establish (collector : FrameCollector) (count : ℕ) :
    (collector.establish count).frameId = collector.frameId := by
  unfold establish
  split <;> rfl

theorem frameId_collect (hframe : packet.frameId = collector.frameId)
    (hpacket : packet.packetId.get ≤ packet.maxPacketId.get) :
    (collector.collect packet).1.frameId = collector.frameId := by
  rcases collect_cases hframe hpacket with ⟨chunks, -, -, -, hcollect⟩ | ⟨hsame, -⟩
  · rw [hcollect]
    exact frameId_establish collector _
  · rw [hsame]

/-! ### Complete frames -/

theorem Consistent.of_isComplete (h : collector.Consistent)
    (hcomplete : collector.isComplete = true) :
    ∃ chunks header, collector.chunks = some chunks ∧ collector.header = some header ∧
      ∀ chunk ∈ chunks, chunk.isSome := by
  simp only [isComplete, Bool.and_eq_true, beq_iff_eq] at hcomplete
  obtain ⟨hsome, hmissing⟩ := hcomplete
  obtain ⟨chunks, hchunks⟩ := Option.isSome_iff_exists.mp hsome
  have hall : ∀ chunk ∈ chunks, chunk.isSome := by
    rw [h.missing_eq chunks hchunks, List.countP_eq_zero] at hmissing
    intro chunk hchunk
    simpa [Option.isSome_iff_ne_none] using hmissing chunk hchunk
  have hpos := h.nonempty chunks hchunks
  obtain ⟨payload, hpayload⟩ := Option.isSome_iff_exists.mp (hall _ (List.getElem_mem hpos))
  have hfirst : chunks[0]? = some (some payload) := by
    rw [List.getElem?_eq_getElem hpos, hpayload]
  obtain ⟨header, hheader⟩ :=
    Option.isSome_iff_exists.mp (h.header_isSome chunks payload hchunks hfirst)
  exact ⟨chunks, header, hchunks, hheader, hall⟩

/-- **A complete collector has a frame to give.** -/
theorem Consistent.takeFrame_eq_some (h : collector.Consistent)
    (hcomplete : collector.isComplete = true) : ∃ frame, collector.takeFrame = some frame := by
  obtain ⟨chunks, header, hchunks, hheader, -⟩ := h.of_isComplete hcomplete
  exact ⟨⟨header, chunks.reduceOption.flatten⟩, by
    rw [takeFrame, if_pos hcomplete, hchunks, hheader]⟩

end FrameCollector

end Castaway.Cast
