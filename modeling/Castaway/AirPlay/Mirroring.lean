import Castaway.AirPlay.Mirror
import Mathlib.Algebra.BigOperators.Group.List.Basic

/-!
# Mirroring over any cut of the connection

A sender's messages, as it means them: NAL units, configuration records, and
payloads nobody reads.  `wires` is what it writes, one keystream running through
the video payloads.  What the receiver's state must be after some messages is
said of the messages alone (`stateAfter`), and so is what each message puts out
(`outputsAt`).

## Strategy

The step lemma `next_wire` says that one round of the receiver follows them.
**The headline result** is `feedChunks_wires`.
-/

namespace Castaway.AirPlay

open List

/-! ## The messages of a sender -/

/-- A NAL unit.  Both codecs reserve the first bit. -/
structure Nal where
  head : UInt8
  body : Bytes
  reserved : head &&& 0x80 = 0
  fits : body.length + 1 < 256 ^ 4

namespace Nal

def bytes (nal : Nal) : Bytes := nal.head :: nal.body

def avcc (nal : Nal) : Bytes := beBytes 4 nal.bytes.length ++ nal.bytes

def annexB (nal : Nal) : Bytes := startCode ++ nal.bytes

end Nal

/-- A record that holds parameter sets for the codec it names. -/
structure ConfigRecord where
  bytes : Bytes
  sets : Bytes
  parses : parameterSets (codecOf bytes) bytes = .ok sets

/-- What a message carries. -/
inductive Content where
  | video (nals : List Nal)
  | config (record : ConfigRecord)
  | heartbeat (payload : Bytes)
  | stats (payload : Bytes)

namespace Content

def kind : Content → UInt8
  | video _ => PayloadType.video
  | config _ => PayloadType.codecConfig
  | heartbeat _ => PayloadType.heartbeat
  | stats _ => PayloadType.stats

def payload : Content → Bytes
  | video nals => nals.flatMap Nal.avcc
  | config record => record.bytes
  | heartbeat payload => payload
  | stats payload => payload

/-- How much of the keystream the payload is under. -/
def videoBytes : Content → ℕ
  | video nals => (nals.flatMap Nal.avcc).length
  | _ => 0

end Content

/-- A message.  The bytes of the header that nobody reads are whatever they are.
-/
structure Message where
  content : Content
  timestamp : UInt64
  flags : UInt16
  geometry : Geometry
  gap : UInt8
  middle : Bytes
  tail : Bytes
  fits : content.payload.length < 256 ^ 4
  middle_length : middle.length = 32
  tail_length : tail.length = 64

namespace Message

def suspending (message : Message) : Bool := (message.flags &&& flagSuspend) != 0

/-- The 128 bytes in front of the payload. -/
def header (message : Message) : Bytes :=
  leBytes 4 message.content.payload.length ++ ([message.content.kind, message.gap] ++
    (putU16Le message.flags ++ (leBytes 8 message.timestamp.toNat ++
      (leBytes 4 message.geometry.source.1.toNat ++ (leBytes 4 message.geometry.source.2.toNat ++
        (message.middle ++ (leBytes 4 message.geometry.encoded.1.toNat ++
          (leBytes 4 message.geometry.encoded.2.toNat ++ message.tail))))))))

/-- The payload as it is sent, where `offset` of the keystream has been used. -/
def sent (keystream : ℕ → UInt8) (offset : ℕ) (message : Message) : Bytes :=
  match message.content with
  | .video nals => xorFrom keystream offset (nals.flatMap Nal.avcc)
  | content => content.payload

end Message

/-- The bytes of all video payloads in `messages`. -/
def videoBytes (messages : List Message) : ℕ :=
  (messages.map fun message => message.content.videoBytes).sum

/-- The bytes of each of `messages`, sent after `before`. -/
def wiresFrom (keystream : ℕ → UInt8) : (before messages : List Message) → List Bytes
  | _, [] => []
  | before, message :: messages =>
    (message.header ++ message.sent keystream (videoBytes before)) ::
      wiresFrom keystream (before ++ [message]) messages

/-- What the sender of `messages` writes: one continuous keystream. -/
def wires (keystream : ℕ → UInt8) (messages : List Message) : List Bytes :=
  wiresFrom keystream [] messages

/-! ## What the messages mean to a receiver -/

/-- What a message leaves for the next access unit. -/
def Message.pends (pending : Option (UInt64 × Bytes)) (message : Message) :
    Option (UInt64 × Bytes) :=
  match message.content with
  | .video _ => none
  | .config record => some (message.timestamp, record.sets)
  | _ => pending

/-- The parameter sets that no access unit has followed. -/
def pendingAfter (before : List Message) : Option (UInt64 × Bytes) :=
  before.foldl Message.pends none

def Message.videoTimestamp? (message : Message) : Option UInt64 :=
  match message.content with
  | .video _ => some message.timestamp
  | _ => none

/-- The origin: the first access unit sets it if nothing else has. -/
def originAfter (origin : StreamOrigin) (before : List Message) : StreamOrigin :=
  origin.or (before.filterMap Message.videoTimestamp?).head?

def suspendedAfter (before : List Message) : Bool :=
  (before.getLast?.map Message.suspending).getD false

def Message.codec? (message : Message) : Option MirrorCodec :=
  match message.content with
  | .config record => some (codecOf record.bytes)
  | _ => none

def codecAfter (before : List Message) : Option MirrorCodec :=
  (before.filterMap Message.codec?).getLast?

/-- The state of a receiver that has had the messages `before`. -/
def stateAfter (keystream : ℕ → UInt8) (origin : StreamOrigin) (before : List Message) :
    MirrorStream where
  cipher := ⟨keystream, videoBytes before⟩
  pendingParameterSets := pendingAfter before
  origin := originAfter origin before
  suspended := suspendedAfter before
  codec := codecAfter before

/-- What is put out when the flag changes. -/
def suspendOutputs (was suspending : Bool) : List MirrorOutput :=
  match was, suspending with
  | false, true => [.suspend]
  | true, false => [.resume]
  | _, _ => []

/-- The parameter sets in front of an access unit with this timestamp. -/
def prependedSets (pending : Option (UInt64 × Bytes)) (timestamp : UInt64) : Bytes :=
  match pending with
  | some (ts, sets) => if ts = timestamp then sets else []
  | none => []

def frameOf (origin : StreamOrigin) (before : List Message) (timestamp : UInt64)
    (nals : List Nal) : Core.EncodedFrame where
  videoCodec := some ((codecAfter before).getD .h264).toVideoCodec
  audioCodec := none
  pts := timestamp.toNat - ((originAfter origin before).getD timestamp).toNat
  keyframe := nals.any fun nal => isIdr ((codecAfter before).getD .h264) nal.head
  data := prependedSets (pendingAfter before) timestamp ++ nals.flatMap Nal.annexB

def contentOutputs (origin : StreamOrigin) (before : List Message) (message : Message) :
    List MirrorOutput :=
  match message.content with
  | .video nals => [.frame (frameOf origin before message.timestamp nals)]
  | .config _ => [.geometry message.geometry]
  | _ => []

/-- What a message puts out after `before`. -/
def outputsAt (origin : StreamOrigin) (before : List Message) (message : Message) :
    List MirrorOutput :=
  suspendOutputs (suspendedAfter before) message.suspending ++
    contentOutputs origin before message

def outputsFrom (origin : StreamOrigin) : (before messages : List Message) →
    List (List MirrorOutput)
  | _, [] => []
  | before, message :: messages =>
    outputsAt origin before message :: outputsFrom origin (before ++ [message]) messages

/-- What each of `messages` puts out. -/
def outputs (origin : StreamOrigin) (messages : List Message) : List (List MirrorOutput) :=
  outputsFrom origin [] messages

/-! ## One message on the wire -/

variable {keystream : ℕ → UInt8} {origin : StreamOrigin} {before messages : List Message}
  {message : Message}

@[simp] theorem length_xorFrom (offset : ℕ) (data : Bytes) :
    (xorFrom keystream offset data).length = data.length := by
  induction data generalizing offset with
  | nil => rfl
  | cons b rest ih => rw [xorFrom, length_cons, ih, length_cons]

/-- Decrypting at the offset of the encryption gives the payload back. -/
@[simp] theorem xorFrom_xorFrom (offset : ℕ) (data : Bytes) :
    xorFrom keystream offset (xorFrom keystream offset data) = data := by
  induction data generalizing offset with
  | nil => rfl
  | cons b rest ih => rw [xorFrom, xorFrom, ih, UInt8.xor_assoc, UInt8.xor_self, UInt8.xor_zero]

/-- The lengths in front of NAL units become start codes. -/
theorem toAnnexB_avcc (nals : List Nal) (codec : MirrorCodec) :
    toAnnexB (nals.flatMap Nal.avcc) codec =
      .ok (nals.flatMap Nal.annexB, nals.any fun nal => isIdr codec nal.head) := by
  induction nals with
  | nil => rw [flatMap_nil, toAnnexB]; rfl
  | cons nal nals ih =>
    obtain ⟨b₀, b₁, b₂, b₃, hbytes, hlength⟩ :=
      exists_beBytes_four (n := nal.bytes.length) (by simpa [Nal.bytes] using nal.fits)
    have hlong : ¬ (nal.bytes ++ nals.flatMap Nal.avcc).length < nal.bytes.length := by
      rw [length_append]
      omega
    have hreserved : ((nal.head &&& 0x80) != 0) = false := by rw [nal.reserved]; rfl
    have hfirst : (nal.bytes ++ nals.flatMap Nal.avcc).head? = some nal.head := rfl
    rw [flatMap_cons, Nal.avcc, hbytes, append_assoc]
    simp only [cons_append, nil_append]
    rw [toAnnexB]
    simp only [hlength, if_neg hlong, hfirst, hreserved, drop_left, take_left, ih,
      ok_bind, Bool.false_eq_true, if_false]
    rfl

theorem length_header (message : Message) : message.header.length = headerLen := by
  simp [Message.header, message.middle_length, message.tail_length, headerLen]

theorem length_sent (offset : ℕ) :
    (message.sent keystream offset).length = message.content.payload.length := by
  rw [Message.sent]
  cases message.content <;> simp [Content.payload]

theorem parse_header (message : Message) :
    Header.parse message.header = .ok ⟨message.content.payload.length, message.content.kind,
      message.suspending, message.timestamp, message.geometry⟩ := by
  have hlong : ¬ message.header.length < headerLen := by rw [length_header]; omega
  have htake : message.header.take headerLen = message.header := by
    rw [← length_header message, take_length]
  have hskip (pre post : Bytes) (at_ width : ℕ) (h : pre.length ≤ at_) :
      Header.field (pre ++ post) at_ width = Header.field post (at_ - pre.length) width := by
    rw [Header.field, Header.field, drop_append, drop_of_length_le h, nil_append]
  have hcons (b : UInt8) (post : Bytes) (at_ width : ℕ) (h : 1 ≤ at_) :
      Header.field (b :: post) at_ width = Header.field post (at_ - 1) width :=
    hskip [b] post at_ width h
  have hread (n width : ℕ) (post : Bytes) (h : n < 256 ^ width) :
      Header.field (leBytes width n ++ post) 0 width = n := by
    rw [Header.field, drop_zero, take_left' (length_leBytes width n), leNat_leBytes h]
  have hword (x : UInt32) : x.toNat < 256 ^ 4 := x.toNat_lt
  have hstamp : message.timestamp.toNat < 256 ^ 8 := message.timestamp.toNat_lt
  have hlength : Header.field message.header 0 4 = message.content.payload.length :=
    hread _ _ _ message.fits
  have htimestamp : Header.field message.header 8 8 = message.timestamp.toNat := by
    simp [Message.header, putU16Le, hskip, hcons, -Nat.reducePow, hread, hstamp]
  have hsource₁ : Header.field message.header 16 4 = message.geometry.source.1.toNat := by
    simp [Message.header, putU16Le, hskip, hcons, -Nat.reducePow, hread, hword]
  have hsource₂ : Header.field message.header 20 4 = message.geometry.source.2.toNat := by
    simp [Message.header, putU16Le, hskip, hcons, -Nat.reducePow, hread, hword]
  have hencoded₁ : Header.field message.header 56 4 = message.geometry.encoded.1.toNat := by
    simp [Message.header, putU16Le, hskip, hcons, -Nat.reducePow, hread, hword, message.middle_length]
  have hencoded₂ : Header.field message.header 60 4 = message.geometry.encoded.2.toNat := by
    simp [Message.header, putU16Le, hskip, hcons, -Nat.reducePow, hread, hword, message.middle_length]
  have hkind : message.header.getD 4 0 = message.content.kind := rfl
  have hflags : getU16Le (message.header.getD 6 0) (message.header.getD 7 0) = message.flags :=
    getU16Le_bytes message.flags
  rw [Header.parse, if_neg hlong, htake]
  simp only [hlength, htimestamp, hsource₁, hsource₂, hencoded₁, hencoded₂, hkind, hflags,
    UInt32.ofNat_toNat, UInt64.ofNat_toNat]
  rfl

/-! ## One message after others -/

theorem videoBytes_concat : videoBytes (before ++ [message]) =
    videoBytes before + message.content.videoBytes := by
  rw [videoBytes, map_append, sum_append]
  rfl

theorem pendingAfter_concat : pendingAfter (before ++ [message]) =
    message.pends (pendingAfter before) := by
  rw [pendingAfter, foldl_append]
  rfl

theorem suspendedAfter_concat : suspendedAfter (before ++ [message]) = message.suspending := by
  rw [suspendedAfter, getLast?_concat]
  rfl

theorem codecAfter_concat : codecAfter (before ++ [message]) =
    message.codec?.or (codecAfter before) := by
  rw [codecAfter, filterMap_append, getLast?_append]
  cases h : message.codec? <;> simp [h, codecAfter]

theorem originAfter_concat : originAfter origin (before ++ [message]) =
    (originAfter origin before).or message.videoTimestamp? := by
  rw [originAfter, originAfter, filterMap_append, head?_append, Option.or_assoc]
  cases h : message.videoTimestamp? <;> simp [h]

theorem noteSuspend_stateAfter (suspending : Bool) :
    (stateAfter keystream origin before).noteSuspend suspending =
      ({ stateAfter keystream origin before with suspended := suspending },
        suspendOutputs (suspendedAfter before) suspending) := by
  cases suspending <;> cases h : suspendedAfter before <;>
    simp [MirrorStream.noteSuspend, stateAfter, suspendOutputs, h]

theorem stateAfter_concat : stateAfter keystream origin (before ++ [message]) =
    { cipher := ⟨keystream, videoBytes before + message.content.videoBytes⟩
      pendingParameterSets := message.pends (pendingAfter before)
      origin := (originAfter origin before).or message.videoTimestamp?
      suspended := message.suspending
      codec := message.codec?.or (codecAfter before) } := by
  rw [stateAfter, videoBytes_concat, pendingAfter_concat, originAfter_concat,
    suspendedAfter_concat, codecAfter_concat]

theorem framed_eq (stream : MirrorStream) (timestamp : UInt64) (data : Bytes) :
    stream.framed timestamp data =
      prependedSets stream.pendingParameterSets timestamp ++ data := by
  unfold MirrorStream.framed prependedSets
  cases stream.pendingParameterSets with
  | none => rfl
  | some pending =>
    dsimp only
    split <;> rfl

/-- The access unit is decrypted where the sender's encryption began. -/
theorem video_sent {nals : List Nal} (h : message.content = .video nals) (header : Header)
    (hheader : header.timestamp = message.timestamp) :
    ({ stateAfter keystream origin before with suspended := message.suspending }).video header
        (message.sent keystream (videoBytes before)) =
      .ok (stateAfter keystream origin (before ++ [message]),
        contentOutputs origin before message) := by
  have hsent : message.sent keystream (videoBytes before) =
      xorFrom keystream (videoBytes before) (nals.flatMap Nal.avcc) := by
    rw [Message.sent, h]
  rw [MirrorStream.video, hsent, hheader, stateAfter_concat]
  simp only [stateAfter, Cipher.applyKeystream, xorFrom_xorFrom, length_xorFrom, toAnnexB_avcc,
    ok_bind, framed_eq, StreamOrigin.pts, contentOutputs, frameOf, h, Content.videoBytes,
    Message.pends, Message.videoTimestamp?, Message.codec?, Option.none_or]
  cases originAfter origin before <;> rfl

theorem codecConfig_sent {record : ConfigRecord} (h : message.content = .config record)
    (header : Header) (htimestamp : header.timestamp = message.timestamp)
    (hgeometry : header.geometry = message.geometry) :
    ({ stateAfter keystream origin before with suspended := message.suspending }).codecConfig
        header (message.sent keystream (videoBytes before)) =
      .ok (stateAfter keystream origin (before ++ [message]),
        contentOutputs origin before message) := by
  have hsent : message.sent keystream (videoBytes before) = record.bytes := by
    rw [Message.sent, h]
    rfl
  -- a record that holds sets is not the empty one that refuses a codec
  have hsome : record.bytes.isEmpty = false := by
    cases hbytes : record.bytes with
    | cons b rest => rfl
    | nil =>
      have hparses := record.parses
      rw [hbytes] at hparses
      cases hparses
  rw [MirrorStream.codecConfig, hsent, hsome, stateAfter_concat]
  simp only [record.parses, stateAfter, contentOutputs, h, Content.videoBytes, Message.pends,
    Message.videoTimestamp?, Message.codec?, Option.or_none, Option.some_or, htimestamp, hgeometry]
  rfl

theorem dispatch_silent {stream : MirrorStream} {header : Header} {payload : Bytes}
    (h : header.kind = PayloadType.heartbeat ∨ header.kind = PayloadType.stats) :
    stream.dispatch header payload = .ok (stream, []) := by
  rw [MirrorStream.dispatch, if_neg, if_neg, if_pos h]
  · rcases h with h | h <;> rw [h] <;> decide
  · rcases h with h | h <;> rw [h] <;> decide

/-- **One round takes one message**, and what comes before it decides the rest.
-/
theorem next_wire (before : List Message) (message : Message) :
    (stateAfter keystream origin before).next
        (message.header ++ message.sent keystream (videoBytes before)) =
      .took (stateAfter keystream origin (before ++ [message]))
        (outputsAt origin before message) [] := by
  have hheader := length_header message
  have hsent := @length_sent keystream message (videoBytes before)
  have htotal : (message.header ++ message.sent keystream (videoBytes before)).length =
      headerLen + message.content.payload.length := by
    rw [length_append, hheader, hsent]
  have hpayload : ((message.header ++ message.sent keystream (videoBytes before)).drop
      headerLen).take message.content.payload.length =
        message.sent keystream (videoBytes before) := by
    rw [← hheader, drop_left, ← hsent, take_length]
  rw [MirrorStream.next, if_neg (by omega), Header.parse_append (by omega), parse_header]
  simp only [htotal, Nat.lt_irrefl, if_false, hpayload]
  rw [← htotal, drop_length, MirrorStream.handle, noteSuspend_stateAfter]
  cases hcontent : message.content with
  | video nals =>
    simp only [Content.kind, MirrorStream.dispatch, if_pos]
    rw [video_sent hcontent _ rfl]
    rfl
  | config record =>
    have hkind : PayloadType.codecConfig ≠ PayloadType.video := by decide
    simp only [Content.kind, MirrorStream.dispatch, if_neg hkind, if_pos]
    rw [codecConfig_sent hcontent _ rfl rfl]
    rfl
  | heartbeat payload =>
    rw [dispatch_silent (.inl rfl), stateAfter_concat, ok_bind, outputsAt]
    simp only [contentOutputs, hcontent, Content.videoBytes, Message.pends,
      Message.videoTimestamp?, Message.codec?, Option.or_none, Option.none_or]
    rfl
  | stats payload =>
    rw [dispatch_silent (.inr rfl), stateAfter_concat, ok_bind, outputsAt]
    simp only [contentOutputs, hcontent, Content.videoBytes, Message.pends,
      Message.videoTimestamp?, Message.codec?, Option.or_none, Option.none_or]
    rfl

/-! ## All of them -/

theorem sends_wiresFrom (before messages : List Message) :
    MirrorStream.framing.Sends (stateAfter keystream origin before)
      (wiresFrom keystream before messages) (outputsFrom origin before messages)
      (stateAfter keystream origin (before ++ messages)) := by
  induction messages generalizing before with
  | nil =>
    rw [append_nil]
    exact .nil _
  | cons message messages ih =>
    have htail := ih (before ++ [message])
    rw [append_assoc, singleton_append] at htail
    exact .cons (next_wire before message) htail

theorem wiresFrom_take (before messages : List Message) (n : ℕ) :
    wiresFrom keystream before (messages.take n) =
      (wiresFrom keystream before messages).take n := by
  induction messages generalizing before n with
  | nil => rw [take_nil, wiresFrom, take_nil]
  | cons message messages ih =>
    cases n with
    | zero => rfl
    | succ n => rw [take_succ_cons, wiresFrom, wiresFrom, ih, take_succ_cons]

theorem outputsFrom_take (before messages : List Message) (n : ℕ) :
    outputsFrom origin before (messages.take n) =
      (outputsFrom origin before messages).take n := by
  induction messages generalizing before n with
  | nil => rw [take_nil, outputsFrom, take_nil]
  | cons message messages ih =>
    cases n with
    | zero => rfl
    | succ n => rw [take_succ_cons, outputsFrom, outputsFrom, ih, take_succ_cons]

theorem outputsFrom_getElem? (before messages : List Message) (j : ℕ) :
    (outputsFrom origin before messages)[j]? =
      messages[j]?.map (outputsAt origin (before ++ messages.take j)) := by
  induction messages generalizing before j with
  | nil => rfl
  | cons message messages ih =>
    cases j with
    | zero => rw [take_zero, append_nil]; rfl
    | succ j =>
      rw [outputsFrom, getElem?_cons_succ, ih, getElem?_cons_succ,
        take_succ_cons, append_assoc, singleton_append]

/-- Whatever the chunks, the messages they are cut from are what the receiver
has had. -/
theorem feedChunks_take (messages : List Message) (n : ℕ) {chunks : List Bytes}
    (h : chunks.flatten = ((wires keystream messages).take n).flatten) :
    (MirrorStream.new keystream origin).feedChunks [] chunks =
      .ok (stateAfter keystream origin (messages.take n), [],
        ((outputs origin messages).take n).flatten) := by
  have hsends := @sends_wiresFrom keystream origin [] (messages.take n)
  have hfresh : stateAfter keystream origin [] = MirrorStream.new keystream origin := by
    rw [stateAfter, originAfter, filterMap_nil, head?_nil, Option.or_none]
    rfl
  rw [hfresh, nil_append, wiresFrom_take, outputsFrom_take] at hsends
  exact MirrorStream.feedChunks_of_feedAll (hsends.feedAll rfl rfl h)

/-! ## Suspend and resume -/

def toggle? : MirrorOutput → Option Bool
  | .suspend => some true
  | .resume => some false
  | _ => none

theorem toggles_outputsAt (before : List Message) (message : Message) :
    (outputsAt origin before message).filterMap toggle? =
      if suspendedAfter before = message.suspending then [] else [message.suspending] := by
  have hcontent : (contentOutputs origin before message).filterMap toggle? = [] := by
    rw [contentOutputs]
    cases message.content <;> rfl
  rw [outputsAt, filterMap_append, hcontent, append_nil]
  cases suspendedAfter before <;> cases message.suspending <;> rfl

/-- Every other toggle is a suspension, and the next one is whenever the stream
is not suspended. -/
theorem toggles_outputsFrom (before messages : List Message) (i : ℕ) (on : Bool)
    (h : ((outputsFrom origin before messages).flatten.filterMap toggle?)[i]? = some on) :
    on = (decide (i % 2 = 0) ^^ suspendedAfter before) := by
  induction messages generalizing before i with
  | nil => cases h
  | cons message messages ih =>
    rw [outputsFrom, flatten_cons, filterMap_append, toggles_outputsAt] at h
    have htail := ih (before ++ [message])
    rw [suspendedAfter_concat] at htail
    by_cases hsame : suspendedAfter before = message.suspending
    · rw [if_pos hsame, nil_append] at h
      rw [hsame]
      exact htail i h
    · have hflip : message.suspending = !suspendedAfter before := by
        cases hwas : suspendedAfter before <;> cases hnow : message.suspending <;> simp_all
      rw [if_neg hsame] at h
      cases i with
      | zero =>
        cases h
        rw [hflip]
        cases suspendedAfter before <;> rfl
      | succ i =>
        rw [singleton_append, getElem?_cons_succ] at h
        rw [htail i h, hflip]
        have hparity : decide ((i + 1) % 2 = 0) = !decide (i % 2 = 0) := by
          rw [← decide_not, decide_eq_decide]
          omega
        rw [hparity]
        cases decide (i % 2 = 0) <;> cases suspendedAfter before <;> rfl

/-! ## Parameter sets -/

/-- A message that leaves what is pending alone. -/
def Content.Silent : Content → Prop
  | .heartbeat _ | .stats _ => True
  | _ => False

/-- At `j` the sets of the record at `i` wait: nothing since then took or
replaced them. -/
def Waits (messages : List Message) (i j : ℕ) (timestamp : UInt64) (record : ConfigRecord) : Prop :=
  i < j ∧ (∃ message, messages[i]? = some message ∧ message.content = .config record ∧
    message.timestamp = timestamp) ∧
    ∀ k between, i < k → k < j → messages[k]? = some between → between.content.Silent

/-- The access unit at `j` is the first after the record at `i`, and their
timestamps agree. -/
def Describes (messages : List Message) (i j : ℕ) (record : ConfigRecord) : Prop :=
  ∃ message nals, messages[j]? = some message ∧ message.content = .video nals ∧
    Waits messages i j message.timestamp record

theorem pendingAfter_take {j : ℕ} (hj : j ≤ messages.length) (timestamp : UInt64) (sets : Bytes) :
    pendingAfter (messages.take j) = some (timestamp, sets) ↔
      ∃ i record, Waits messages i j timestamp record ∧ record.sets = sets := by
  induction j with
  | zero =>
    constructor
    · intro h
      cases h
    · rintro ⟨i, record, ⟨hi, -⟩, -⟩
      exact absurd hi (Nat.not_lt_zero i)
  | succ j ih =>
    have hlast : messages[j]? = some messages[j] := getElem?_eq_getElem hj
    rw [take_add_one, hlast, Option.toList_some, pendingAfter_concat]
    have hstep (i : ℕ) (record : ConfigRecord) (hsilent : messages[j].content.Silent) :
        Waits messages i (j + 1) timestamp record ↔ Waits messages i j timestamp record := by
      constructor
      · rintro ⟨hi, ⟨message, hmessage, hcontent, hstamp⟩, hbetween⟩
        have hne : i ≠ j := by
          rintro rfl
          rw [hlast] at hmessage
          cases hmessage
          rw [hcontent] at hsilent
          exact hsilent
        exact ⟨by omega, ⟨message, hmessage, hcontent, hstamp⟩,
          fun k between hik hkj => hbetween k between hik (by omega)⟩
      · rintro ⟨hi, hmessage, hbetween⟩
        refine ⟨by omega, hmessage, fun k between hik hkj hk => ?_⟩
        by_cases hlt : k < j
        · exact hbetween k between hik hlt hk
        · obtain rfl : k = j := by omega
          rw [hlast] at hk
          cases hk
          exact hsilent
    -- before a message that is not silent nothing waits
    have hloud (i : ℕ) (record : ConfigRecord) (hnot : ¬ messages[j].content.Silent)
        (h : Waits messages i (j + 1) timestamp record) : i = j := by
      obtain ⟨hi, -, hbetween⟩ := h
      by_contra hne
      exact hnot (hbetween j _ (by omega) (by omega) hlast)
    cases hcontent : messages[j].content with
    | video nals =>
      simp only [Message.pends, hcontent]
      constructor
      · intro h
        cases h
      · rintro ⟨i, record, hwaits, -⟩
        obtain rfl := hloud i record (by rw [hcontent]; exact id) hwaits
        obtain ⟨-, ⟨message, hmessage, hrecord, -⟩, -⟩ := hwaits
        rw [hlast] at hmessage
        cases hmessage
        cases hcontent.symm.trans hrecord
    | config record =>
      simp only [Message.pends, hcontent, Option.some.injEq, Prod.mk.injEq]
      constructor
      · rintro ⟨hstamp, hsets⟩
        exact ⟨j, record, ⟨by omega, ⟨_, hlast, hcontent, hstamp⟩,
          fun k between hik hkj => by omega⟩, hsets⟩
      · rintro ⟨i, record', hwaits, hsets⟩
        obtain rfl := hloud i record' (by rw [hcontent]; exact id) hwaits
        obtain ⟨-, ⟨message, hmessage, hrecord, hstamp⟩, -⟩ := hwaits
        rw [hlast] at hmessage
        cases hmessage
        cases hcontent.symm.trans hrecord
        exact ⟨hstamp, hsets⟩
    | heartbeat payload | stats payload =>
      simp only [Message.pends, hcontent]
      rw [ih (by omega)]
      simp only [hstep _ _ (by rw [hcontent]; trivial)]

def frame? : MirrorOutput → Option Core.EncodedFrame
  | .frame frame => some frame
  | _ => none

def framesAt (origin : StreamOrigin) (before : List Message) (message : Message) :
    List Core.EncodedFrame :=
  match message.content with
  | .video nals => [frameOf origin before message.timestamp nals]
  | _ => []

theorem frames_outputsAt (before : List Message) (message : Message) :
    (outputsAt origin before message).filterMap frame? = framesAt origin before message := by
  have hsuspend (was suspending : Bool) :
      (suspendOutputs was suspending).filterMap frame? = [] := by
    cases was <;> cases suspending <;> rfl
  rw [outputsAt, filterMap_append, hsuspend, nil_append, contentOutputs, framesAt]
  cases message.content <;> rfl

/-- The frame of an access unit begins with the sets of the record that
describes it, if one does. -/
theorem data_frameOf {j : ℕ} {nals : List Nal} (hmessage : messages[j]? = some message)
    (hcontent : message.content = .video nals) : (∃ i record, Describes messages i j record ∧
      (frameOf origin (messages.take j) message.timestamp nals).data =
        record.sets ++ nals.flatMap Nal.annexB) ∨ ((∀ i record, ¬ Describes messages i j record) ∧
      (frameOf origin (messages.take j) message.timestamp nals).data =
        nals.flatMap Nal.annexB) := by
  have hj : j ≤ messages.length := (List.getElem?_eq_some_iff.mp hmessage).1.le
  have hnone (hsets : prependedSets (pendingAfter (messages.take j)) message.timestamp = []) :
      (frameOf origin (messages.take j) message.timestamp nals).data =
        nals.flatMap Nal.annexB := by
    rw [frameOf, hsets, nil_append]
  by_cases hdescribed : ∃ i record, Describes messages i j record
  · obtain ⟨i, record, hdescribes⟩ := hdescribed
    refine .inl ⟨i, record, hdescribes, ?_⟩
    obtain ⟨message', nals', hmessage', -, hwaits⟩ := hdescribes
    cases hmessage.symm.trans hmessage'
    rw [frameOf, (pendingAfter_take hj _ _).mpr ⟨i, record, hwaits, rfl⟩, prependedSets,
      if_pos rfl]
  · refine .inr ⟨fun i record hdescribes => hdescribed ⟨i, record, hdescribes⟩, hnone ?_⟩
    cases hpending : pendingAfter (messages.take j) with
    | none => rfl
    | some pending =>
      obtain ⟨timestamp, sets⟩ := pending
      obtain ⟨i, record, hwaits, -⟩ := (pendingAfter_take hj _ _).mp hpending
      by_cases hstamp : timestamp = message.timestamp
      · subst hstamp
        exact absurd ⟨i, record, message, nals, hmessage, hcontent, hwaits⟩ hdescribed
      · exact if_neg hstamp

theorem Describes.unique {i j j' : ℕ} {record record' : ConfigRecord}
    (h : Describes messages i j record) (h' : Describes messages i j' record') : j = j' := by
  -- an access unit between the record and a later one would not have been silent
  have hle {i j j' : ℕ} {record record' : ConfigRecord} (h : Describes messages i j record)
      (h' : Describes messages i j' record') : j' ≤ j := by
    obtain ⟨message, nals, hmessage, hcontent, hi, -, -⟩ := h
    obtain ⟨-, -, -, -, -, -, hbetween⟩ := h'
    by_contra hlt
    have hsilent := hbetween j message hi (by omega) hmessage
    rw [hcontent] at hsilent
    exact hsilent
  exact le_antisymm (hle h' h) (hle h h')

/-- **Mirroring does not depend on how the connection is cut.**  Chunks that
concatenate to the first `n` of some messages leave the keystream where the
video payloads among these end, which is where the next one is decrypted, and
put out the same whatever the cut.  Suspensions and resumptions alternate, the
first a suspension.  An access unit makes one frame, with the parameter sets of
the record that describes it and no others in front; no record describes two. -/
theorem feedChunks_wires (keystream : ℕ → UInt8) (origin : StreamOrigin) (messages : List Message) :
    (∀ n chunks, chunks.flatten = ((wires keystream messages).take n).flatten →
      ∃ stream, (MirrorStream.new keystream origin).feedChunks [] chunks =
          .ok (stream, [], ((outputs origin messages).take n).flatten) ∧
        stream.cipher = ⟨keystream, videoBytes (messages.take n)⟩) ∧
    (∀ i on, ((outputs origin messages).flatten.filterMap toggle?)[i]? = some on →
      on = decide (i % 2 = 0)) ∧ (∀ (j : ℕ) (message : Message), messages[j]? = some message →
      ∃ out, (outputs origin messages)[j]? = some out ∧
        ((∀ nals, message.content ≠ .video nals) → out.filterMap frame? = []) ∧
        ∀ nals, message.content = .video nals → ∃ frame, out.filterMap frame? = [frame] ∧
          ((∃ i record, Describes messages i j record ∧
              frame.data = record.sets ++ nals.flatMap Nal.annexB) ∨
            ((∀ i record, ¬ Describes messages i j record) ∧
              frame.data = nals.flatMap Nal.annexB))) ∧
    ∀ i j j' record record', Describes messages i j record → Describes messages i j' record' →
      j = j' := by
  refine ⟨fun n chunks h => ⟨_, feedChunks_take messages n h, rfl⟩, fun i on h => ?_,
    fun j message hmessage => ?_, fun i j j' record record' h h' => h.unique h'⟩
  · rw [toggles_outputsFrom [] messages i on h]
    exact Bool.xor_false _
  · refine ⟨outputsAt origin (messages.take j) message, ?_, fun hvideo => ?_,
      fun nals hcontent => ⟨frameOf origin (messages.take j) message.timestamp nals, ?_,
        data_frameOf hmessage hcontent⟩⟩
    · rw [outputs, outputsFrom_getElem?, hmessage, nil_append]
      rfl
    · rw [frames_outputsAt, framesAt]
      cases hcontent : message.content with
      | video nals => exact absurd hcontent (hvideo nals)
      | config record | heartbeat payload | stats payload => rfl
    · rw [frames_outputsAt, framesAt, hcontent]

/-- One parameter set of each kind, in an `avcC` record. -/
def sampleRecord : ConfigRecord where
  bytes := [1, 0x64, 0, 0x1F, 0xFF, 0xE1, 0, 2, 0x67, 0x64, 1, 0, 2, 0x68, 0xEE]
  sets := startCode ++ [0x67, 0x64] ++ (startCode ++ [0x68, 0xEE])
  parses := by decide

def sampleNal : Nal := ⟨0x65, [0x88, 0x84], by decide, by decide⟩

/-- A message without flags, at `timestamp`. -/
def sampleMessage (content : Content) (timestamp : UInt64)
    (fits : content.payload.length < 256 ^ 4) : Message where
  content
  timestamp
  flags := 0
  geometry := ⟨(1920, 1080), (1920, 1080)⟩
  gap := 0
  middle := List.replicate 32 0
  tail := List.replicate 64 0
  fits
  middle_length := length_replicate
  tail_length := length_replicate

/-- A record, and the picture that it describes, of one instant. -/
def sample : List Message :=
  [sampleMessage (.config sampleRecord) 1000 (by decide),
    sampleMessage (.video [sampleNal]) 1000 (by decide)]

example : ((outputs none sample).flatten.filterMap frame?).map (·.data) =
    [startCode ++ [0x67, 0x64] ++ (startCode ++ [0x68, 0xEE]) ++
      (startCode ++ [0x65, 0x88, 0x84])] := by decide

end Castaway.AirPlay
