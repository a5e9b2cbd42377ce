import Castaway.AirPlay.Negotiation
import Castaway.Core.Event

/-!
# The AirPlay session

One connection's dispatch of RTSP requests.  Audio on its own is announced, set
up and recorded (`RaopState`); mirroring, and media cast from an app, negotiate
with property lists: key material first, then a stream (`MirrorState`,
`mediaKey`, `mirrorAudio`).  Both planes arrive on one socket and the shape of a
`SETUP` says which it is.

The actor that owns the sockets takes what was negotiated out of the session
after each request.  What touches neither plane is left to `Outside`: the
`/info` property list, the challenge of an `OPTIONS`, the bodies of
`GET_PARAMETER` and `SET_PARAMETER`, the media URLs of AirPlay video, and the
two stages of a pairing.
-/

namespace Castaway.AirPlay

open Castaway.Core (ControlTxn Payloads SessionEvent)

/-! ## Requests and responses -/

structure AirPlayRequest where
  method : String
  path : String
  headers : List (String × String)
  body : Bytes

/-- Look a header up, whatever the case of its name. -/
def AirPlayRequest.header (req : AirPlayRequest) (name : String) : Option String :=
  (req.headers.find? fun h => Text.sameLetters h.1.toList name.toList).map (·.2)

structure AirPlayResponse (P : Payloads) where
  status : ℕ
  headers : List (String × String)
  contentType : Option String
  body : Bytes
  event : Option (SessionEvent P)

namespace AirPlayResponse

variable {P : Payloads}

def ofStatus (code : ℕ) : AirPlayResponse P := ⟨code, [], none, [], none⟩

def ok : AirPlayResponse P := ofStatus 200

def okBody (contentType : String) (body : Bytes) : AirPlayResponse P :=
  ⟨200, [], some contentType, body, none⟩

def header (resp : AirPlayResponse P) (name value : String) : AirPlayResponse P :=
  { resp with headers := resp.headers ++ [(name, value)] }

def withEvent (resp : AirPlayResponse P) (event : Option (SessionEvent P)) : AirPlayResponse P :=
  { resp with event := event }

def Refuses (resp : AirPlayResponse P) : Prop := 400 ≤ resp.status

instance (resp : AirPlayResponse P) : Decidable resp.Refuses :=
  inferInstanceAs (Decidable (400 ≤ resp.status))

end AirPlayResponse

def applePlistMime : String := "application/x-apple-binary-plist"

def octetStreamMime : String := "application/octet-stream"

def textParametersMime : String := "text/parameters"

/-! ## Endpoints -/

inductive VideoEndpoint where
  | play
  | scrub
  | rate
  | stop
  | playbackInfo
  | action
  | reverse
  deriving DecidableEq, Repr

/-- Which video endpoint a method and path name, if any; the query is not part
of the path. -/
def VideoEndpoint.route (method path : String) : Option VideoEndpoint :=
  let bare := String.ofList (path.toList.takeWhile (· != '?'))
  let post := method = "POST"
  let get := method = "GET"
  if post ∧ bare = "/play" then some play
  else if (post ∨ get) ∧ bare = "/scrub" then some scrub
  else if post ∧ bare = "/rate" then some rate
  else if post ∧ bare = "/stop" then some stop
  else if get ∧ bare = "/playback-info" then some playbackInfo
  else if post ∧ bare = "/action" then some action
  else if post ∧ bare = "/reverse" then some reverse
  else none

/-- What answers a request. -/
inductive Endpoint where
  | options
  | info
  | fpSetup
  | pairSetup
  | pairVerify
  | homeKit
  | feedback
  | video (endpoint : VideoEndpoint)
  | audioMode
  | announce
  | setup
  | record
  | setParameter
  | getParameter
  | flush
  | teardown
  | unhandled
  deriving DecidableEq, Repr

/-- The dispatch of `handle`, in its order. -/
def AirPlayRequest.endpoint (req : AirPlayRequest) : Endpoint :=
  let legacy := (req.header "X-Apple-HKP").isNone
  let post := req.method = "POST"
  if req.method = "OPTIONS" then .options
  else if req.method = "GET" ∧ req.path = "/info" then .info
  else if post ∧ req.path = "/fp-setup" then .fpSetup
  else if post ∧ req.path = "/pair-setup" ∧ legacy then .pairSetup
  else if post ∧ req.path = "/pair-verify" ∧ legacy then .pairVerify
  else if post ∧ (req.path = "/pair-setup" ∨ req.path = "/pair-verify") then .homeKit
  else if (post ∨ req.method = "GET") ∧ req.path = "/feedback" then .feedback
  else
    match VideoEndpoint.route req.method req.path with
    | some endpoint => .video endpoint
    | none =>
      if post ∧ req.path = "/audioMode" then .audioMode
      else if req.method = "ANNOUNCE" then .announce
      else if req.method = "SETUP" then .setup
      else if req.method = "RECORD" then .record
      else if req.method = "SET_PARAMETER" then .setParameter
      else if req.method = "GET_PARAMETER" then .getParameter
      else if req.method = "FLUSH" then .flush
      else if req.method = "TEARDOWN" then .teardown
      else .unhandled

/-! ## FairPlay -/

/-- The 164 bytes of the second `/fp-setup` message. -/
abbrev KeyMessage := Vector UInt8 164

inductive FpSetupRequest where
  | setup1 (mode : Fin 4)
  | setup2 (keyMessage : KeyMessage)

/-- Parse an `/fp-setup` body; every `FairPlayError` is answered alike. -/
def FpSetupRequest.parse (body : Bytes) : Option FpSetupRequest :=
  if body.length ≤ 14 then none
  else if body.take 4 ≠ [0x46, 0x50, 0x4C, 0x59] then none
  else if body.getD 4 0 ≠ 3 then none
  else if body.getD 5 0 ≠ 1 then none
  else if body.getD 6 0 = 1 then
    if body.length ≠ 16 then none
    else if h : (body.getD 14 0).toNat < 4 then some (.setup1 ⟨_, h⟩)
    else none
  else if body.getD 6 0 = 3 then (exactly 164 body).map .setup2
  else none

/-- Only the key message is kept: its presence is the state. -/
structure FairPlaySession where
  keyMessage : Option KeyMessage

def setup2ReplyHeader : Bytes :=
  [0x46, 0x50, 0x4C, 0x59, 0x03, 0x01, 0x04, 0x00, 0x00, 0x00, 0x00, 0x14]

/-- Handle one `/fp-setup` body; the canned replies of the first message are a
table. -/
def FairPlaySession.handle (replies : Fin 4 → Bytes) (s : FairPlaySession) (body : Bytes) :
    FairPlaySession × Option Bytes :=
  match FpSetupRequest.parse body with
  | none => (s, none)
  | some (.setup1 mode) => (s, some (replies mode))
  | some (.setup2 keyMessage) =>
    (⟨some keyMessage⟩, some (setup2ReplyHeader ++ keyMessage.toList.drop 144))

/-! ## What is left to others -/

inductive Parameter where
  | volume
  deriving DecidableEq, Repr

/-- Progress through a track, in RTP timestamps. -/
structure TrackProgress where
  start : UInt32
  now : UInt32
  finish : UInt32
  deriving DecidableEq, Repr

inductive ControlUpdate (Volume NowPlaying : Type) where
  | volume (volume : Volume)
  | progress (progress : TrackProgress)
  | metadata (now : NowPlaying)
  | artwork (image : Bytes)
  | ignored

structure Outside (P : Payloads) extends Primitives where
  setup1Replies : Fin 4 → Bytes
  /-- The `/info` property list a query asks for, or the failure that ends the
  connection. -/
  infoPlist : Bytes → Option Bytes
  appleResponse : String → Option String
  pairSetupResponse : Bytes
  /-- A pairing exchange between its two stages. -/
  PairVerify : Type
  begin : Bytes → Option (PairVerify × Bytes)
  finish : PairVerify → Bytes → Option (Vector UInt8 32)
  /-- What a polling sender of AirPlay video is told. -/
  PlaybackInfo : Type
  noPlayback : PlaybackInfo
  video : PlaybackInfo → VideoEndpoint → String → Bytes → AirPlayResponse P × PlaybackInfo
  /-- The volume of a session, in the dBFS that AirPlay uses. -/
  Volume : Type
  fullScale : Volume
  asLevel : Volume → P.Volume
  parseGetParameter : Option String → Bytes → Option (List Parameter)
  answer : Parameter → Volume → Bytes
  parseSetParameter : Option String → Bytes → Option (ControlUpdate Volume P.NowPlaying)
  /-- A now-playing snapshot with the position and duration of a progress
  report. -/
  asSnapshot : TrackProgress → UInt32 → P.NowPlaying

/-! ## The session -/

def streamConnectionId (value : ℤ) : ℕ := (value % 2 ^ 64).toNat

/-- The cipher key and the counter's start of a mirroring stream. -/
structure MirrorKeys where
  key : Block
  iv : Block
  deriving DecidableEq, Repr

def MirrorKeys.derive (lib : Primitives) (aesKey : Block) (id : ℕ) : MirrorKeys :=
  let hashPrefix := fun (label : String) =>
    digestBlock (lib.sha512 (label.toUTF8.toList ++ aesKey.toList))
  ⟨hashPrefix ("AirPlayStreamKey" ++ toString id), hashPrefix ("AirPlayStreamIV" ++ toString id)⟩

/-- How far a mirroring negotiation has got. -/
inductive MirrorState where
  | idle
  | keyMaterial
  | ready (keys : MirrorKeys)
  deriving DecidableEq, Repr

/-- The unwrapped media key of a session, and the IV that came with it. -/
structure MediaKey where
  key : Block
  iv : Block
  deriving DecidableEq, Repr

/-- How far the `ANNOUNCE`, `SETUP`, `RECORD` flow has got. -/
inductive RaopState where
  | idle
  | announced (params : AnnounceParams)
  | setUp (params : AnnounceParams)
  | recording (params : AnnounceParams)
  deriving DecidableEq, Repr

/-- What the sender has said about itself.  The link is rendered from the
parameters that were negotiated. -/
structure SenderDescription where
  displayName : Option String
  address : Option String
  link : Option AnnounceParams
  deriving DecidableEq, Repr

/-- One AirPlay session's control state. -/
structure AirPlaySession (P : Payloads) (outside : Outside P) where
  fairplay : FairPlaySession
  raop : RaopState
  localPorts : Option ReceiverPorts
  senderPeers : SenderPeers
  mirror : MirrorState
  mirrorDataPort : Option UInt16
  mediaKey : Option MediaKey
  mirrorAudio : Option AnnounceParams
  pendingFlush : Option FlushPoint
  playback : outside.PlaybackInfo
  pairVerify : Option outside.PairVerify
  volume : outside.Volume
  pairedSecret : Option (Vector UInt8 32)
  sender : SenderDescription
  audioRate : Option UInt32

namespace AirPlaySession

variable {P : Payloads} {outside : Outside P}

open AirPlayResponse (ofStatus okBody)

/-- A session before its first request.  The actor has bound the ports, or
failed to. -/
def new (outside : Outside P) (localPorts : Option ReceiverPorts) (mirrorDataPort : Option UInt16)
    (address : Option String) : AirPlaySession P outside where
  fairplay := ⟨none⟩
  raop := .idle
  localPorts := localPorts
  senderPeers := .default
  mirror := .idle
  mirrorDataPort := mirrorDataPort
  mediaKey := none
  mirrorAudio := none
  pendingFlush := none
  playback := outside.noPlayback
  pairVerify := none
  volume := outside.fullScale
  pairedSecret := none
  sender := ⟨none, address, none⟩
  audioRate := none

variable (s : AirPlaySession P outside)

/-- Record what a negotiation settled: the link, and the rate that progress is
in. -/
def negotiated (params : AnnounceParams) : AirPlaySession P outside :=
  let rate := params.codec.sampleRate
  { s with
    sender := { s.sender with link := some params }
    audioRate := if rate = 0 then none else some rate }

def plistResponse (outside : Outside P) (dict : Plist.Dictionary) : AirPlayResponse P :=
  match outside.writePlist dict with
  | none => ofStatus 500
  | some body => okBody applePlistMime body

/-! ### What the actor takes -/

def takeMirrorKeys : AirPlaySession P outside × Option MirrorKeys :=
  match s.mirror with
  | .ready keys => ({ s with mirror := .idle }, some keys)
  | .keyMaterial => (s, none)
  | .idle => (s, none)

def takeFlush : AirPlaySession P outside × Option FlushPoint :=
  ({ s with pendingFlush := none }, s.pendingFlush)

def takeMirrorAudio : AirPlaySession P outside × Option AnnounceParams :=
  ({ s with mirrorAudio := none }, s.mirrorAudio)

/-! ### `ANNOUNCE`, and the `SETUP` it is for -/

def announce (body : Bytes) : AirPlaySession P outside × AirPlayResponse P :=
  match AnnounceParams.parse outside.toPrimitives body with
  | .error e => (s, ofStatus e.rtspStatus)
  | .ok params =>
    let params :=
      match s.pairedSecret with
      | none => params
      | some shared => params.rekeyWith outside.toPrimitives shared
    ({ s.negotiated params with raop := .announced params }, .ok)

/-- Transport for a stream that was announced.  The state is taken before it is
looked at: a refusal leaves nothing announced. -/
def transportSetup (req : AirPlayRequest) : AirPlaySession P outside × AirPlayResponse P :=
  match req.header "Transport" with
  | none => (s, ofStatus 400)
  | some header =>
    match parseTransport header.toList with
    | .error _ => (s, ofStatus 461)
    | .ok sender =>
      match s.localPorts with
      | none => (s, ofStatus 500)
      | some ports =>
        let agreed := fun params =>
          ({ s with senderPeers := .from sender, raop := .setUp params },
            (AirPlayResponse.ok.header "Transport" (formatTransport ports)).header
              "Session" "1")
        match s.raop with
        | .announced params => agreed params
        | .setUp params => agreed params
        | .idle => ({ s with raop := .idle }, ofStatus 451)
        | .recording _ => ({ s with raop := .idle }, ofStatus 451)

/-! ### The `SETUP` of a property list -/

/-- The timing port of the sender that a `SETUP` names, if it speaks NTP. -/
def namedTiming (dict : Plist.Dictionary) : Option UInt16 :=
  let ntp :=
    match (dict.get "timingProtocol").bind Plist.asString with
    | none => true
    | some regime => regime == "NTP"
  match (dict.get "timingPort").bind Plist.asUnsignedInteger with
  | none => none
  | some port => if ntp && port < 65536 then some (UInt16.ofNat port) else none

def noteTimingRegime (dict : Plist.Dictionary) : AirPlaySession P outside :=
  match namedTiming dict with
  | none => s
  | some port => { s with senderPeers := { s.senderPeers with timing := Port.new port } }

def noteSender (dict : Plist.Dictionary) : AirPlaySession P outside :=
  match ((dict.get "name").bind Plist.asString).or ((dict.get "model").bind Plist.asString) with
  | none => s
  | some name => { s with sender := { s.sender with displayName := some name } }

/-- The wrapped key a `SETUP` carries, unwrapped and mixed with the pairing
secret. -/
def keyMaterial (dict : Plist.Dictionary) : Except ℕ MediaKey :=
  match (dict.get "ekey").bind Plist.asData with
  | none => .error 400
  | some ekey =>
    match exactly 72 ekey with
    | none => .error 400
    | some ekey =>
      match ((dict.get "eiv").bind Plist.asData).bind (exactly 16) with
      | none => .error 400
      | some eiv =>
        match s.fairplay.keyMessage with
        | none => .error 451
        | some keyMessage =>
          match outside.decryptKey keyMessage ekey with
          | none => .error 451
          | some aesKey =>
            match s.pairedSecret with
            | none => .ok ⟨aesKey, eiv⟩
            | some shared => .ok ⟨outside.rekeyMedia aesKey shared, eiv⟩

def acceptKeyMaterial (dict : Plist.Dictionary) : Except ℕ (AirPlaySession P outside) :=
  match s.keyMaterial dict with
  | .error status => .error status
  | .ok key => .ok { s with mediaKey := some key, mirror := .keyMaterial }

def mirrorStream : ℤ := 110

def mirrorAudioStream : ℤ := 96

/-- Derive the keys of the picture's stream and name the port it is dialled on.
-/
def mirrorStreams (stream : Plist.Dictionary) : AirPlaySession P outside × AirPlayResponse P :=
  match s.mediaKey with
  | none => (s, ofStatus 451)
  | some media =>
    match s.mirrorDataPort with
    | none => (s, ofStatus 500)
    | some port =>
      let id :=
        match (stream.get "streamConnectionID").bind Plist.asSignedInteger with
        | none => 0
        | some value => streamConnectionId value
      ({ s with mirror := .ready (.derive outside.toPrimitives media.key id) },
        plistResponse outside
          [("streams", .array [.dictionary
            [("type", .integer mirrorStream), ("dataPort", .integer port.toNat)]])])

def namedControl (stream : Plist.Dictionary) : Option UInt16 :=
  match (stream.get "controlPort").bind Plist.asUnsignedInteger with
  | none => none
  | some port => if port < 65536 then some (UInt16.ofNat port) else none

def noteControl (stream : Plist.Dictionary) : AirPlaySession P outside :=
  match namedControl stream with
  | none => s
  | some port => { s with senderPeers := { s.senderPeers with control := Port.new port } }

/-- A number of a stream entry as a `u32`, if it is one. -/
def word (stream : Plist.Dictionary) (key : String) : Option UInt32 :=
  match (stream.get key).bind Plist.asUnsignedInteger with
  | none => none
  | some n => if n < 2 ^ 32 then some (UInt32.ofNat n) else none

/-- The codec a stream entry describes, if it is one that can be decoded. -/
def namedCodec (stream : Plist.Dictionary) : Option RaopCodec :=
  (((stream.get "ct").bind Plist.asSignedInteger).bind StreamCodec.parse).bind
    (StreamCodec.negotiated ((word stream "sr").getD 44100) ((word stream "spf").getD 480) 2)

/-- A realtime audio stream: mirroring's second plane, or a session of its own.
-/
def mirrorAudioSetup (stream : Plist.Dictionary) : AirPlaySession P outside × AirPlayResponse P :=
  match s.mediaKey with
  | none => (s, ofStatus 451)
  | some media =>
    match s.localPorts with
    | none => (s, ofStatus 500)
    | some ports =>
      -- The control port is noted before the codec is looked at.
      let s := s.noteControl stream
      match namedCodec stream with
      | none => (s, ofStatus 451)
      | some codec =>
        let params := (AnnounceParams.plistStream codec media.key media.iv).withDeclaredLatency
          (word stream "latencyMin") (word stream "latencyMax")
        ({ s.negotiated params with mirrorAudio := some params },
          plistResponse outside
            [("streams", .array [.dictionary
              [("type", .integer mirrorAudioStream), ("dataPort", .integer ports.audio.toNat),
                ("controlPort", .integer ports.control.toNat)]])])

def named (streams : List Plist) (kind : ℤ) : Option Plist.Dictionary :=
  (streams.filterMap Plist.asDictionary).find? fun entry =>
    (entry.get "type").bind Plist.asSignedInteger = some kind

def carriesKey (dict : Plist.Dictionary) : Bool :=
  dict.containsKey "ekey" || dict.containsKey "eiv"

/-- The stream a property list names, or the answer to one that names none. -/
def streamSetup (dict : Plist.Dictionary) : AirPlaySession P outside × AirPlayResponse P :=
  match (dict.get "streams").bind Plist.asArray with
  | some streams =>
    match named streams mirrorStream with
    | some stream => s.mirrorStreams stream
    | none =>
      match named streams mirrorAudioStream with
      | some stream => s.mirrorAudioSetup stream
      | none => (s, ofStatus 400)
  | none =>
    if carriesKey dict then
      (s, plistResponse outside
        [("timingPort", .integer ((s.localPorts.map fun p => p.timing.toNat).getD 0)),
          ("eventPort", .integer 0)])
    else (s, ofStatus 400)

/-- Key material, a named stream, or both: what each block says is kept as it is
read. -/
def mirrorSetup (body : Bytes) : AirPlaySession P outside × AirPlayResponse P :=
  match (outside.readPlist body).bind Plist.asDictionary with
  | none => (s, ofStatus 400)
  | some dict =>
    let s := (s.noteTimingRegime dict).noteSender dict
    match if carriesKey dict then s.acceptKeyMaterial dict else .ok s with
    | .error status => (s, ofStatus status)
    | .ok s => s.streamSetup dict

/-- `bplist00`. -/
def plistMagic : Bytes := [0x62, 0x70, 0x6C, 0x69, 0x73, 0x74, 0x30, 0x30]

/-- The shape of a `SETUP` decides which media plane it is for. -/
def isPlist (req : AirPlayRequest) : Bool := plistMagic.isPrefixOf req.body

def setup (req : AirPlayRequest) : AirPlaySession P outside × AirPlayResponse P :=
  if isPlist req then s.mirrorSetup req.body else s.transportSetup req

/-! ### `RECORD`, `FLUSH`, `TEARDOWN` -/

/-- Whether a mirroring negotiation is under way. -/
def mirroring : Bool :=
  match s.mirror with
  | .idle => false
  | .keyMaterial => true
  | .ready _ => true

def recordAck : AirPlayResponse P :=
  (AirPlayResponse.ok.header "Audio-Latency" "11025").header
    "Audio-Jack-Status" "connected; type=analog"

/-- The sender is about to stream.  On the mirror plane this changes nothing; on
the audio plane the state is taken before it is looked at. -/
def record : AirPlaySession P outside × AirPlayResponse P :=
  if s.mirroring then (s, recordAck)
  else
    match s.raop with
    | .setUp params => ({ s with raop := .recording params }, recordAck)
    | .recording params => ({ s with raop := .recording params }, recordAck)
    | .idle => ({ s with raop := .idle }, ofStatus 455)
    | .announced _ => ({ s with raop := .idle }, ofStatus 455)

def flush (req : AirPlayRequest) : AirPlaySession P outside × AirPlayResponse P :=
  match req.header "RTP-Info" with
  | none => (s, .ok)
  | some header => ({ s with pendingFlush := some (.parse header.toList) }, .ok)

/-- The stream types a `TEARDOWN` body names, none for the whole session. -/
def teardownStreams (outside : Outside P) (body : Bytes) : List ℤ :=
  match (outside.readPlist body).bind Plist.asDictionary with
  | none => []
  | some dict =>
    match (dict.get "streams").bind Plist.asArray with
    | none => []
    | some streams =>
      (streams.filterMap Plist.asDictionary).filterMap fun entry =>
        (entry.get "type").bind Plist.asSignedInteger

def teardown (body : Bytes) : AirPlaySession P outside × AirPlayResponse P :=
  if (teardownStreams outside body).isEmpty then
    ({ s with
        raop := .idle
        senderPeers := .default
        mirror := .idle
        mirrorAudio := none
        sender := { s.sender with link := none }
        audioRate := none },
      (AirPlayResponse.ok.header "Connection" "close").withEvent (some .end))
  else (s, .ok)

/-! ### The rest -/

def options (req : AirPlayRequest) : AirPlayResponse P :=
  let resp := AirPlayResponse.ok.header "Public"
    ("ANNOUNCE, SETUP, RECORD, PAUSE, FLUSH, TEARDOWN, OPTIONS, GET_PARAMETER, " ++
      "SET_PARAMETER, POST, GET")
  match (req.header "Apple-Challenge").bind outside.appleResponse with
  | none => resp
  | some response => resp.header "Apple-Response" response

def fpSetup (body : Bytes) : AirPlaySession P outside × AirPlayResponse P :=
  match s.fairplay.handle outside.setup1Replies body with
  | (fairplay, some reply) => ({ s with fairplay := fairplay }, okBody octetStreamMime reply)
  | (_, none) => (s, ofStatus 400)

/-- Both stages of `/pair-verify`, told apart by the first byte. -/
def onPairVerify (body : Bytes) : AirPlaySession P outside × AirPlayResponse P :=
  match body.head? with
  | none => (s, ofStatus 400)
  | some marker =>
    if marker = 1 then
      match outside.begin body with
      | none => (s, ofStatus 400)
      | some (exchange, reply) =>
        ({ s with pairVerify := some exchange }, okBody octetStreamMime reply)
    else if marker = 0 then
      match s.pairVerify with
      | none => (s, ofStatus 400)
      | some exchange =>
        let s := { s with pairVerify := none }
        match outside.finish exchange body with
        | none => (s, ofStatus 400)
        | some shared => ({ s with pairedSecret := some shared }, .ok)
    else (s, ofStatus 400)

def onVideo (endpoint : VideoEndpoint) (req : AirPlayRequest) :
    AirPlaySession P outside × AirPlayResponse P :=
  let answered := outside.video s.playback endpoint req.path req.body
  ({ s with playback := answered.2 }, answered.1)

def setParameter (req : AirPlayRequest) : AirPlaySession P outside × AirPlayResponse P :=
  match outside.parseSetParameter (req.header "Content-Type") req.body with
  | none => (s, .ok)
  | some (.volume v) =>
    ({ s with volume := v },
      AirPlayResponse.ok.withEvent (some (.control (.volume (outside.asLevel v)))))
  | some (.metadata now) => (s, AirPlayResponse.ok.withEvent (some (.nowPlaying now)))
  | some (.progress progress) =>
    (s, AirPlayResponse.ok.withEvent
      (s.audioRate.map fun rate => .nowPlaying (outside.asSnapshot progress rate)))
  | some (.artwork _) => (s, .ok)
  | some .ignored => (s, .ok)

def getParameter (req : AirPlayRequest) : AirPlayResponse P :=
  match outside.parseGetParameter (req.header "Content-Type") req.body with
  | none => ofStatus 451
  | some [] => .ok
  | some parameters =>
    okBody textParametersMime (parameters.flatMap fun p => outside.answer p s.volume)

/-- Handle one request.  No response means that the connection ends. -/
def handle (req : AirPlayRequest) : AirPlaySession P outside × Option (AirPlayResponse P) :=
  let answered := fun (out : AirPlaySession P outside × AirPlayResponse P) => (out.1, some out.2)
  match req.endpoint with
  | .options => (s, some (@options _ outside req))
  | .info => (s, (outside.infoPlist req.body).map (okBody applePlistMime))
  | .fpSetup => answered (s.fpSetup req.body)
  | .pairSetup => (s, some (okBody octetStreamMime outside.pairSetupResponse))
  | .pairVerify => answered (s.onPairVerify req.body)
  | .homeKit => (s, some (ofStatus 501))
  | .feedback => (s, some .ok)
  | .video endpoint => answered (s.onVideo endpoint req)
  | .audioMode => (s, some .ok)
  | .announce => answered (s.announce req.body)
  | .setup => answered (s.setup req)
  | .record => answered s.record
  | .setParameter => answered (s.setParameter req)
  | .getParameter => (s, some (s.getParameter req))
  | .flush => answered (s.flush req)
  | .teardown => answered (s.teardown req.body)
  | .unhandled => (s, some .ok)

end AirPlaySession

end Castaway.AirPlay
