import Castaway.AirPlay.Session
import Castaway.Lib.Runs

/-!
# What a refused AirPlay request costs

A connection is a run of requests, with the actor taking what was negotiated in
between.  Beside the session the run keeps the marks of the requests that were
accepted since the last whole `TEARDOWN` (`Traced`).

## Strategy

`Sound` is what every input is to keep to: a refused request leaves both planes
as they were, audio records after an `ANNOUNCE`, a `SETUP` and a `RECORD` in
that order, `RECORD` is acknowledged once key material was accepted, a
`TEARDOWN` that names streams changes nothing and a whole one leaves nothing to
a later `SETUP`, and both planes mix their keys with the pairing secret.

The session does not keep to it.  A `SETUP` in a recording, and a `RECORD` of
what was only announced, throw the audio stream away with their refusal; a
property list is taken a block at a time, so that what its first blocks say
stays when a later one is refused; the actor taking the mirroring keys ends what
`RECORD` goes by; and a whole `TEARDOWN` forgets neither the media key nor a
flush point.  `Careful` names these inputs, and every run without them is sound
(`requests_sound`).
-/

namespace Castaway.AirPlay

open Castaway.Core (Payloads)

variable {P : Payloads} {outside : Outside P}

/-! ## Runs -/

/-- A request, or what the actor does between two of them. -/
inductive Input (outside : Outside P) where
  | request (req : AirPlayRequest)
  | takeMirrorKeys
  | takeFlush
  | takeMirrorAudio
  | setPlayback (info : outside.PlaybackInfo)

namespace AirPlaySession

def next (s : AirPlaySession P outside) : Input outside → AirPlaySession P outside
  | .request req => (s.handle req).1
  | .takeMirrorKeys => s.takeMirrorKeys.1
  | .takeFlush => s.takeFlush.1
  | .takeMirrorAudio => s.takeMirrorAudio.1
  | .setPlayback info => { s with playback := info }

/-- A request that gets a response below 400. -/
def accepts (s : AirPlaySession P outside) (req : AirPlayRequest) : Bool :=
  match (s.handle req).2 with
  | none => false
  | some resp => !decide resp.Refuses

/-- A request that gets a response of 400 or above. -/
def Refused (s : AirPlaySession P outside) (req : AirPlayRequest) : Prop :=
  ∃ resp, (s.handle req).2 = some resp ∧ resp.Refuses

end AirPlaySession

open AirPlaySession

/-- The requests that a session is to remember. -/
inductive Mark where
  | announced
  | setUp
  | recorded
  | keyed
  | torn
  deriving DecidableEq, Repr

def dictionary? (outside : Outside P) (body : Bytes) : Option Plist.Dictionary :=
  (outside.readPlist body).bind Plist.asDictionary

def markOf (outside : Outside P) (req : AirPlayRequest) : Option Mark :=
  match req.endpoint with
  | .announce => some .announced
  | .setup =>
    if isPlist req then
      match dictionary? outside req.body with
      | none => none
      | some dict => if carriesKey dict then some .keyed else none
    else some .setUp
  | .record => some .recorded
  | .teardown => if (teardownStreams outside req.body).isEmpty then some .torn else none
  | _ => none

def mark (s : AirPlaySession P outside) : Input outside → Option Mark
  | .request req => if s.accepts req then markOf outside req else none
  | _ => none

/-- A session, and the marks since the last whole `TEARDOWN`. -/
structure Traced (outside : Outside P) where
  session : AirPlaySession P outside
  past : List Mark

namespace Traced

def start (s : AirPlaySession P outside) : Traced outside := ⟨s, []⟩

def remember (past : List Mark) : Option Mark → List Mark
  | none => past
  | some .torn => []
  | some m => past ++ [m]

def step (t : Traced outside) (x : Input outside) : Traced outside :=
  ⟨t.session.next x, remember t.past (mark t.session x)⟩

end Traced

/-! ## What every input is to keep to -/

/-- Both planes are as they were. -/
structure SamePlanes (s t : AirPlaySession P outside) : Prop where
  raop : t.raop = s.raop
  mirror : t.mirror = s.mirror
  mediaKey : t.mediaKey = s.mediaKey
  mirrorAudio : t.mirrorAudio = s.mirrorAudio
  senderPeers : t.senderPeers = s.senderPeers

/-- Nothing negotiated is left. -/
structure Cleared (s : AirPlaySession P outside) : Prop where
  raop : s.raop = .idle
  mirror : s.mirror = .idle
  mediaKey : s.mediaKey = none
  mirrorAudio : s.mirrorAudio = none
  pendingFlush : s.pendingFlush = none

/-- A key, mixed with the secret of the pairing if there was one. -/
def mixed (lib : Primitives) (secret : Option (Vector UInt8 32)) (key : Block) : Block :=
  match secret with
  | none => key
  | some shared => lib.rekeyMedia key shared

def StreamCrypto.mixed (lib : Primitives) (secret : Option (Vector UInt8 32)) :
    StreamCrypto → StreamCrypto
  | .none => .none
  | .aes key iv => .aes (AirPlay.mixed lib secret key) iv

/-- The media key of the mirror plane is mixed with the pairing secret, and its
streams run on it. -/
structure MirrorStep (s t : AirPlaySession P outside) : Prop where
  media : t.mediaKey = s.mediaKey ∨ ∃ keyMessage ekey aesKey iv,
    s.fairplay.keyMessage = some keyMessage ∧ outside.decryptKey keyMessage ekey = some aesKey ∧
      t.mediaKey = some ⟨mixed outside.toPrimitives s.pairedSecret aesKey, iv⟩
  picture : ∀ keys, t.mirror = .ready keys → s.mirror = .ready keys ∨
    ∃ media id, t.mediaKey = some media ∧ keys = .derive outside.toPrimitives media.key id
  sound : ∀ params, t.mirrorAudio = some params → s.mirrorAudio = some params ∨
    ∃ media, t.mediaKey = some media ∧ params.crypto = .aes media.key media.iv

/-- The keys of both planes are mixed with the pairing secret. -/
structure Mixed (s t : AirPlaySession P outside) (req : AirPlayRequest) : Prop where
  announced : ∀ params, req.endpoint = .announce →
    AnnounceParams.parse outside.toPrimitives req.body = .ok params →
      ∃ known, t.raop = .announced known ∧
        known.crypto = params.crypto.mixed outside.toPrimitives s.pairedSecret
  mirror : MirrorStep s t

structure Sound (t : Traced outside) (x : Input outside) : Prop where
  /-- A refused request costs nothing. -/
  refused : ∀ req, x = .request req → t.session.Refused req →
    SamePlanes t.session (t.session.next x)
  /-- Audio records after an `ANNOUNCE`, a `SETUP` and a `RECORD` in that order.
  -/
  recording : ∀ params, (t.session.next x).raop = .recording params →
    [Mark.announced, .setUp, .recorded].Sublist (t.step x).past
  /-- `RECORD` is acknowledged once key material was accepted. -/
  acknowledged : ∀ req, x = .request req → req.endpoint = .record → Mark.keyed ∈ t.past →
    (t.session.handle req).2 = some recordAck
  /-- A `TEARDOWN` that names streams changes nothing. -/
  named : ∀ req, x = .request req → req.endpoint = .teardown →
    teardownStreams outside req.body ≠ [] → t.session.next x = t.session
  /-- A whole `TEARDOWN` leaves nothing to a later `SETUP`. -/
  whole : ∀ req, x = .request req → req.endpoint = .teardown →
    teardownStreams outside req.body = [] → Cleared (t.session.next x)
  /-- The keys of both planes are mixed with the pairing secret. -/
  keys : ∀ req, x = .request req → Mixed t.session (t.session.next x) req

/-! ## The inputs that do not -/

/-- The stream a property list asks for can be given. -/
def streamAcceptable (s : AirPlaySession P outside) (dict : Plist.Dictionary) : Bool :=
  let key := s.mediaKey.isSome || carriesKey dict
  match (dict.get "streams").bind Plist.asArray with
  | none => carriesKey dict
  | some streams =>
    match named streams mirrorStream with
    | some _ => key && s.mirrorDataPort.isSome
    | none =>
      match named streams mirrorAudioStream with
      | none => false
      | some stream => key && s.localPorts.isSome && (namedCodec stream).isSome

def KeyGood (s : AirPlaySession P outside) (dict : Plist.Dictionary) : Prop :=
  ∃ key, s.keyMaterial dict = .ok key

/-- Every block of a property list can be accepted. -/
def Acceptable (s : AirPlaySession P outside) (dict : Plist.Dictionary) : Prop :=
  (carriesKey dict = true → KeyGood s dict) ∧ streamAcceptable s dict = true

/-- A property list names a control port where it is kept. -/
def ControlNoted (s : AirPlaySession P outside) (dict : Plist.Dictionary) : Prop :=
  carriesKey dict = false ∧ s.mediaKey.isSome ∧ s.localPorts.isSome ∧
    ∃ streams stream, (dict.get "streams").bind Plist.asArray = some streams ∧
      AirPlaySession.named streams mirrorStream = none ∧
      AirPlaySession.named streams mirrorAudioStream = some stream ∧
      (namedControl stream).isSome

/-- No block of a property list says anything that is kept. -/
def SaysNothing (s : AirPlaySession P outside) (dict : Plist.Dictionary) : Prop :=
  namedTiming dict = none ∧ ¬ (carriesKey dict = true ∧ KeyGood s dict) ∧ ¬ ControlNoted s dict

/-- **The inputs a session comes through.**  A property list has every block
acceptable or none that is kept; a `Transport` does not arrive in a recording; a
`RECORD` finds the mirror plane negotiating, a stream set up, or nothing at all;
and a whole `TEARDOWN` finds no media key and no flush point. -/
def Careful (s : AirPlaySession P outside) : Input outside → Prop
  | .request req =>
    match req.endpoint with
    | .setup =>
      if isPlist req then
        ∀ dict, dictionary? outside req.body = some dict →
          Acceptable s dict ∨ SaysNothing s dict
      else
        ∀ header sender params, req.header "Transport" = some header →
          parseTransport header.toList = .ok sender → s.localPorts.isSome →
            s.raop ≠ .recording params
    | .record =>
      s.mirroring = true ∨ (∃ params, s.raop = .setUp params) ∨
        (∃ params, s.raop = .recording params) ∨ (s.raop = .idle ∧ s.mediaKey = none)
    | .teardown =>
      teardownStreams outside req.body = [] → s.mediaKey = none ∧ s.pendingFlush = none
    | _ => True
  | _ => True

/-! ## Requests that touch neither plane -/

namespace SamePlanes

variable {s t u : AirPlaySession P outside}

theorem refl (s : AirPlaySession P outside) : SamePlanes s s := ⟨rfl, rfl, rfl, rfl, rfl⟩

theorem trans (hst : SamePlanes s t) (htu : SamePlanes t u) : SamePlanes s u where
  raop := htu.raop.trans hst.raop
  mirror := htu.mirror.trans hst.mirror
  mediaKey := htu.mediaKey.trans hst.mediaKey
  mirrorAudio := htu.mirrorAudio.trans hst.mirrorAudio
  senderPeers := htu.senderPeers.trans hst.senderPeers

end SamePlanes

variable {s : AirPlaySession P outside} {req : AirPlayRequest} {dict : Plist.Dictionary}
  {t : AirPlaySession P outside} {resp : AirPlayResponse P}

theorem samePlanes_fpSetup (body : Bytes) : SamePlanes s (s.fpSetup body).1 := by
  unfold fpSetup
  split
  · exact ⟨rfl, rfl, rfl, rfl, rfl⟩
  · exact .refl s

theorem samePlanes_onPairVerify (body : Bytes) : SamePlanes s (s.onPairVerify body).1 := by
  unfold onPairVerify
  cases body.head? with
  | none => exact .refl s
  | some marker =>
    dsimp only
    by_cases hfirst : marker = 1
    · rw [if_pos hfirst]
      cases outside.begin body with
      | none => exact .refl s
      | some begun => exact ⟨rfl, rfl, rfl, rfl, rfl⟩
    · by_cases hsecond : marker = 0
      · rw [if_neg hfirst, if_pos hsecond]
        cases s.pairVerify with
        | none => exact .refl s
        | some exchange =>
          dsimp only
          cases outside.finish exchange body with
          | none | some shared => exact ⟨rfl, rfl, rfl, rfl, rfl⟩
      · rw [if_neg hfirst, if_neg hsecond]
        exact .refl s

theorem samePlanes_setParameter : SamePlanes s (s.setParameter req).1 := by
  unfold setParameter
  split
  · exact .refl s
  · exact ⟨rfl, rfl, rfl, rfl, rfl⟩
  · exact .refl s
  · exact .refl s
  · exact .refl s
  · exact .refl s

theorem samePlanes_flush : SamePlanes s (s.flush req).1 := by
  unfold flush
  cases req.header "RTP-Info" with
  | none => exact .refl s
  | some header => exact ⟨rfl, rfl, rfl, rfl, rfl⟩

def Moves (req : AirPlayRequest) : Prop :=
  req.endpoint = .announce ∨ req.endpoint = .setup ∨ req.endpoint = .record ∨
    req.endpoint = .teardown

theorem samePlanes_handle (h : ¬ Moves req) : SamePlanes s (s.handle req).1 := by
  unfold Moves at h
  unfold handle
  cases hendpoint : req.endpoint with
  | options | info => exact .refl s
  | fpSetup => exact samePlanes_fpSetup req.body
  | pairSetup => exact .refl s
  | pairVerify => exact samePlanes_onPairVerify req.body
  | homeKit | feedback => exact .refl s
  | video endpoint => exact ⟨rfl, rfl, rfl, rfl, rfl⟩
  | audioMode => exact .refl s
  | announce => exact absurd (Or.inl hendpoint) h
  | setup => exact absurd (Or.inr (Or.inl hendpoint)) h
  | record => exact absurd (Or.inr (Or.inr (Or.inl hendpoint))) h
  | setParameter => exact samePlanes_setParameter
  | getParameter => exact .refl s
  | flush => exact samePlanes_flush
  | teardown => exact absurd (Or.inr (Or.inr (Or.inr hendpoint))) h
  | unhandled => exact .refl s

/-! ## The property lists -/

def noted (s : AirPlaySession P outside) (dict : Plist.Dictionary) : AirPlaySession P outside :=
  (s.noteTimingRegime dict).noteSender dict

theorem noted_eq (s : AirPlaySession P outside) (dict : Plist.Dictionary) :
    ∃ peers sender, noted s dict = { s with senderPeers := peers, sender := sender } ∧
      (namedTiming dict = none → peers = s.senderPeers) := by
  unfold noted noteSender noteTimingRegime
  cases namedTiming dict with
  | none =>
    split
    · exact ⟨s.senderPeers, s.sender, rfl, fun _ => rfl⟩
    · exact ⟨s.senderPeers, _, rfl, fun _ => rfl⟩
  | some port =>
    split
    · exact ⟨_, s.sender, rfl, fun h => (by cases h)⟩
    · exact ⟨_, _, rfl, fun h => (by cases h)⟩

theorem keyMaterial_noted (dict more : Plist.Dictionary) :
    (noted s dict).keyMaterial more = s.keyMaterial more := by
  obtain ⟨peers, sender, heq, -⟩ := noted_eq s dict
  rw [heq]
  rfl

/-- A property list that names no timing port notes no more than a name. -/
theorem samePlanes_noted (h : namedTiming dict = none) :
    SamePlanes s (noted s dict) := by
  obtain ⟨peers, sender, heq, hpeers⟩ := noted_eq s dict
  rw [heq]
  exact ⟨rfl, rfl, rfl, rfl, hpeers h⟩

def withKey (s : AirPlaySession P outside) (key : MediaKey) : AirPlaySession P outside :=
  { s with mediaKey := some key, mirror := .keyMaterial }

/-- The four ways through a property list. -/
theorem mirrorSetup_cases (s : AirPlaySession P outside) (body : Bytes) :
    (dictionary? outside body = none ∧ s.mirrorSetup body = (s, .ofStatus 400)) ∨
    ∃ dict, dictionary? outside body = some dict ∧
      ((carriesKey dict = false ∧ s.mirrorSetup body = (noted s dict).streamSetup dict) ∨
        (carriesKey dict = true ∧ ∃ status, s.keyMaterial dict = .error status ∧
          s.mirrorSetup body = (noted s dict, .ofStatus status)) ∨
        (carriesKey dict = true ∧ ∃ key, s.keyMaterial dict = .ok key ∧
          s.mirrorSetup body = (withKey (noted s dict) key).streamSetup dict)) := by
  unfold mirrorSetup dictionary?
  cases (outside.readPlist body).bind Plist.asDictionary with
  | none => exact .inl ⟨rfl, rfl⟩
  | some dict =>
    have hkey : (noted s dict).acceptKeyMaterial dict =
        (s.keyMaterial dict).map (withKey (noted s dict)) := by
      unfold acceptKeyMaterial
      rw [keyMaterial_noted]
      cases s.keyMaterial dict with
      | error status | ok key => rfl
    refine .inr ⟨dict, rfl, ?_⟩
    dsimp only
    rw [← noted, hkey]
    cases carriesKey dict with
    | false => exact .inl ⟨rfl, rfl⟩
    | true =>
      cases s.keyMaterial dict with
      | error status => exact .inr (.inl ⟨rfl, status, rfl, rfl⟩)
      | ok key => exact .inr (.inr ⟨rfl, key, rfl, rfl⟩)

theorem noteControl_eq (s : AirPlaySession P outside) (stream : Plist.Dictionary) :
    ∃ peers, s.noteControl stream = { s with senderPeers := peers } ∧
      (namedControl stream = none → peers = s.senderPeers) := by
  unfold noteControl
  cases namedControl stream with
  | none => exact ⟨s.senderPeers, rfl, fun _ => rfl⟩
  | some port => exact ⟨_, rfl, fun h => (by cases h)⟩

/-- The stream entry of realtime audio that a property list asks for. -/
def AsksAudio (dict : Plist.Dictionary) (stream : Plist.Dictionary) : Prop :=
  ∃ streams, (dict.get "streams").bind Plist.asArray = some streams ∧
    AirPlaySession.named streams mirrorStream = none ∧
    AirPlaySession.named streams mirrorAudioStream = some stream

/-- The ways through the rest of a property list: refused outright, refused for
its codec, the picture's stream, an audio stream, or an answer to key material
alone. -/
theorem streamSetup_cases (s : AirPlaySession P outside) (dict : Plist.Dictionary) :
    (∃ status, 400 ≤ status ∧ s.streamSetup dict = (s, .ofStatus status)) ∨
    (∃ stream, AsksAudio dict stream ∧ s.mediaKey.isSome ∧ s.localPorts.isSome ∧
      s.streamSetup dict = (s.noteControl stream, .ofStatus 451)) ∨
    (∃ media id reply, s.mediaKey = some media ∧
      s.streamSetup dict =
        ({ s with mirror := .ready (.derive outside.toPrimitives media.key id) },
          plistResponse outside reply)) ∨
    (∃ media stream codec min max reply, s.mediaKey = some media ∧
      s.streamSetup dict =
        ({ (s.noteControl stream).negotiated
            ((AnnounceParams.plistStream codec media.key media.iv).withDeclaredLatency min max) with
            mirrorAudio := some
              ((AnnounceParams.plistStream codec media.key media.iv).withDeclaredLatency min max) },
          plistResponse outside reply)) ∨
    ∃ reply, s.streamSetup dict = (s, plistResponse outside reply) := by
  unfold streamSetup
  cases hstreams : (dict.get "streams").bind Plist.asArray with
  | none =>
    dsimp only
    by_cases hkey : carriesKey dict = true
    · rw [if_pos hkey]
      exact .inr (.inr (.inr (.inr ⟨_, rfl⟩)))
    · rw [if_neg hkey]
      exact .inl ⟨400, le_rfl, rfl⟩
  | some streams =>
    dsimp only
    cases hpicture : AirPlaySession.named streams mirrorStream with
    | some stream =>
      dsimp only
      unfold mirrorStreams
      cases hmedia : s.mediaKey with
      | none => exact .inl ⟨451, by decide, rfl⟩
      | some media =>
        cases hport : s.mirrorDataPort with
        | none => exact .inl ⟨500, by decide, rfl⟩
        | some port => exact .inr (.inr (.inl ⟨media, _, _, rfl, rfl⟩))
    | none =>
      dsimp only
      cases haudio : AirPlaySession.named streams mirrorAudioStream with
      | none => exact .inl ⟨400, le_rfl, rfl⟩
      | some stream =>
        dsimp only
        unfold mirrorAudioSetup
        cases hmedia : s.mediaKey with
        | none => exact .inl ⟨451, by decide, rfl⟩
        | some media =>
          cases hports : s.localPorts with
          | none => exact .inl ⟨500, by decide, rfl⟩
          | some ports =>
            dsimp only
            cases hcodec : namedCodec stream with
            | none =>
              exact .inr (.inl ⟨stream, ⟨streams, hstreams, hpicture, haudio⟩, rfl, rfl,
                rfl⟩)
            | some codec =>
              exact .inr (.inr (.inr (.inl ⟨media, stream, codec, _, _, _, rfl, rfl⟩)))

theorem not_refuses_plistResponse (hwrite : ∀ dict, (outside.writePlist dict).isSome)
    (dict : Plist.Dictionary) : ¬ (plistResponse outside dict).Refuses := by
  unfold plistResponse
  cases hbody : outside.writePlist dict with
  | none =>
    have hsome := hwrite dict
    rw [hbody] at hsome
    cases hsome
  | some body =>
    change ¬ 400 ≤ 200
    decide

theorem not_refuses_streamSetup (hwrite : ∀ dict, (outside.writePlist dict).isSome)
    (hkey : carriesKey dict = true → s.mediaKey.isSome)
    (h : streamAcceptable s dict = true) : ¬ (s.streamSetup dict).2.Refuses := by
  have hmedia : (s.mediaKey.isSome || carriesKey dict) = s.mediaKey.isSome := by
    cases hcarries : carriesKey dict with
    | false => rw [Bool.or_false]
    | true => rw [hkey hcarries, Bool.true_or]
  unfold streamAcceptable at h
  unfold streamSetup
  dsimp only at h
  rw [hmedia] at h
  cases hstreams : (dict.get "streams").bind Plist.asArray with
  | none =>
    rw [hstreams] at h
    dsimp only at h ⊢
    rw [if_pos h]
    exact not_refuses_plistResponse hwrite _
  | some streams =>
    rw [hstreams] at h
    dsimp only at h ⊢
    cases hpicture : AirPlaySession.named streams mirrorStream with
    | some stream =>
      rw [hpicture] at h
      obtain ⟨hsome, hport⟩ := Bool.and_eq_true_iff.mp h
      obtain ⟨media, hmedia⟩ := Option.isSome_iff_exists.mp hsome
      obtain ⟨port, hport⟩ := Option.isSome_iff_exists.mp hport
      dsimp only
      unfold mirrorStreams
      rw [hmedia, hport]
      exact not_refuses_plistResponse hwrite _
    | none =>
      rw [hpicture] at h
      dsimp only at h ⊢
      cases haudio : AirPlaySession.named streams mirrorAudioStream with
      | none =>
        rw [haudio] at h
        cases h
      | some stream =>
        rw [haudio] at h
        obtain ⟨hboth, hcodec⟩ := Bool.and_eq_true_iff.mp h
        obtain ⟨hsome, hports⟩ := Bool.and_eq_true_iff.mp hboth
        obtain ⟨media, hmedia⟩ := Option.isSome_iff_exists.mp hsome
        obtain ⟨ports, hports⟩ := Option.isSome_iff_exists.mp hports
        obtain ⟨codec, hcodec⟩ := Option.isSome_iff_exists.mp hcodec
        dsimp only
        unfold mirrorAudioSetup
        rw [hmedia, hports]
        dsimp only
        rw [hcodec]
        exact not_refuses_plistResponse hwrite _

theorem SamePlanes.mirrorStep (h : SamePlanes s t) :
    MirrorStep s t where
  media := .inl h.mediaKey
  picture := fun _ hkeys => .inl (h.mirror ▸ hkeys)
  sound := fun _ hparams => .inl (h.mirrorAudio ▸ hparams)

theorem mirrorStep_streamSetup (dict : Plist.Dictionary) :
    MirrorStep s (s.streamSetup dict).1 ∧ (s.streamSetup dict).1.mediaKey = s.mediaKey ∧
      (s.streamSetup dict).1.raop = s.raop := by
  rcases streamSetup_cases s dict with
    ⟨status, -, heq⟩ | ⟨stream, -, -, -, heq⟩ | ⟨media, id, reply, hmedia, heq⟩ |
      ⟨media, stream, codec, min, max, reply, hmedia, heq⟩ | ⟨reply, heq⟩
  · rw [heq]
    exact ⟨(SamePlanes.refl s).mirrorStep, rfl, rfl⟩
  · obtain ⟨peers, hpeers, -⟩ := noteControl_eq s stream
    rw [heq, hpeers]
    exact ⟨⟨.inl rfl, fun keys h => .inl h, fun params h => .inl h⟩, rfl, rfl⟩
  · rw [heq]
    refine ⟨⟨.inl rfl, fun keys h => .inr ⟨media, id, hmedia, ?_⟩, fun _ h => .inl h⟩, rfl, rfl⟩
    exact (MirrorState.ready.inj h).symm
  · obtain ⟨peers, hpeers, -⟩ := noteControl_eq s stream
    rw [heq, hpeers]
    refine ⟨⟨.inl rfl, fun keys h => .inl h, fun params h => .inr ⟨media, hmedia, ?_⟩⟩, rfl, rfl⟩
    rw [← Option.some.inj h]
    rfl
  · rw [heq]
    exact ⟨(SamePlanes.refl s).mirrorStep, rfl, rfl⟩

/-- Accepted key material is mixed with the pairing secret. -/
theorem keyMaterial_ok {key : MediaKey} (h : s.keyMaterial dict = .ok key) :
    ∃ keyMessage ekey aesKey, s.fairplay.keyMessage = some keyMessage ∧
      outside.decryptKey keyMessage ekey = some aesKey ∧
      key.key = mixed outside.toPrimitives s.pairedSecret aesKey := by
  unfold keyMaterial at h
  cases hdata : (dict.get "ekey").bind Plist.asData with
  | none => rw [hdata] at h; cases h
  | some data =>
    rw [hdata] at h
    cases hekey : exactly 72 data with
    | none => simp only [hekey] at h; cases h
    | some ekey =>
      simp only [hekey] at h
      cases heiv : ((dict.get "eiv").bind Plist.asData).bind (exactly 16) with
      | none => simp only [heiv] at h; cases h
      | some eiv =>
        simp only [heiv] at h
        cases hmessage : s.fairplay.keyMessage with
        | none => simp only [hmessage] at h; cases h
        | some keyMessage =>
          simp only [hmessage] at h
          cases haes : outside.decryptKey keyMessage ekey with
          | none => simp only [haes] at h; cases h
          | some aesKey =>
            simp only [haes] at h
            refine ⟨keyMessage, ekey, aesKey, rfl, haes, ?_⟩
            unfold mixed
            cases hsecret : s.pairedSecret with
            | none | some shared =>
              simp only [hsecret] at h
              rw [← Except.ok.inj h]

theorem keyMaterial_error {status : ℕ} (h : s.keyMaterial dict = .error status) : 400 ≤ status := by
  unfold keyMaterial at h
  split at h
  · cases h; decide
  · split at h
    · cases h; decide
    · split at h
      · cases h; decide
      · split at h
        · cases h; decide
        · split at h
          · cases h; decide
          · split at h
            · cases h
            · cases h

theorem mirrorStep_mirrorSetup (body : Bytes) :
    MirrorStep s (s.mirrorSetup body).1 ∧ (s.mirrorSetup body).1.raop = s.raop := by
  rcases mirrorSetup_cases s body with ⟨-, heq⟩ | ⟨dict, -, hcases⟩
  · rw [heq]
    exact ⟨(SamePlanes.refl s).mirrorStep, rfl⟩
  · obtain ⟨peers, sender, hnoted, -⟩ := noted_eq s dict
    rcases hcases with ⟨-, heq⟩ | ⟨-, status, -, heq⟩ | ⟨-, key, hkey, heq⟩
    · rw [heq]
      obtain ⟨hstep, -, hraop⟩ := mirrorStep_streamSetup (s := noted s dict) dict
      rw [hnoted] at hstep hraop ⊢
      exact ⟨⟨hstep.media, hstep.picture, hstep.sound⟩, hraop⟩
    · rw [heq, hnoted]
      exact ⟨⟨.inl rfl, fun keys h => .inl h, fun params h => .inl h⟩, rfl⟩
    · rw [heq]
      obtain ⟨hstep, hsame, hraop⟩ := mirrorStep_streamSetup (s := withKey (noted s dict) key) dict
      rw [hnoted] at hstep hsame hraop ⊢
      obtain ⟨keyMessage, ekey, aesKey, hmessage, haes, hmixed⟩ := keyMaterial_ok hkey
      refine ⟨⟨.inr ⟨keyMessage, ekey, aesKey, key.iv, hmessage, haes, ?_⟩, ?_, ?_⟩, hraop⟩
      · rw [hsame, ← hmixed]
        rfl
      · intro keys hkeys
        rcases hstep.picture keys hkeys with hbefore | hafter
        · cases hbefore
        · exact .inr hafter
      · exact hstep.sound

/-- Where every block can be accepted, the property list is. -/
theorem not_refuses_mirrorSetup (hwrite : ∀ dict, (outside.writePlist dict).isSome) {body : Bytes}
    (hdict : dictionary? outside body = some dict)
    (h : Acceptable s dict) : ¬ (s.mirrorSetup body).2.Refuses := by
  obtain ⟨peers, sender, hnoted, -⟩ := noted_eq s dict
  rcases mirrorSetup_cases s body with ⟨hnone, -⟩ | ⟨read, hread, hcases⟩
  · rw [hdict] at hnone
    cases hnone
  · obtain rfl : dict = read := Option.some.inj (hdict.symm.trans hread)
    rcases hcases with ⟨hcarries, heq⟩ | ⟨hcarries, status, hkey, -⟩ | ⟨hcarries, key, -, heq⟩
    · rw [heq]
      apply not_refuses_streamSetup hwrite
      · intro htrue
        rw [hcarries] at htrue
        cases htrue
      · rw [hnoted]
        exact h.2
    · obtain ⟨key, hgood⟩ := h.1 hcarries
      rw [hkey] at hgood
      cases hgood
    · rw [heq]
      apply not_refuses_streamSetup hwrite (fun _ => rfl)
      have hstream := h.2
      unfold streamAcceptable at hstream ⊢
      rw [hcarries, Bool.or_true] at hstream
      rw [hcarries, Bool.or_true, hnoted]
      exact hstream

/-- A property list that is refused, and says nothing that is kept, costs
nothing. -/
theorem samePlanes_mirrorSetup {body : Bytes}
    (hsilent : ∀ dict, dictionary? outside body = some dict → SaysNothing s dict)
    (hrefused : (s.mirrorSetup body).2.Refuses)
    (hwrite : ∀ dict, (outside.writePlist dict).isSome) : SamePlanes s (s.mirrorSetup body).1 := by
  rcases mirrorSetup_cases s body with ⟨-, heq⟩ | ⟨dict, hdict, hcases⟩
  · rw [heq]
    exact .refl s
  · obtain ⟨htiming, hkey, hcontrol⟩ := hsilent dict hdict
    have hnoted := samePlanes_noted (s := s) htiming
    rcases hcases with ⟨hcarries, heq⟩ | ⟨-, status, -, heq⟩ | ⟨hcarries, key, hgood, -⟩
    · rw [heq] at hrefused ⊢
      refine hnoted.trans ?_
      rcases streamSetup_cases (noted s dict) dict with
        ⟨status, -, heq⟩ | ⟨stream, hasks, hmedia, hports, heq⟩ | ⟨media, id, reply, -, heq⟩ |
          ⟨media, stream, codec, min, max, reply, -, heq⟩ | ⟨reply, heq⟩
      · rw [heq]
        exact .refl _
      · obtain ⟨streams, hstreams, hpicture, haudio⟩ := hasks
        obtain ⟨peers, hpeers, hsame⟩ := noteControl_eq (noted s dict) stream
        obtain ⟨_, _, hfields, -⟩ := noted_eq s dict
        have hnone : namedControl stream = none := by
          by_contra hsome
          rw [hfields] at hmedia hports
          exact hcontrol ⟨hcarries, hmedia, hports, streams, stream, hstreams, hpicture, haudio,
            Option.isSome_iff_ne_none.mpr hsome⟩
        rw [heq, hpeers]
        exact ⟨rfl, rfl, rfl, rfl, hsame hnone⟩
      · rw [heq] at hrefused
        exact absurd hrefused (not_refuses_plistResponse hwrite reply)
      · rw [heq] at hrefused
        exact absurd hrefused (not_refuses_plistResponse hwrite reply)
      · rw [heq] at hrefused
        exact absurd hrefused (not_refuses_plistResponse hwrite reply)
    · rw [heq]
      exact hnoted
    · exact absurd ⟨hcarries, key, hgood⟩ hkey

theorem keyed_mirrorSetup {body : Bytes}
    (hdict : dictionary? outside body = some dict) (hcarries : carriesKey dict = true)
    (haccepts : ¬ (s.mirrorSetup body).2.Refuses) : (s.mirrorSetup body).1.mediaKey.isSome := by
  rcases mirrorSetup_cases s body with ⟨hnone, -⟩ | ⟨read, hread, hcases⟩
  · rw [hdict] at hnone
    cases hnone
  · obtain rfl : dict = read := Option.some.inj (hdict.symm.trans hread)
    rcases hcases with ⟨hfalse, -⟩ | ⟨-, status, hkey, heq⟩ | ⟨-, key, -, heq⟩
    · rw [hcarries] at hfalse
      cases hfalse
    · rw [heq] at haccepts
      exact absurd (keyMaterial_error hkey) haccepts
    · obtain ⟨-, hsame, -⟩ := mirrorStep_streamSetup (s := withKey (noted s dict) key) dict
      rw [heq, hsame]
      rfl

/-! ## The audio stream -/

def stages : RaopState → List Mark
  | .idle => []
  | .announced _ => [.announced]
  | .setUp _ => [.announced, .setUp]
  | .recording _ => [.announced, .setUp, .recorded]

theorem announce_cases (s : AirPlaySession P outside) (body : Bytes) :
    (∃ e, AnnounceParams.parse outside.toPrimitives body = .error e ∧
      s.announce body = (s, .ofStatus e.rtspStatus)) ∨
    ∃ params known, AnnounceParams.parse outside.toPrimitives body = .ok params ∧
      known.crypto = params.crypto.mixed outside.toPrimitives s.pairedSecret ∧
      s.announce body = ({ s.negotiated known with raop := .announced known }, .ok) := by
  unfold announce
  cases AnnounceParams.parse outside.toPrimitives body with
  | error e => exact .inl ⟨e, rfl, rfl⟩
  | ok params =>
    refine .inr ⟨params, _, rfl, ?_, rfl⟩
    cases hsecret : s.pairedSecret with
    | none => cases hcrypto : params.crypto <;> rfl
    | some shared =>
      dsimp only
      unfold AnnounceParams.rekeyWith
      cases hcrypto : params.crypto with
      | none => exact hcrypto
      | aes key iv => rfl

/-- A `Transport` is refused before the state is taken, refused for the state,
or agreed. -/
theorem transportSetup_cases (s : AirPlaySession P outside) (req : AirPlayRequest) :
    (∃ status, 400 ≤ status ∧ s.transportSetup req = (s, .ofStatus status)) ∨
    (∃ header sender, req.header "Transport" = some header ∧
      parseTransport header.toList = .ok sender ∧ s.localPorts.isSome ∧
      (s.raop = .idle ∨ ∃ params, s.raop = .recording params) ∧
      s.transportSetup req = ({ s with raop := .idle }, .ofStatus 451)) ∨
    ∃ params sender resp, (s.raop = .announced params ∨ s.raop = .setUp params) ∧
      s.transportSetup req =
        ({ s with senderPeers := .from sender, raop := .setUp params }, resp) ∧
      ¬ resp.Refuses := by
  unfold transportSetup
  cases hheader : req.header "Transport" with
  | none => exact .inl ⟨400, le_rfl, rfl⟩
  | some header =>
    dsimp only
    cases hparse : parseTransport header.toList with
    | error e => exact .inl ⟨461, by decide, rfl⟩
    | ok sender =>
      dsimp only
      cases hports : s.localPorts with
      | none => exact .inl ⟨500, by decide, rfl⟩
      | some ports =>
        have hagreed : ¬ ((AirPlayResponse.ok (P := P)).header "Transport"
            (formatTransport ports) |>.header "Session" "1").Refuses := by
          change ¬ 400 ≤ 200
          decide
        dsimp only
        cases hraop : s.raop with
        | idle => exact .inr (.inl ⟨header, sender, rfl, hparse, rfl, .inl rfl, rfl⟩)
        | recording params =>
          exact .inr (.inl ⟨header, sender, rfl, hparse, rfl, .inr ⟨params, rfl⟩, rfl⟩)
        | announced params => exact .inr (.inr ⟨params, sender, _, .inl rfl, rfl, hagreed⟩)
        | setUp params => exact .inr (.inr ⟨params, sender, _, .inr rfl, rfl, hagreed⟩)

theorem record_cases (s : AirPlaySession P outside) :
    (s.mirroring = true ∧ s.record = (s, recordAck)) ∨
    (s.mirroring = false ∧ ∃ params, (s.raop = .setUp params ∨ s.raop = .recording params) ∧
      s.record = ({ s with raop := .recording params }, recordAck)) ∨
    (s.mirroring = false ∧ (s.raop = .idle ∨ ∃ params, s.raop = .announced params) ∧
      s.record = ({ s with raop := .idle }, .ofStatus 455)) := by
  unfold record
  cases hmirroring : s.mirroring with
  | true => exact .inl ⟨rfl, rfl⟩
  | false =>
    rw [if_neg Bool.false_ne_true]
    cases hraop : s.raop with
    | idle => exact .inr (.inr ⟨rfl, .inl rfl, rfl⟩)
    | announced params => exact .inr (.inr ⟨rfl, .inr ⟨params, rfl⟩, rfl⟩)
    | setUp params => exact .inr (.inl ⟨rfl, params, .inl rfl, rfl⟩)
    | recording params => exact .inr (.inl ⟨rfl, params, .inr rfl, rfl⟩)

/-! ## One request -/

theorem handle_announce (h : req.endpoint = .announce) :
    s.handle req = ((s.announce req.body).1, some (s.announce req.body).2) := by
  simp only [handle, h]

theorem handle_setup (h : req.endpoint = .setup) :
    s.handle req = ((s.setup req).1, some (s.setup req).2) := by
  simp only [handle, h]

theorem handle_record (h : req.endpoint = .record) :
    s.handle req = (s.record.1, some s.record.2) := by
  simp only [handle, h]

theorem handle_teardown (h : req.endpoint = .teardown) :
    s.handle req = ((s.teardown req.body).1, some (s.teardown req.body).2) := by
  simp only [handle, h]

theorem accepts_of (h : s.handle req = (t, some resp)) : s.accepts req = true ↔ ¬ resp.Refuses := by
  unfold accepts
  rw [h]
  simp

theorem refused_of (h : s.handle req = (t, some resp)) : s.Refused req ↔ resp.Refuses := by
  unfold Refused
  rw [h]
  simp

/-- **A refused request costs nothing**, where the session comes through. -/
theorem samePlanes_of_refused (hwrite : ∀ dict, (outside.writePlist dict).isSome)
    (hcareful : Careful s (.request req)) (hrefused : s.Refused req) :
    SamePlanes s (s.handle req).1 := by
  by_cases hmoves : Moves req
  · unfold Careful at hcareful
    rcases hmoves with hend | hend | hend | hend
    · rw [refused_of (handle_announce hend)] at hrefused
      rw [handle_announce hend]
      rcases announce_cases s req.body with ⟨e, -, heq⟩ | ⟨params, known, -, -, heq⟩
      · rw [heq]
        exact .refl s
      · rw [heq] at hrefused
        exact absurd hrefused (by change ¬ 400 ≤ 200; decide)
    · rw [refused_of (handle_setup hend)] at hrefused
      simp only [hend] at hcareful
      rw [handle_setup hend]
      unfold setup at hrefused ⊢
      by_cases hplist : isPlist req = true
      · rw [if_pos hplist] at hrefused hcareful ⊢
        refine samePlanes_mirrorSetup (fun dict hdict => ?_) hrefused hwrite
        rcases hcareful dict hdict with haccept | hsilent
        · exact absurd hrefused (not_refuses_mirrorSetup hwrite hdict haccept)
        · exact hsilent
      · rw [if_neg hplist] at hrefused hcareful ⊢
        rcases transportSetup_cases s req with
          ⟨status, -, heq⟩ | ⟨header, sender, hheader, hparse, hports, hraop, heq⟩ |
            ⟨params, sender, resp, -, heq, haccept⟩
        · rw [heq]
          exact .refl s
        · rcases hraop with hidle | ⟨params, hrecording⟩
          · rw [heq]
            exact ⟨hidle.symm, rfl, rfl, rfl, rfl⟩
          · exact absurd hrecording (hcareful header sender params hheader hparse hports)
        · rw [heq] at hrefused
          exact absurd hrefused haccept
    · rw [refused_of (handle_record hend)] at hrefused
      simp only [hend] at hcareful
      rw [handle_record hend]
      rcases record_cases s with ⟨-, heq⟩ | ⟨-, params, -, heq⟩ | ⟨hmirroring, hraop, heq⟩
      · rw [heq]
        exact .refl s
      · rw [heq] at hrefused
        exact absurd hrefused (by change ¬ 400 ≤ 200; decide)
      · rw [heq]
        have hidle : s.raop = .idle := by
          rcases hcareful with h | ⟨params, h⟩ | ⟨params, h⟩ | ⟨h, -⟩
          · rw [hmirroring] at h
            cases h
          · rcases hraop with hr | ⟨_, hr⟩ <;> rw [hr] at h <;> cases h
          · rcases hraop with hr | ⟨_, hr⟩ <;> rw [hr] at h <;> cases h
          · exact h
        exact ⟨hidle.symm, rfl, rfl, rfl, rfl⟩
    · rw [refused_of (handle_teardown hend)] at hrefused
      unfold teardown at hrefused
      split at hrefused
      · exact absurd hrefused (by change ¬ 400 ≤ 200; decide)
      · exact absurd hrefused (by change ¬ 400 ≤ 200; decide)
  · exact samePlanes_handle hmoves

theorem mixed_handle : Mixed s (s.handle req).1 req := by
  by_cases hmoves : Moves req
  · rcases hmoves with hend | hend | hend | hend
    · rw [handle_announce hend]
      rcases announce_cases s req.body with ⟨e, herror, heq⟩ | ⟨params, known, hok, hmixed, heq⟩
      · rw [heq]
        refine ⟨fun params _ hok => ?_, (SamePlanes.refl s).mirrorStep⟩
        rw [herror] at hok
        cases hok
      · rw [heq]
        refine ⟨fun read _ hread => ⟨known, rfl, ?_⟩, .inl rfl, fun keys h => .inl h,
          fun params h => .inl h⟩
        rw [hok] at hread
        rw [hmixed, Except.ok.inj hread]
    · refine ⟨fun params h => ?_, ?_⟩
      · rw [hend] at h
        cases h
      · rw [handle_setup hend]
        unfold setup
        by_cases hplist : isPlist req = true
        · rw [if_pos hplist]
          exact (mirrorStep_mirrorSetup req.body).1
        · rw [if_neg hplist]
          rcases transportSetup_cases s req with
            ⟨status, -, heq⟩ | ⟨_, _, -, -, -, -, heq⟩ | ⟨_, _, _, -, heq, -⟩
          · rw [heq]
            exact (SamePlanes.refl s).mirrorStep
          · rw [heq]
            exact ⟨.inl rfl, fun keys h => .inl h, fun params h => .inl h⟩
          · rw [heq]
            exact ⟨.inl rfl, fun keys h => .inl h, fun params h => .inl h⟩
    · refine ⟨fun params h => ?_, ?_⟩
      · rw [hend] at h
        cases h
      · rw [handle_record hend]
        rcases record_cases s with ⟨-, heq⟩ | ⟨-, params, -, heq⟩ | ⟨-, -, heq⟩
        · rw [heq]
          exact (SamePlanes.refl s).mirrorStep
        · rw [heq]
          exact ⟨.inl rfl, fun keys h => .inl h, fun params h => .inl h⟩
        · rw [heq]
          exact ⟨.inl rfl, fun keys h => .inl h, fun params h => .inl h⟩
    · refine ⟨fun params h => ?_, ?_⟩
      · rw [hend] at h
        cases h
      · rw [handle_teardown hend]
        unfold teardown
        split
        · exact ⟨.inl rfl, fun keys h => (by cases h), fun params h => (by cases h)⟩
        · exact (SamePlanes.refl s).mirrorStep
  · refine ⟨fun params h => absurd (Or.inl h) hmoves, (samePlanes_handle hmoves).mirrorStep⟩

theorem sublist_remember {past marks : List Mark} {m : Option Mark} (hm : m ≠ some .torn)
    (h : marks.Sublist past) : marks.Sublist (Traced.remember past m) := by
  cases m with
  | none => exact h
  | some m =>
    have happend : marks.Sublist (past ++ [m]) := h.trans (List.sublist_append_left past [m])
    cases m with
    | torn => exact absurd rfl hm
    | announced | setUp | recorded | keyed => exact happend

theorem mark_request :
    mark s (.request req) = if s.accepts req then markOf outside req else none := rfl

theorem mark_of_refuses (h : s.handle req = (t, some resp)) (hrefuses : resp.Refuses) :
    mark s (.request req) = none := by
  rw [mark_request, if_neg ((accepts_of h).not.mpr (not_not.mpr hrefuses))]

theorem mark_of_accepts (h : s.handle req = (t, some resp)) (haccepts : ¬ resp.Refuses) :
    mark s (.request req) = markOf outside req := by
  rw [mark_request, if_pos ((accepts_of h).mpr haccepts)]

theorem mark_of_quiet (h : ¬ Moves req) : mark s (.request req) = none := by
  have hmark : markOf outside req = none := by
    unfold Moves at h
    unfold markOf
    cases hend : req.endpoint with
    | announce => exact absurd (Or.inl hend) h
    | setup => exact absurd (Or.inr (Or.inl hend)) h
    | record => exact absurd (Or.inr (Or.inr (Or.inl hend))) h
    | teardown => exact absurd (Or.inr (Or.inr (Or.inr hend))) h
    | _ => rfl
  rw [mark_request, hmark, ite_self]

theorem markOf_plist (hend : req.endpoint = .setup) (hplist : isPlist req = true) :
    markOf outside req = none ∨ markOf outside req = some .keyed := by
  unfold markOf
  rw [hend]
  dsimp only
  rw [if_pos hplist]
  cases dictionary? outside req.body with
  | none => exact .inl rfl
  | some dict =>
    dsimp only
    split
    · exact .inr rfl
    · exact .inl rfl

theorem mark_plist (hend : req.endpoint = .setup) (hplist : isPlist req = true) :
    mark s (.request req) ≠ some .torn := by
  rw [mark_request]
  split
  · rcases markOf_plist hend hplist with h | h <;> rw [h] <;> exact fun h => (by cases h)
  · exact fun h => (by cases h)

/-- The marks keep up with the audio stream. -/
theorem stages_request {past : List Mark} (h : (stages s.raop).Sublist past) :
    (stages (s.handle req).1.raop).Sublist (Traced.remember past (mark s (.request req))) := by
  by_cases hmoves : Moves req
  · rcases hmoves with hend | hend | hend | hend
    · have hhandle := handle_announce (s := s) hend
      rcases announce_cases s req.body with ⟨e, -, heq⟩ | ⟨params, known, -, -, heq⟩
      · rw [mark_of_refuses hhandle (by rw [heq]; exact e.refuses), hhandle, heq]
        exact h
      · have hmark : mark s (.request req) = some .announced := by
          rw [mark_of_accepts hhandle (by rw [heq]; change ¬ 400 ≤ 200; decide)]
          simp only [markOf, hend]
        rw [hmark, hhandle, heq]
        exact List.sublist_append_right past [Mark.announced]
    · have hhandle := handle_setup (s := s) hend
      rw [hhandle]
      unfold setup at hhandle ⊢
      by_cases hplist : isPlist req = true
      · rw [if_pos hplist, (mirrorStep_mirrorSetup req.body).2]
        exact sublist_remember (mark_plist hend hplist) h
      · rw [if_neg hplist] at hhandle ⊢
        rcases transportSetup_cases s req with
          ⟨status, hstatus, heq⟩ | ⟨_, _, -, -, -, -, heq⟩ | ⟨params, sender, resp, hraop, heq, hok⟩
        · rw [mark_of_refuses hhandle (by rw [heq]; exact hstatus), heq]
          exact h
        · rw [heq]
          exact List.nil_sublist _
        · have hmark : mark s (.request req) = some .setUp := by
            rw [mark_of_accepts hhandle (by rw [heq]; exact hok)]
            simp only [markOf, hend, if_neg hplist]
          rw [hmark, heq]
          rcases hraop with hr | hr
          · rw [hr] at h
            exact h.append (List.Sublist.refl [Mark.setUp])
          · rw [hr] at h
            exact h.trans (List.sublist_append_left past [Mark.setUp])
    · have hhandle := handle_record (s := s) hend
      rcases record_cases s with ⟨-, heq⟩ | ⟨-, params, hraop, heq⟩ | ⟨-, -, heq⟩
      · have hmark : mark s (.request req) = some .recorded := by
          rw [mark_of_accepts hhandle (by rw [heq]; change ¬ 400 ≤ 200; decide)]
          simp only [markOf, hend]
        rw [hmark, hhandle, heq]
        exact h.trans (List.sublist_append_left past [Mark.recorded])
      · have hmark : mark s (.request req) = some .recorded := by
          rw [mark_of_accepts hhandle (by rw [heq]; change ¬ 400 ≤ 200; decide)]
          simp only [markOf, hend]
        rw [hmark, hhandle, heq]
        rcases hraop with hr | hr
        · rw [hr] at h
          exact h.append (List.Sublist.refl [Mark.recorded])
        · rw [hr] at h
          exact h.trans (List.sublist_append_left past [Mark.recorded])
      · rw [hhandle, heq]
        exact List.nil_sublist _
    · have hhandle := handle_teardown (s := s) hend
      rw [hhandle]
      unfold teardown
      by_cases hwhole : (teardownStreams outside req.body).isEmpty = true
      · rw [if_pos hwhole]
        exact List.nil_sublist _
      · rw [if_neg hwhole]
        apply sublist_remember _ h
        rw [mark_request]
        simp only [markOf, hend, if_neg hwhole, ite_self]
        exact fun h => (by cases h)
  · rw [mark_of_quiet hmoves, (samePlanes_handle hmoves).raop]
    exact h

theorem mediaKey_request (h : s.mediaKey.isSome) : (s.handle req).1.mediaKey.isSome := by
  have hmixed : Mixed s (s.handle req).1 req := mixed_handle
  rcases hmixed.mirror.media with hsame | ⟨_, _, _, _, -, -, hnew⟩
  · rw [hsame]
    exact h
  · rw [hnew]
    rfl

theorem keyed_request {past : List Mark} (h : Mark.keyed ∈ past → s.mediaKey.isSome)
    (hmark : Mark.keyed ∈ Traced.remember past (mark s (.request req))) :
    (s.handle req).1.mediaKey.isSome := by
  by_cases hnew : mark s (.request req) = some .keyed
  · have haccepts : s.accepts req = true ∧ markOf outside req = some .keyed := by
      rw [mark_request] at hnew
      by_cases haccepts : s.accepts req = true
      · rw [if_pos haccepts] at hnew
        exact ⟨haccepts, hnew⟩
      · rw [if_neg haccepts] at hnew
        cases hnew
    have hsetup : req.endpoint = .setup ∧ isPlist req = true ∧
        ∃ dict, dictionary? outside req.body = some dict ∧ carriesKey dict = true := by
      have hof := haccepts.2
      unfold markOf at hof
      cases hend : req.endpoint with
      | setup =>
        rw [hend] at hof
        dsimp only at hof
        by_cases hplist : isPlist req = true
        · rw [if_pos hplist] at hof
          cases hdict : dictionary? outside req.body with
          | none =>
            rw [hdict] at hof
            cases hof
          | some dict =>
            rw [hdict] at hof
            by_cases hcarries : carriesKey dict = true
            · exact ⟨rfl, hplist, dict, rfl, hcarries⟩
            · simp only [if_neg hcarries] at hof
              cases hof
        · rw [if_neg hplist] at hof
          cases hof
      | teardown =>
        rw [hend] at hof
        dsimp only at hof
        split at hof
        · cases hof
        · cases hof
      | _ =>
        rw [hend] at hof
        cases hof
    obtain ⟨hend, hplist, dict, hdict, hcarries⟩ := hsetup
    have hhandle := handle_setup (s := s) hend
    have hok := (accepts_of hhandle).mp haccepts.1
    rw [hhandle]
    unfold setup at hok ⊢
    rw [if_pos hplist] at hok ⊢
    exact keyed_mirrorSetup hdict hcarries hok
  · apply mediaKey_request
    apply h
    cases hm : mark s (.request req) with
    | none =>
      rw [hm] at hmark
      exact hmark
    | some m =>
      rw [hm] at hmark hnew
      cases m with
      | torn => cases hmark
      | keyed => exact absurd rfl hnew
      | announced | setUp | recorded => simpa [Traced.remember] using hmark

/-! ## Runs of requests -/

structure Kept (t : Traced outside) : Prop where
  stages : (stages t.session.raop).Sublist t.past
  keyed : Mark.keyed ∈ t.past → t.session.mediaKey.isSome

theorem kept_start (outside : Outside P) (ports : Option ReceiverPorts) (port : Option UInt16)
    (address : Option String) : Kept (.start (AirPlaySession.new outside ports port address)) where
  stages := List.Sublist.refl []
  keyed := fun h => (by cases h)

theorem raop_takeMirrorKeys : s.takeMirrorKeys.1.raop = s.raop := by
  unfold takeMirrorKeys
  cases s.mirror <;> rfl

theorem mediaKey_takeMirrorKeys : s.takeMirrorKeys.1.mediaKey = s.mediaKey := by
  unfold takeMirrorKeys
  cases s.mirror <;> rfl

theorem Kept.step {t : Traced outside} (h : Kept t) (x : Input outside) : Kept (t.step x) := by
  cases x with
  | request req => exact ⟨stages_request h.stages, keyed_request h.keyed⟩
  | takeMirrorKeys =>
    refine ⟨?_, fun hmark => ?_⟩
    · change (AirPlay.stages t.session.takeMirrorKeys.1.raop).Sublist t.past
      rw [raop_takeMirrorKeys]
      exact h.stages
    · change t.session.takeMirrorKeys.1.mediaKey.isSome
      rw [mediaKey_takeMirrorKeys]
      exact h.keyed hmark
  | takeFlush | takeMirrorAudio | setPlayback info => exact ⟨h.stages, h.keyed⟩

theorem acknowledged_of {t : Traced outside} (h : Kept t)
    (hcareful : Careful t.session (.request req)) (hend : req.endpoint = .record)
    (hkeyed : Mark.keyed ∈ t.past) : (t.session.handle req).2 = some recordAck := by
  unfold Careful at hcareful
  simp only [hend] at hcareful
  have hmedia := h.keyed hkeyed
  rw [handle_record hend]
  rcases record_cases t.session with ⟨-, heq⟩ | ⟨-, params, -, heq⟩ | ⟨hmirroring, hraop, heq⟩
  · rw [heq]
  · rw [heq]
  · rcases hcareful with hc | ⟨params, hc⟩ | ⟨params, hc⟩ | ⟨-, hc⟩
    · rw [hmirroring] at hc
      cases hc
    · rcases hraop with hr | ⟨_, hr⟩ <;> rw [hr] at hc <;> cases hc
    · rcases hraop with hr | ⟨_, hr⟩ <;> rw [hr] at hc <;> cases hc
    · rw [hc] at hmedia
      cases hmedia

theorem Sound.of_careful (hwrite : ∀ dict, (outside.writePlist dict).isSome) {t : Traced outside}
    (h : Kept t) {x : Input outside} (hcareful : Careful t.session x) : Sound t x where
  refused := by
    rintro req rfl hrefused
    exact samePlanes_of_refused hwrite hcareful hrefused
  recording := fun params hrecording => by
    have hstages := (h.step x).stages
    change (stages (t.session.next x).raop).Sublist _ at hstages
    rw [hrecording] at hstages
    exact hstages
  acknowledged := by
    rintro req rfl hend hkeyed
    exact acknowledged_of h hcareful hend hkeyed
  named := by
    rintro req rfl hend hnamed
    change (t.session.handle req).1 = t.session
    rw [handle_teardown hend]
    unfold teardown
    rw [if_neg (by simpa using hnamed)]
  whole := by
    rintro req rfl hend hwhole
    unfold Careful at hcareful
    simp only [hend] at hcareful
    obtain ⟨hmedia, hflush⟩ := hcareful hwhole
    change Cleared (t.session.handle req).1
    rw [handle_teardown hend]
    unfold teardown
    rw [hwhole, if_pos List.isEmpty_nil]
    exact ⟨rfl, rfl, hmedia, rfl, hflush⟩
  keys := by
    rintro req rfl
    exact mixed_handle

/-- **Every run without the inputs that cost something is sound**, whatever the
requests are and wherever the actor takes what was negotiated. -/
theorem requests_sound (outside : Outside P) (hwrite : ∀ dict, (outside.writePlist dict).isSome)
    (ports : Option ReceiverPorts) (port : Option UInt16) (address : Option String)
    (xs : List (Input outside))
    (hcareful : Along Traced.step (fun t x => Careful t.session x) xs
      (.start (AirPlaySession.new outside ports port address))) :
    Along Traced.step Sound xs (.start (AirPlaySession.new outside ports port address)) :=
  hcareful.imp_of_invariant Kept (kept_start outside ports port address)
    fun _ x hkept hc => ⟨.of_careful hwrite hkept hc, hkept.step x⟩

/-! ## A run that keeps to it and one that does not -/

/-- The session manager's payloads, with nothing in them. -/
def emptyPayloads : Payloads where
  MediaRequest := Unit
  MediaUri := Unit
  FrameSource := Unit
  AudioFormat := Unit
  Bytes := Unit
  DeclaredLatency := Unit
  NowPlaying := Unit
  QueueItem := Unit
  Volume := Unit
  RemoteControl := Unit
  TouchSurface := Unit

/-- What ends a short binary property list: where its objects are, and where
that is said. -/
def plistTail (offsets : Bytes) (table : UInt8) : Bytes :=
  offsets ++ List.replicate 6 0 ++ [1, 1] ++ List.replicate 7 0 ++ [UInt8.ofNat offsets.length] ++
    List.replicate 15 0 ++ [table]

/-- Key material: `ekey` and `eiv`. -/
def keyBody : Bytes :=
  plistMagic ++ [210, 1, 2, 3, 4, 84, 101, 107, 101, 121, 83, 101, 105, 118, 79, 16, 72] ++
    List.replicate 72 7 ++ [79, 16, 16] ++ List.replicate 16 9 ++ plistTail [8, 13, 18, 22, 97] 116

/-- The stream of a mirrored screen. -/
def streamBody : Bytes :=
  plistMagic ++ [209, 1, 2, 87, 115, 116, 114, 101, 97, 109, 115, 161, 3, 209, 4, 5, 84, 116, 121,
    112, 101, 16, 110] ++ plistTail [8, 11, 19, 21, 24, 29] 31

/-- What the key material is answered with: no `timingPort` and no `eventPort`.
-/
def portsBody : Bytes :=
  plistMagic ++ [210, 1, 2, 3, 3, 90, 116, 105, 109, 105, 110, 103, 80, 111, 114, 116, 89, 101, 118,
    101, 110, 116, 80, 111, 114, 116, 16, 0] ++ plistTail [8, 13, 24, 34] 36

/-- What the stream is answered with: its `dataPort` is 7010. -/
def dataPortBody : Bytes :=
  plistMagic ++ [209, 1, 2, 87, 115, 116, 114, 101, 97, 109, 115, 161, 3, 210, 4, 5, 6, 7, 84, 116,
    121, 112, 101, 88, 100, 97, 116, 97, 80, 111, 114, 116, 16, 110, 17, 27, 98] ++
    plistTail [8, 11, 19, 21, 26, 31, 40, 42] 45

def exampleOutside : Outside emptyPayloads where
  base64 := fun _ => none
  readPlist := fun body =>
    if body = keyBody then
      some (.dictionary
        [("ekey", .data (List.replicate 72 7)), ("eiv", .data (List.replicate 16 9))])
    else if body = streamBody then
      some (.dictionary [("streams", .array [.dictionary [("type", .integer 110)]])])
    else none
  writePlist := fun dict => some (if dict.containsKey "streams" then dataPortBody else portsBody)
  sha512 := fun _ => Vector.replicate 64 0
  unwrapAesKey := fun _ => none
  decryptKey := fun _ ekey => some (Vector.replicate 16 (ekey[0]))
  setup1Replies := fun _ => []
  infoPlist := fun _ => some []
  appleResponse := fun _ => none
  pairSetupResponse := []
  PairVerify := Unit
  begin := fun _ => none
  finish := fun _ _ => none
  PlaybackInfo := Unit
  noPlayback := ()
  video := fun _ _ _ _ => (.ok, ())
  Volume := Unit
  fullScale := ()
  asLevel := fun _ => ()
  parseGetParameter := fun _ _ => some []
  answer := fun _ _ => []
  parseSetParameter := fun _ _ => none
  asSnapshot := fun _ _ => ()

/-- The second `/fp-setup` message, which carries what unwraps the key. -/
def fpSetupRequest : AirPlayRequest :=
  ⟨"POST", "/fp-setup", [], [0x46, 0x50, 0x4C, 0x59, 3, 1, 3] ++ List.replicate 157 0⟩

def keyRequest : AirPlayRequest := ⟨"SETUP", "rtsp://panel", [], keyBody⟩

def streamRequest : AirPlayRequest := ⟨"SETUP", "rtsp://panel", [], streamBody⟩

def recordRequest : AirPlayRequest := ⟨"RECORD", "rtsp://panel", [], []⟩

def teardownRequest : AirPlayRequest := ⟨"TEARDOWN", "rtsp://panel", [], []⟩

/-- A phone mirrors its screen. -/
def mirroringRun : List (Input exampleOutside) :=
  [.request fpSetupRequest, .request keyRequest, .request recordRequest, .request streamRequest,
    .takeMirrorKeys]

set_option maxRecDepth 4000 in
theorem requests_sound_example : Along Traced.step Sound mirroringRun
      (.start (AirPlaySession.new exampleOutside none (some 7010) none)) :=
  requests_sound exampleOutside (fun _ => rfl) none (some 7010) none mirroringRun
    ⟨trivial, fun dict h => by cases h; exact .inl ⟨fun _ => ⟨_, rfl⟩, rfl⟩, .inl rfl,
      fun dict h => by cases h; exact .inl ⟨fun h => (by cases h), rfl⟩, trivial, trivial⟩

set_option maxRecDepth 4000 in
/-- A `TEARDOWN` of the whole session leaves its media key, and the next `SETUP`
of a stream is given one derived from it. -/
theorem teardown_keeps_key : ¬ Along Traced.step Sound
      [.request fpSetupRequest, .request keyRequest, .request teardownRequest]
      (.start (AirPlaySession.new exampleOutside none (some 7010) none)) := by
  rintro ⟨-, -, hteardown, -⟩
  have hcleared := (hteardown.whole teardownRequest rfl rfl rfl).mediaKey
  exact absurd hcleared (by decide)

end Castaway.AirPlay
