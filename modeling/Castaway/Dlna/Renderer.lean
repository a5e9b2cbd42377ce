import Castaway.AirPlay.Negotiation
import Castaway.Core.Event

/-!
# The DLNA renderer

The transport state behind the three UPnP services, and what each action of a
control point does to it.  AVTransport and RenderingControl share one
`Renderer`.

Where playback has got to is handed in with each request and is evented to
nobody.  A refused action leaves the rest as it was (`avTransport_refused`,
`renderingControl_refused`), and a URI is kept only if it can be fetched
(`Stored`).
-/

namespace Castaway.Dlna

open Castaway.AirPlay (Text)
open Castaway.Core (ControlTxn Payloads PlaybackEnd SessionEvent)

/-- A length of time, in nanoseconds. -/
abbrev Duration := ℕ

/-! ## Actions -/

inductive DlnaError where
  | malformedSoap (reason : String)
  | invalidAction (name : String)
  | optionalActionNotImplemented (name : String)
  | missingArgument (name : String)
  | invalidArgument (reason : String)
  | invalidInstanceId (id : String)
  | transitionNotAvailable (reason : String)
  | resourceNotFound (uri : String)
  | illegalMimeType (contentType : String)
  | seekModeNotSupported
  | illegalSeekTarget
  deriving DecidableEq, Repr

/-- A parsed control request: the action, and its arguments in document order.
-/
structure SoapAction where
  name : String
  args : List (String × String)
  deriving DecidableEq, Repr

namespace SoapAction

variable (action : SoapAction)

def arg (name : String) : Option String := action.args.lookup name

def require (name : String) : Except DlnaError String :=
  match action.arg name with
  | some value => .ok value
  | none => .error (.missingArgument name)

/-- A missing `InstanceID` is read as 0. -/
def requireInstanceZero : Except DlnaError Unit :=
  match action.arg "InstanceID" with
  | none => .ok ()
  | some id =>
    let id := Text.trim id.toList
    if id = [] ∨ id = ['0'] then .ok () else .error (.invalidInstanceId (String.ofList id))

end SoapAction

/-! ## The state -/

inductive TransportState where
  | noMediaPresent
  | stopped
  | playing
  | pausedPlayback
  | transitioning
  deriving DecidableEq, Repr

def TransportState.asUpnp : TransportState → String
  | .noMediaPresent => "NO_MEDIA_PRESENT"
  | .stopped => "STOPPED"
  | .playing => "PLAYING"
  | .pausedPlayback => "PAUSED_PLAYBACK"
  | .transitioning => "TRANSITIONING"

/-- Whether the last thing the transport was asked to do worked. -/
inductive TransportStatus where
  | ok
  | errorOccurred
  deriving DecidableEq, Repr

def TransportStatus.asUpnp : TransportStatus → String
  | .ok => "OK"
  | .errorOccurred => "ERROR_OCCURRED"

/-- Where the pipeline says an item has got to, and how long it is if that is
known. -/
structure PlaybackProgress where
  position : Duration
  duration : Option Duration
  deriving DecidableEq, Repr

structure Renderer where
  state : TransportState := .noMediaPresent
  currentUri : Option String := none
  currentUriMetadata : String := ""
  nextUri : Option String := none
  nextUriMetadata : String := ""
  /-- Percent of a slider's travel. -/
  volume : ℕ := 50
  muted : Bool := false
  status : TransportStatus := .ok
  position : Option PlaybackProgress := none
  deriving DecidableEq, Repr

/-- The response's arguments, and the events for the session manager in order.
-/
structure Outcome (P : Payloads) where
  outArgs : List (String × String)
  events : List (SessionEvent P)

namespace Outcome

variable {P : Payloads}

def empty : Outcome P := ⟨[], []⟩

def withEvents (events : List (SessionEvent P)) : Outcome P := ⟨[], events⟩

def args (outArgs : List (String × String)) : Outcome P := ⟨outArgs, []⟩

def withEvent (txn : ControlTxn P) : Outcome P := ⟨[], [.control txn]⟩

end Outcome

/-- What an action is answered with, beside the state it leaves. -/
abbrev Answer (P : Payloads) := Except DlnaError (Outcome P)

/-- The URL library, the DIDL-Lite reader and the volume's taper. -/
structure Media (P : Payloads) where
  /-- The request for a URI, if it parses and its scheme can be fetched. -/
  request : String → Option P.MediaRequest
  /-- The track a metadata blob describes, if it says anything about one. -/
  track : String → Option P.NowPlaying
  /-- A percentage of a slider's travel as a volume. -/
  fromPosition : ℕ → P.Volume
  /-- A volume back on that scale, rounded. -/
  percent : P.Volume → ℕ

/-! ## Times -/

/-- A duration as `H:MM:SS`. -/
def upnpTime (d : Duration) : String :=
  let total := d / 1000000000
  let pad := fun n : ℕ => if n < 10 then "0" ++ toString n else toString n
  toString (total / 3600) ++ ":" ++ pad (total % 3600 / 60) ++ ":" ++ pad (total % 60)

/-- The seconds of a time and its milliseconds, of which at most three digits
count. -/
def secondsOf (part : Text) : Option (ℕ × ℕ) :=
  match part.splitOn '.' with
  | [] => none
  | [whole] => (Text.unsigned 64 whole).map fun n => (n, 0)
  | whole :: fraction =>
    let digits := (List.intercalate ['.'] fraction).take 3
    match Text.unsigned 64 whole, Text.unsigned 64 digits with
    | some n, some millis => some (n, millis * 10 ^ (3 - digits.length))
    | _, _ => none

/-- Parse `H:MM:SS`, optionally with a fraction.  The sum wraps at 64 bits. -/
def parseUpnpTime (s : String) : Option Duration :=
  match (Text.trim s.toList).splitOn ':' with
  | [h, m, sec] =>
    match Text.unsigned 64 h, Text.unsigned 64 m, secondsOf sec with
    | some h, some m, some (secs, millis) =>
      if 60 ≤ m ∨ 60 ≤ secs then none
      else some (((h * 3600 + m * 60 + secs) * 1000 + millis) % 2 ^ 64 * 1000000)
    | _, _, _ => none
  | _ => none

def notImplemented : String := "NOT_IMPLEMENTED"

def noCounter : String := "2147483647"

def sinkProtocolInfo : String :=
  "http-get:*:video/*:*,http-get:*:audio/*:*," ++
  "http-get:*:audio/mpeg:*,http-get:*:audio/x-mpeg:*," ++
  "http-get:*:audio/mp4:*,http-get:*:audio/m4a:*,http-get:*:audio/x-m4a:*," ++
  "http-get:*:audio/aac:*,http-get:*:audio/x-aac:*," ++
  "http-get:*:audio/flac:*,http-get:*:audio/x-flac:*," ++
  "http-get:*:audio/ogg:*,http-get:*:audio/x-ogg:*," ++
  "http-get:*:audio/vorbis:*,http-get:*:audio/opus:*," ++
  "http-get:*:audio/wav:*,http-get:*:audio/x-wav:*," ++
  "http-get:*:audio/L16:*," ++
  "http-get:*:video/mp4:*,http-get:*:video/x-matroska:*," ++
  "http-get:*:video/mpeg:*,http-get:*:video/quicktime:*," ++
  "http-get:*:video/x-msvideo:*,http-get:*:video/avi:*," ++
  "http-get:*:video/webm:*,http-get:*:video/x-m4v:*"

def avtOptional : List String :=
  ["Record", "SetPlayMode", "SetRecordQualityMode", "GetDRMState", "SetStaticPlaylist",
    "SetStreamingPlaylist", "GetPlaylistInfo", "GetSyncOffset", "AdjustSyncOffset",
    "SetSyncOffset", "SyncPlay", "SyncStop", "SyncPause", "SetRecordTimeMode",
    "GetStateVariables", "SetStateVariables"]

def rcOptional : List String :=
  ["GetVolumeDB", "SetVolumeDB", "GetVolumeDBRange", "GetLoudness", "SetLoudness",
    "GetBrightness", "SetBrightness", "GetContrast", "SetContrast", "GetSharpness",
    "SetSharpness", "GetColorTemperature", "SetColorTemperature", "GetRedVideoGain",
    "SetRedVideoGain", "GetGreenVideoGain", "SetGreenVideoGain", "GetBlueVideoGain",
    "SetBlueVideoGain", "GetRedVideoBlackLevel", "SetRedVideoBlackLevel",
    "GetGreenVideoBlackLevel", "SetGreenVideoBlackLevel", "GetBlueVideoBlackLevel",
    "SetBlueVideoBlackLevel", "GetHorizontalKeystone", "SetHorizontalKeystone",
    "GetVerticalKeystone", "SetVerticalKeystone", "GetStateVariables", "SetStateVariables"]

def cmOptional : List String := ["PrepareForConnection", "ConnectionComplete"]

/-! ## The actions of AVTransport -/

namespace Renderer

variable {P : Payloads} (media : Media P) (r : Renderer) (action : SoapAction)

/-- Record where the pipeline says playback has reached. -/
def observeProgress (progress : Option PlaybackProgress) : Renderer :=
  { r with position := progress }

/-- The pipeline has finished with the item, or failed to play it. -/
def mediaEnded : PlaybackEnd → Renderer
  | .finished => { r with state := .stopped, position := none, status := .ok }
  | .failed _ _ => { r with state := .stopped, position := none, status := .errorOccurred }

def duration : Option Duration := r.position.bind (·.duration)

/-- Begin playing a URI, with whatever the control point said it is. -/
def start (uri : String) : Except DlnaError (List (SessionEvent P)) :=
  match media.request uri with
  | none => .error (.invalidArgument "CurrentURI not a valid URI")
  | some source =>
    .ok (.play source none :: (media.track r.currentUriMetadata).toList.map .nowPlaying)

def actions : List String :=
  (match r.state with
    | .noMediaPresent => []
    | .playing => ["Pause", "Stop", "Seek"]
    | .pausedPlayback => ["Play", "Stop", "Seek"]
    | .stopped => ["Play", "Stop"]
    | .transitioning => ["Play", "Stop"]) ++
  if r.nextUri.isSome then ["Next"] else []

def availableActions : String := String.intercalate "," r.actions

/-- Begin the item just set, and answer with what that emits. -/
def started (uri : String) : Renderer × Answer P :=
  match r.start media uri with
  | .ok events => (r, .ok (.withEvents events))
  | .error e => (r, .error e)

def setAvTransportUri : Renderer × Answer P :=
  match action.require "CurrentURI" with
  | .error e => (r, .error e)
  | .ok uri =>
    if (media.request uri).isNone then (r, .error (.resourceNotFound uri))
    else
      let set := { r with
        currentUriMetadata := (action.arg "CurrentURIMetaData").getD ""
        currentUri := some uri, status := .ok, position := none }
      match r.state with
      | .noMediaPresent => ({ set with state := .stopped }, .ok .empty)
      | .playing => set.started media uri
      | .stopped => (set, .ok .empty)
      | .pausedPlayback => (set, .ok .empty)
      | .transitioning => (set, .ok .empty)

/-- An empty `NextURI` clears what was staged. -/
def setNextAvTransportUri : Renderer × Answer P :=
  match action.require "NextURI" with
  | .error e => (r, .error e)
  | .ok uri =>
    if uri.isEmpty then ({ r with nextUri := none, nextUriMetadata := "" }, .ok .empty)
    else if (media.request uri).isNone then (r, .error (.resourceNotFound uri))
    else
      ({ r with nextUriMetadata := (action.arg "NextURIMetaData").getD "", nextUri := some uri },
        .ok .empty)

def play : Renderer × Answer P :=
  match r.currentUri with
  | none => (r, .error (.transitionNotAvailable "Play with no media set"))
  | some uri =>
    let playing := { r with state := .playing, status := .ok }
    if r.state = .pausedPlayback then (playing, .ok (.withEvent .play))
    else playing.started media uri

def requireAction (verb : String) : Except DlnaError Unit :=
  if verb ∈ r.actions then .ok () else .error (.transitionNotAvailable verb)

def pause : Renderer × Answer P :=
  match r.requireAction "Pause" with
  | .error e => (r, .error e)
  | .ok () => ({ r with state := .pausedPlayback }, .ok (.withEvent .pause))

def stop : Renderer × Answer P :=
  match r.requireAction "Stop" with
  | .error e => (r, .error e)
  | .ok () => ({ r with state := .stopped }, .ok (.withEvent .stop))

/-- The unit and the target are checked before the state is. -/
def seek : Answer P :=
  let unit := (action.arg "Unit").getD "REL_TIME"
  if unit ≠ "REL_TIME" ∧ unit ≠ "ABS_TIME" then .error .seekModeNotSupported
  else
    match action.require "Target" with
    | .error e => .error e
    | .ok target =>
      match parseUpnpTime target with
      | none => .error .illegalSeekTarget
      | some position =>
        match r.requireAction "Seek" with
        | .error e => .error e
        | .ok () => .ok (.withEvent (.seek position))

def next : Renderer × Answer P :=
  match r.nextUri with
  | none => (r, .error (.transitionNotAvailable "nothing is staged behind the current item"))
  | some uri =>
    { r with
      nextUri := none, currentUri := some uri, currentUriMetadata := r.nextUriMetadata
      nextUriMetadata := "", state := .playing, status := .ok
      position := none }.started media uri

def getTransportInfo : Outcome P :=
  .args [("CurrentTransportState", r.state.asUpnp), ("CurrentTransportStatus", r.status.asUpnp),
    ("CurrentSpeed", "1")]

def getPositionInfo : Outcome P :=
  let reached := (r.position.map fun p => upnpTime p.position).getD notImplemented
  .args [("Track", "1"), ("TrackDuration", (r.duration.map upnpTime).getD notImplemented),
    ("TrackMetaData", r.currentUriMetadata), ("TrackURI", r.currentUri.getD ""),
    ("RelTime", reached), ("AbsTime", reached), ("RelCount", noCounter), ("AbsCount", noCounter)]

def getMediaInfo : Outcome P :=
  .args [("NrTracks", "1"), ("MediaDuration", (r.duration.map upnpTime).getD notImplemented),
    ("CurrentURI", r.currentUri.getD ""), ("CurrentURIMetaData", r.currentUriMetadata),
    ("NextURI", r.nextUri.getD ""), ("NextURIMetaData", r.nextUriMetadata),
    ("PlayMedium", "NETWORK"), ("RecordMedium", "NOT_IMPLEMENTED"),
    ("WriteStatus", "NOT_IMPLEMENTED")]

def askTransport : Answer P :=
  match action.name with
  | "Previous" =>
    .error (.transitionNotAvailable "a renderer keeps no history to go back through")
  | "GetCurrentTransportActions" => .ok (.args [("Actions", r.availableActions)])
  | "GetTransportInfo" => .ok r.getTransportInfo
  | "GetPositionInfo" => .ok r.getPositionInfo
  | "GetMediaInfo" => .ok r.getMediaInfo
  | "GetDeviceCapabilities" =>
    .ok (.args [("PlayMedia", "NETWORK,HTTP-GET"), ("RecMedia", "NOT_IMPLEMENTED"),
      ("RecQualityModes", "NOT_IMPLEMENTED")])
  | "GetTransportSettings" =>
    .ok (.args [("PlayMode", "NORMAL"), ("RecQualityMode", "NOT_IMPLEMENTED")])
  | other =>
    if other ∈ avtOptional then .error (.optionalActionNotImplemented other)
    else .error (.invalidAction other)

def avTransport : Renderer × Answer P :=
  match action.requireInstanceZero with
  | .error e => (r, .error e)
  | .ok () =>
    match action.name with
    | "SetAVTransportURI" => r.setAvTransportUri media action
    | "SetNextAVTransportURI" => r.setNextAvTransportUri media action
    | "Play" => r.play media
    | "Pause" => r.pause
    | "Stop" => r.stop
    | "Seek" => (r, r.seek action)
    | "Next" => r.next media
    | _ => (r, r.askTransport action)

/-! ## The actions of the other two services -/

def setVolume : Renderer × Answer P :=
  match action.require "DesiredVolume" with
  | .error e => (r, .error e)
  | .ok desired =>
    match Text.unsigned 8 desired.toList with
    | none => (r, .error (.invalidArgument "DesiredVolume not 0-100"))
    | some v =>
      ({ r with volume := min v 100 },
        .ok (.withEvent (.volume (media.fromPosition (min v 100)))))

def setMute : Renderer × Answer P :=
  match action.require "DesiredMute" with
  | .error e => (r, .error e)
  | .ok desired =>
    let m := desired == "1" || desired == "true" || desired == "True"
    ({ r with muted := m }, .ok (.withEvent (.mute m)))

def selectPreset : Answer P :=
  match action.require "PresetName" with
  | .error e => .error e
  | .ok name =>
    if name = "FactoryDefaults" then .ok .empty
    else .error (.invalidArgument "the only preset is FactoryDefaults")

def askRendering : Answer P :=
  match action.name with
  | "GetVolume" => .ok (.args [("CurrentVolume", toString r.volume)])
  | "GetMute" => .ok (.args [("CurrentMute", if r.muted then "1" else "0")])
  | "ListPresets" => .ok (.args [("CurrentPresetNameList", "FactoryDefaults")])
  | "SelectPreset" => selectPreset action
  | other =>
    if other ∈ rcOptional then .error (.optionalActionNotImplemented other)
    else .error (.invalidAction other)

/-- Whether a request names a channel the panel has not got. -/
def otherChannel : Bool :=
  match action.arg "Channel" with
  | none => false
  | some channel => !(Text.trim channel.toList).isEmpty && channel != "Master"

def renderingControl : Renderer × Answer P :=
  match action.requireInstanceZero with
  | .error e => (r, .error e)
  | .ok () =>
    if otherChannel action then (r, .error (.invalidArgument "only the Master channel exists"))
    else
      match action.name with
      | "SetVolume" => r.setVolume media action
      | "SetMute" => r.setMute action
      | _ => (r, r.askRendering action)

/-- Dispatch a ConnectionManager action, which reads nothing of the state. -/
def connectionManager : Answer P :=
  match action.name with
  | "GetProtocolInfo" => .ok (.args [("Source", ""), ("Sink", sinkProtocolInfo)])
  | "GetCurrentConnectionIDs" => .ok (.args [("ConnectionIDs", "0")])
  | "GetCurrentConnectionInfo" =>
    .ok (.args [("RcsID", "0"), ("AVTransportID", "0"), ("ProtocolInfo", sinkProtocolInfo),
      ("PeerConnectionManager", ""), ("PeerConnectionID", "-1"), ("Direction", "Input"),
      ("Status", "OK")])
  | other =>
    if other ∈ cmOptional then .error (.optionalActionNotImplemented other)
    else .error (.invalidAction other)

/-! ## The panel's own controls -/

/-- A press on the panel, if this session offers it. -/
def press (txn : ControlTxn P) : Option Renderer :=
  match txn with
  | .play => some { r with state := .playing }
  | .pause => some { r with state := .pausedPlayback }
  | .stop => some { r with state := .stopped }
  | .volume level => some { r with volume := media.percent level }
  | .mute muted => some { r with muted := muted }
  | .seek _ => some r
  | .next => none
  | .previous => none
  | .setQueue _ _ => none
  | .shuffle _ => none
  | .repeatMode _ => none

/-! ## What a refusal leaves -/

/-- What is set and what is staged behind it can both be fetched. -/
structure Stored (media : Media P) (r : Renderer) : Prop where
  current : ∀ uri, r.currentUri = some uri → (media.request uri).isSome
  next : ∀ uri, r.nextUri = some uri → (media.request uri).isSome

variable {media r action} {e : DlnaError}

theorem started_fst (uri : String) : (r.started media uri).1 = r := by
  unfold started
  split <;> rfl

theorem started_ok {uri : String} (huri : (media.request uri).isSome) :
    (r.started media uri).2 ≠ .error e := by
  obtain ⟨source, hsource⟩ := Option.isSome_iff_exists.mp huri
  unfold started start
  rw [hsource]
  exact fun h => by cases h

theorem Stored.of_uris {r' : Renderer} (h : Stored media r)
    (hcurrent : r'.currentUri = r.currentUri)
    (hnext : r'.nextUri = r.nextUri) : Stored media r' where
  current := by rw [hcurrent]; exact h.current
  next := by rw [hnext]; exact h.next

theorem Stored.observeProgress (h : Stored media r) (progress : Option PlaybackProgress) :
    Stored media (r.observeProgress progress) := h.of_uris rfl rfl

/-- **A refused `SetAVTransportURI` has set nothing.** -/
theorem setAvTransportUri_refused (he : (r.setAvTransportUri media action).2 = .error e) :
    (r.setAvTransportUri media action).1 = r := by
  unfold setAvTransportUri at he ⊢
  cases huri : action.require "CurrentURI" with
  | error e => rfl
  | ok uri =>
    rw [huri] at he
    dsimp only at he ⊢
    by_cases hrequest : (media.request uri).isNone
    · rw [if_pos hrequest]
    · rw [if_neg hrequest] at he
      have hsome : (media.request uri).isSome := by
        simpa [Option.isSome_iff_ne_none] using hrequest
      cases hstate : r.state with
      | playing =>
        rw [hstate] at he
        exact absurd he (started_ok hsome)
      | noMediaPresent | stopped | pausedPlayback | transitioning => rw [hstate] at he; cases he

theorem setAvTransportUri_stored (h : Stored media r) :
    Stored media (r.setAvTransportUri media action).1 := by
  unfold setAvTransportUri
  cases huri : action.require "CurrentURI" with
  | error e => exact h
  | ok uri =>
    dsimp only
    by_cases hrequest : (media.request uri).isNone
    · rw [if_pos hrequest]
      exact h
    · rw [if_neg hrequest]
      have hset (r' : Renderer) (hcurrent : r'.currentUri = some uri)
          (hnext : r'.nextUri = r.nextUri) : Stored media r' := by
        refine ⟨?_, by rw [hnext]; exact h.next⟩
        rw [hcurrent]
        rintro _ ⟨⟩
        simpa [Option.isSome_iff_ne_none] using hrequest
      cases r.state with
      | playing => exact hset _ (by rw [started_fst]) (by rw [started_fst])
      | noMediaPresent | stopped | pausedPlayback | transitioning => exact hset _ rfl rfl

theorem setNextAvTransportUri_refused (he : (r.setNextAvTransportUri media action).2 = .error e) :
    (r.setNextAvTransportUri media action).1 = r := by
  unfold setNextAvTransportUri at he ⊢
  cases huri : action.require "NextURI" with
  | error e => rfl
  | ok uri =>
    rw [huri] at he
    dsimp only at he ⊢
    split at he
    · cases he
    · rename_i hempty
      rw [if_neg hempty]
      split at he
      · rename_i hnone
        rw [if_pos hnone]
      · cases he

theorem setNextAvTransportUri_stored (h : Stored media r) :
    Stored media (r.setNextAvTransportUri media action).1 := by
  unfold setNextAvTransportUri
  cases huri : action.require "NextURI" with
  | error e => exact h
  | ok uri =>
    dsimp only
    split
    · exact ⟨h.current, fun _ hnone => by cases hnone⟩
    · split
      · exact h
      · rename_i hrequest
        refine ⟨h.current, ?_⟩
        rintro _ ⟨⟩
        simpa [Option.isSome_iff_ne_none] using hrequest

/-- `Play` answers for a URI that can be fetched. -/
theorem play_refused (h : Stored media r) (he : (r.play media).2 = .error e) :
    (r.play media).1 = r := by
  unfold play at he ⊢
  cases huri : r.currentUri with
  | none => rfl
  | some uri =>
    rw [huri] at he
    dsimp only at he
    split at he
    · cases he
    · exact absurd he (started_ok (h.current uri huri))

theorem play_stored (h : Stored media r) : Stored media (r.play media).1 := by
  unfold play
  cases huri : r.currentUri with
  | none => exact h
  | some uri =>
    dsimp only
    split
    · exact h.of_uris huri.symm rfl
    · rw [started_fst]
      exact h.of_uris huri.symm rfl

/-- What is staged was checked when it was, so advancing to it is never refused
half way. -/
theorem next_refused (h : Stored media r) (he : (r.next media).2 = .error e) :
    (r.next media).1 = r := by
  unfold next at he ⊢
  cases huri : r.nextUri with
  | none => rfl
  | some uri =>
    rw [huri] at he
    exact absurd he (started_ok (h.next uri huri))

theorem next_stored (h : Stored media r) : Stored media (r.next media).1 := by
  unfold next
  cases huri : r.nextUri with
  | none => exact h
  | some uri =>
    dsimp only
    rw [started_fst]
    refine ⟨?_, fun _ hnone => by cases hnone⟩
    rintro _ ⟨⟩
    exact h.next uri huri

theorem pause_refused (he : (r.pause (P := P)).2 = .error e) :
    (r.pause (P := P)).1 = r := by
  unfold pause at he ⊢
  split
  · rfl
  · rename_i hok
    rw [hok] at he
    cases he

theorem stop_refused (he : (r.stop (P := P)).2 = .error e) :
    (r.stop (P := P)).1 = r := by
  unfold stop at he ⊢
  split
  · rfl
  · rename_i hok
    rw [hok] at he
    cases he

/-- **A refused AVTransport action leaves the state as it was.** -/
theorem avTransport_refused (h : Stored media r)
    (he : (r.avTransport media action).2 = .error e) : (r.avTransport media action).1 = r := by
  unfold avTransport at he ⊢
  cases hinstance : action.requireInstanceZero with
  | error e => rfl
  | ok _ =>
    rw [hinstance] at he
    dsimp only at he ⊢
    split at he
    · exact setAvTransportUri_refused he
    · exact setNextAvTransportUri_refused he
    · exact play_refused h he
    · exact pause_refused he
    · exact stop_refused he
    · rfl
    · exact next_refused h he
    · rfl

theorem avTransport_stored (h : Stored media r) : Stored media (r.avTransport media action).1 := by
  unfold avTransport
  cases hinstance : action.requireInstanceZero with
  | error e => exact h
  | ok _ =>
    dsimp only
    split
    · exact setAvTransportUri_stored h
    · exact setNextAvTransportUri_stored h
    · exact play_stored h
    · unfold pause
      split
      · exact h
      · exact h.of_uris rfl rfl
    · unfold stop
      split
      · exact h
      · exact h.of_uris rfl rfl
    · exact h
    · exact next_stored h
    · exact h

/-- **A refused RenderingControl action leaves the state as it was.** -/
theorem renderingControl_refused (he : (r.renderingControl media action).2 = .error e) :
    (r.renderingControl media action).1 = r := by
  unfold renderingControl at he ⊢
  cases hinstance : action.requireInstanceZero with
  | error e => rfl
  | ok _ =>
    rw [hinstance] at he
    dsimp only at he ⊢
    split at he
    · rename_i hother
      rw [if_pos hother]
    · rename_i hother
      rw [if_neg hother]
      split at he
      · unfold setVolume at he ⊢
        split at he
        · rfl
        · split at he
          · rfl
          · cases he
      · unfold setMute at he ⊢
        split at he
        · rfl
        · cases he
      · rfl

theorem renderingControl_uris : (r.renderingControl media action).1.currentUri = r.currentUri ∧
      (r.renderingControl media action).1.nextUri = r.nextUri := by
  unfold renderingControl setVolume setMute
  refine ⟨?_, ?_⟩ <;> (repeat' split) <;> rfl

theorem press_uris {r' : Renderer} {txn : ControlTxn P} (h : r.press media txn = some r') :
    r'.currentUri = r.currentUri ∧ r'.nextUri = r.nextUri := by
  cases txn <;> cases h <;> exact ⟨rfl, rfl⟩

end Renderer

end Castaway.Dlna
