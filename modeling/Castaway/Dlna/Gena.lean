import Castaway.Dlna.Renderer

/-!
# Event subscriptions

What a subscriber to one of the three services is sent, and the table of the
subscriptions.  A subscription carries the number of its next event; the numbers
are handed out by `prepare`, to every live subscriber of a service, and by
`prepareOne`, to a single one.
-/

namespace Castaway.Dlna

open Castaway.AirPlay (Text)

/-! ## What is evented -/

inductive EventedService where
  | avTransport
  | renderingControl
  | connectionManager
  deriving DecidableEq, Repr

/-- The names and values a subscriber is sent. -/
abbrev Properties := List (String × String)

def xmlEscape (s : String) : String :=
  String.join <| s.toList.map fun c =>
    match c with
    | '&' => "&amp;"
    | '<' => "&lt;"
    | '>' => "&gt;"
    | '"' => "&quot;"
    | '\'' => "&apos;"
    | c => String.singleton c

def lastChangeValue (entry : String × String) : String :=
  "<" ++ entry.1 ++ " val=\"" ++ xmlEscape entry.2 ++ "\"/>"

/-- The AVTransport `LastChange` document.  Positions and durations are not in
it. -/
def avtLastChange (r : Renderer) : String :=
  "<Event xmlns=\"urn:schemas-upnp-org:metadata-1-0/AVT/\"><InstanceID val=\"0\">" ++
    String.join (List.map lastChangeValue
      [("TransportState", r.state.asUpnp), ("TransportStatus", r.status.asUpnp),
        ("TransportPlaySpeed", "1"), ("NumberOfTracks", "1"), ("CurrentTrack", "1"),
        ("CurrentPlayMode", "NORMAL"), ("AVTransportURI", r.currentUri.getD ""),
        ("AVTransportURIMetaData", r.currentUriMetadata),
        ("CurrentTrackURI", r.currentUri.getD ""), ("CurrentTrackMetaData", r.currentUriMetadata),
        ("NextAVTransportURI", r.nextUri.getD ""),
        ("NextAVTransportURIMetaData", r.nextUriMetadata),
        ("CurrentTransportActions", r.availableActions)]) ++
    "</InstanceID></Event>"

/-- The RenderingControl `LastChange` document. -/
def rcsLastChange (r : Renderer) : String :=
  "<Event xmlns=\"urn:schemas-upnp-org:metadata-1-0/RCS/\"><InstanceID val=\"0\">" ++
    "<Volume channel=\"Master\" val=\"" ++ toString r.volume ++ "\"/>" ++
    "<Mute channel=\"Master\" val=\"" ++ (if r.muted then "1" else "0") ++ "\"/>" ++
    "<PresetNameList val=\"FactoryDefaults\"/>" ++ "</InstanceID></Event>"

namespace EventedService

/-- What a subscriber is sent in the renderer's current state. -/
def properties (service : EventedService) (r : Renderer) : Properties :=
  match service with
  | avTransport => [("LastChange", avtLastChange r)]
  | renderingControl => [("LastChange", rcsLastChange r)]
  | connectionManager =>
    [("SourceProtocolInfo", ""), ("SinkProtocolInfo", sinkProtocolInfo),
      ("CurrentConnectionIDs", "0")]

/-- Where playback has got to is evented to nobody. -/
theorem properties_observeProgress (service : EventedService) (r : Renderer)
    (progress : Option PlaybackProgress) :
    service.properties (r.observeProgress progress) = service.properties r := by
  cases service <;> rfl

end EventedService

/-- The body of a `NOTIFY`. -/
def propertyset (properties : Properties) : String :=
  "<?xml version=\"1.0\" encoding=\"utf-8\"?>" ++
    "<e:propertyset xmlns:e=\"urn:schemas-upnp-org:event-1-0\">" ++
    String.join (properties.map fun entry =>
      "<e:property><" ++ entry.1 ++ ">" ++ xmlEscape entry.2 ++ "</" ++ entry.1 ++
        "></e:property>") ++
    "</e:propertyset>"

/-! ## Requests -/

inductive SubscribeRequest where
  | new (callbacks : List String)
  | renew (sid : String)
  deriving DecidableEq, Repr

inductive SubscribeError where
  | badRequest (reason : String)
  | preconditionFailed (reason : String)
  deriving DecidableEq, Repr

def SubscribeError.status : SubscribeError → ℕ
  | badRequest _ => 400
  | preconditionFailed _ => 412

/-- The text between the next `<` and the `>` that closes it, and what follows.
-/
def bracketed (header : Text) : Option (Text × Text) :=
  let after := (header.dropWhile (· ≠ '<')).drop 1
  if '<' ∈ header ∧ '>' ∈ after then
    some (after.takeWhile (· ≠ '>'), (after.dropWhile (· ≠ '>')).drop 1)
  else none

/-- The `http` addresses among the bracketed ones; a header has at most as many
as it has characters. -/
def parseCallbacks (header : Text) : List String :=
  go header.length header
where
  go : ℕ → Text → List String
    | 0, _ => []
    | n + 1, header =>
      match bracketed header with
      | none => []
      | some (url, rest) =>
        let url := Text.trim url
        if "http://".toList.isPrefixOf (url.map Char.toLower) then
          String.ofList url :: go n rest
        else go n rest

def parseSubscribe (callback nt sid : Option String) : Except SubscribeError SubscribeRequest :=
  match callback, nt, sid with
  | none, none, some sid => .ok (.renew (String.ofList (Text.trim sid.toList)))
  | _, _, some _ => .error (.badRequest "SID must not be combined with CALLBACK or NT")
  | some callback, some nt, none =>
    if !Text.sameLetters (Text.trim nt.toList) "upnp:event".toList then
      .error (.preconditionFailed "NT must be upnp:event")
    else
      let callbacks := parseCallbacks callback.toList
      if callbacks.isEmpty then
        .error (.preconditionFailed "CALLBACK carried no usable http URL")
      else .ok (.new callbacks)
  | _, _, none => .error (.badRequest "a SUBSCRIBE needs either CALLBACK and NT, or SID")

/-! ## The table -/

def subscriptionTime : Duration := 1800 * 1000000000

def maxDeliveryFailures : ℕ := 3

structure Subscription where
  sid : String
  service : EventedService
  callbacks : List String
  /-- The number of the next event. -/
  seq : ℕ
  expires : ℕ
  failures : ℕ
  deriving DecidableEq, Repr

namespace Subscription

variable (sub : Subscription)

def live (now : ℕ) : Bool := now < sub.expires

/-- The subscription once its next number is taken.  Past the last number comes
1. -/
def takeSeq : Subscription := { sub with seq := if sub.seq + 1 < 2 ^ 32 then sub.seq + 1 else 1 }

end Subscription

abbrev Subscribers := List Subscription

def modifyFirst {α : Type*} (p : α → Bool) (f : α → α) : List α → List α
  | [] => []
  | x :: xs => if p x then f x :: xs else x :: modifyFirst p f xs

namespace Subscribers

variable (subs : Subscribers)

def add (sub : Subscription) : Subscribers := subs ++ [sub]

def holds (sid : String) (now : ℕ) (sub : Subscription) : Bool := sub.sid == sid && sub.live now

/-- Extend a subscription, if it is known and has not lapsed. -/
def renew (sid : String) (now : ℕ) : Subscribers :=
  modifyFirst (holds sid now) (fun sub => { sub with expires := now + subscriptionTime }) subs

def remove (sid : String) : Subscribers := subs.filter fun sub => sub.sid != sid

def expire (now : ℕ) : Subscribers := subs.filter fun sub => sub.live now

/-- Whether `prepare` numbers an event for a subscription. -/
def wants (service : EventedService) (now : ℕ) (sub : Subscription) : Bool :=
  sub.service == service && sub.live now

/-- What to deliver: to whom, under which number, and where. -/
def batch (service : EventedService) (now : ℕ) : List (String × ℕ × List String) :=
  (subs.filter (wants service now)).map fun sub => (sub.sid, sub.seq, sub.callbacks)

/-- Take the next number for every live subscriber to a service. -/
def prepare (service : EventedService) (now : ℕ) : Subscribers :=
  subs.map fun sub => if wants service now sub then sub.takeSeq else sub

def one (sid : String) (now : ℕ) : Option (ℕ × List String) :=
  (subs.find? (holds sid now)).map fun sub => (sub.seq, sub.callbacks)

def prepareOne (sid : String) (now : ℕ) : Subscribers :=
  modifyFirst (holds sid now) Subscription.takeSeq subs

def delivered (sid : String) : Subscribers :=
  modifyFirst (fun sub => sub.sid == sid) (fun sub => { sub with failures := 0 }) subs

def deliveryFailed (sid : String) : Subscribers :=
  match subs.find? fun sub => sub.sid == sid with
  | none => subs
  | some sub =>
    if maxDeliveryFailures ≤ sub.failures + 1 then subs.remove sid
    else
      modifyFirst (fun sub => sub.sid == sid)
        (fun sub => { sub with failures := sub.failures + 1 }) subs

end Subscribers

end Castaway.Dlna
