import Mathlib.Tactic.Common

/-!
# What the adapters say to the session manager

Every protocol adapter reduces to a stream of `SessionEvent`s tagged with the
`SourceId` of the adapter's connection.  Many events carry a payload the
manager only hands on, such as a frame stream or a trait object; those types
are collected in `Payloads` and stay abstract.
-/

namespace Castaway.Core

inductive ProtocolKind
  | airPlay | cast | miracast | dlna | youTubeLounge | spotify | bluetooth | gameStream
  | matterCast | fCast
deriving DecidableEq, Repr

def ProtocolKind.slug : ProtocolKind → String
  | .airPlay => "airplay"
  | .cast => "cast"
  | .miracast => "miracast"
  | .dlna => "dlna"
  | .youTubeLounge => "youtube"
  | .spotify => "spotify"
  | .bluetooth => "bluetooth"
  | .gameStream => "gamestream"
  | .matterCast => "matter"
  | .fCast => "fcast"

/-- One running source: the protocol, and which of its connections. -/
structure SourceId where
  kind : ProtocolKind
  instanceTag : String
deriving DecidableEq, Repr

def SourceId.display (source : SourceId) : String :=
  source.kind.slug ++ "/" ++ source.instanceTag

inductive CoreError
  | invalidUri (uri : String)
  | invalidHeader (header : String)
  | invalidName (reason : String)
  | noActiveSession (source : String)
  | pipeline (reason : String)
  | display (reason : String)
  | unsupportedControl (txn : String)
  | channelClosed
  | adapter (reason : String)
deriving DecidableEq, Repr

/-! ## Who is casting -/

/-- Every protocol fills in a different subset of these fields. -/
@[ext] structure SourceDescription where
  displayName : Option String
  address : Option String
  link : Option String
deriving DecidableEq, Repr

namespace SourceDescription

def new : SourceDescription := ⟨none, none, none⟩

/-- Merge `other` over this one, keeping what it does not specify. -/
def merged (self other : SourceDescription) : SourceDescription where
  displayName := if other.displayName.isSome then other.displayName else self.displayName
  address := if other.address.isSome then other.address else self.address
  link := if other.link.isSome then other.link else self.link

def isEmpty (self : SourceDescription) : Bool :=
  self.displayName.isNone && self.address.isNone && self.link.isNone

/-- One line for a banner.  The address stands beside the name, not in its
place. -/
def display (self : SourceDescription) : String :=
  let name := self.displayName.getD ""
  let address :=
    match self.address with
    | none => ""
    | some address => if self.displayName.isSome then " (" ++ address ++ ")" else address
  let link :=
    match self.link with
    | none => ""
    | some link =>
      if self.displayName.isSome || self.address.isSome then " · " ++ link else link
  if self.isEmpty then "unknown device" else name ++ address ++ link

end SourceDescription

/-! ## Events -/

/-- The types the manager passes on without looking inside. -/
structure Payloads where
  MediaRequest : Type
  MediaUri : Type
  FrameSource : Type
  AudioFormat : Type
  Bytes : Type
  DeclaredLatency : Type
  NowPlaying : Type
  QueueItem : Type
  Volume : Type
  RemoteControl : Type
  TouchSurface : Type

structure ControlCapabilities where
  bits : UInt16
deriving DecidableEq, Repr

def ControlCapabilities.NONE : ControlCapabilities := ⟨0⟩

inductive RepeatMode
  | off | track | context
deriving DecidableEq, Repr

inductive ControlTxn (P : Payloads)
  | play
  | pause
  | stop
  | seek (position : ℕ)
  | volume (volume : P.Volume)
  | mute (muted : Bool)
  | next
  | previous
  | setQueue (items : List P.MediaUri) (startIndex : ℕ)
  | shuffle (on : Bool)
  | repeatMode (mode : RepeatMode)

structure MirrorAudio (P : Payloads) where
  source : P.FrameSource
  format : P.AudioFormat
  config : Option P.Bytes

structure HostedPage where
  url : String
  title : String
deriving DecidableEq, Repr

inductive FailureCause
  | unobtainable | unplayable | receiver
deriving DecidableEq, Repr

/-- Why the item the pipeline was playing stopped playing. -/
inductive PlaybackEnd
  | finished
  | failed (cause : FailureCause) (detail : String)
deriving DecidableEq, Repr

inductive SessionEvent (P : Payloads)
  | play (request : P.MediaRequest) (start : Option ℕ)
  | mirror (video : P.FrameSource) (audio : Option (MirrorAudio P))
  | audio (frames : P.FrameSource) (format : P.AudioFormat) (config : Option P.Bytes)
  | audioLatency (latency : P.DeclaredLatency)
  | nowPlaying (snapshot : P.NowPlaying)
  | upNext (items : List P.QueueItem)
  | sourceInfo (info : SourceDescription)
  | controlSurface (remote : P.RemoteControl)
  | touchSurface (surface : P.TouchSurface)
  | touchSurfaceRevoked
  | hostPage (page : HostedPage)
  | control (txn : ControlTxn P)
  | «end»

structure SourceMessage (P : Payloads) where
  source : SourceId
  event : SessionEvent P

end Castaway.Core
