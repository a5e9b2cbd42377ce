import Castaway.Core.Event

/-!
# The session manager

`SessionManager` arbitrates one active source, last writer wins, and drives the
pipeline, the display and the overlay.  A method takes the manager and returns
it together with what the caller is told.  Every call the manager makes to the
outside is appended to `calls`; what the outside answers in one turn is an
`Answers`, so each of them may fail.
-/

namespace Castaway.Core

variable {P : Payloads}

inductive DisplayInput
  | hdmi1 | hdmi2 | displayPort | usbC
deriving DecidableEq, Repr

structure SessionConfig where
  outputInput : DisplayInput
  osdTtl : ℕ

def SessionConfig.default : SessionConfig := ⟨.hdmi1, 4000000000⟩

structure OsdMessage where
  text : String
  ttl : Option ℕ
deriving DecidableEq, Repr

def OsdMessage.banner (text : String) (ttl : ℕ) : OsdMessage := ⟨text, some ttl⟩

inductive OsdCommand
  | «show» (message : OsdMessage)
  | clear
deriving DecidableEq, Repr

inductive PipelineCall (P : Payloads)
  | play (request : P.MediaRequest) (start : Option ℕ)
  | mirror (video : P.FrameSource) (audio : Option (MirrorAudio P))
  | playAudio (frames : P.FrameSource) (format : P.AudioFormat) (config : Option P.Bytes)
  | audioLatency (latency : P.DeclaredLatency)
  | nowPlaying (snapshot : P.NowPlaying)
  | upNext (items : List P.QueueItem)
  | sourceInfo (source : SourceDescription)
  | controls (capabilities : ControlCapabilities)
  | control (txn : ControlTxn P)
  | stop
  | hostPage (page : HostedPage)

/-- A call of the manager to the outside. -/
inductive Call (P : Payloads)
  | pipeline (call : PipelineCall P)
  | powerOn
  | selectInput (input : DisplayInput)
  | issue (remote : P.RemoteControl) (txn : ControlTxn P)
  | mediaEnded (remote : P.RemoteControl) (ending : PlaybackEnd)
  | cancelAll (surface : P.TouchSurface)
  | osd (command : OsdCommand)

/-- What the outside answers during one turn of the manager. -/
structure Answers (P : Payloads) where
  pipeline : PipelineCall P → Except CoreError Unit
  powerOn : Except CoreError Unit
  selectInput : DisplayInput → Except CoreError Unit
  capabilities : P.RemoteControl → ControlCapabilities
  issue : P.RemoteControl → ControlTxn P → Except CoreError Unit
  mediaEnded : P.RemoteControl → PlaybackEnd → Except CoreError Unit

/-- `display` and `osd` say whether the manager was built with one. -/
structure SessionManager (P : Payloads) where
  display : Bool
  osd : Bool
  config : SessionConfig
  active : Option SourceId
  remote : Option P.RemoteControl
  touch : Option P.TouchSurface
  casting : Bool
  description : SourceDescription
  calls : List (Call P)

namespace SessionManager

def new (display osd : Bool) (config : SessionConfig) : SessionManager P where
  display := display
  osd := osd
  config := config
  active := none
  remote := none
  touch := none
  casting := false
  description := .new
  calls := []

/-! ## Calls to the outside -/

def note (m : SessionManager P) (call : Call P) : SessionManager P :=
  { m with calls := m.calls ++ [call] }

def callPipeline (m : SessionManager P) (answers : Answers P) (call : PipelineCall P) :
    SessionManager P × Except CoreError Unit :=
  (m.note (.pipeline call), answers.pipeline call)

def issue (m : SessionManager P) (answers : Answers P) (remote : P.RemoteControl)
    (txn : ControlTxn P) : SessionManager P × Except CoreError Unit :=
  (m.note (.issue remote txn), answers.issue remote txn)

def reportEnd (m : SessionManager P) (answers : Answers P) (remote : P.RemoteControl)
    (ending : PlaybackEnd) : SessionManager P × Except CoreError Unit :=
  (m.note (.mediaEnded remote ending), answers.mediaEnded remote ending)

def showOsd (m : SessionManager P) (command : OsdCommand) : SessionManager P :=
  if m.osd then m.note (.osd command) else m

/-- Install or clear the touch surface, cancelling the contacts of the outgoing
one. -/
def setTouch (m : SessionManager P) (surface : Option P.TouchSurface) : SessionManager P :=
  match m.touch with
  | none => { m with touch := surface }
  | some previous => { m.note (.cancelAll previous) with touch := surface }

/-! ## Transitions -/

/-- The last lines of `begin_session`: `source` holds the panel. -/
def activate (m : SessionManager P) (source : SourceId) : SessionManager P :=
  showOsd { m with active := some source, casting := true }
    (.show (.banner ("Now casting from " ++ source.display) m.config.osdTtl))

/-- Take the panel from the active source.  Neither its refusal to pause nor a
pipeline that would not stop holds the takeover up. -/
def preempt (m : SessionManager P) (answers : Answers P) : SessionManager P :=
  let m :=
    match m.remote with
    | none => m
    | some remote => (m.issue answers remote .pause).1
  let m := (m.callPipeline answers .stop).1
  let m := setTouch { m with remote := none } none
  { m with description := .new }

/-- Wake the panel and select our input.  The first failure ends it. -/
def wakeDisplay (m : SessionManager P) (answers : Answers P) :
    SessionManager P × Except CoreError Unit :=
  let m := m.note .powerOn
  match answers.powerOn with
  | .error e => (m, .error e)
  | .ok () => (m.note (.selectInput m.config.outputInput), answers.selectInput m.config.outputInput)

def beginSession (m : SessionManager P) (answers : Answers P) (source : SourceId) :
    SessionManager P × Except CoreError Unit :=
  if m.active = some source then
    (m, .ok ())
  else if m.active.isSome then
    ((m.preempt answers).activate source, .ok ())
  else if m.display then
    match m.wakeDisplay answers with
    | (m, .error e) => (m, .error e)
    | (m, .ok ()) => (m.activate source, .ok ())
  else
    (m.activate source, .ok ())

/-- `begin_session` and then one pipeline call, the shape of the four events
that take the panel. -/
def beginAndCall (m : SessionManager P) (answers : Answers P) (source : SourceId)
    (call : PipelineCall P) : SessionManager P × Except CoreError Unit :=
  match m.beginSession answers source with
  | (m, .error e) => (m, .error e)
  | (m, .ok ()) => m.callPipeline answers call

/-- The active source's `End`. -/
def endSession (m : SessionManager P) (answers : Answers P) :
    SessionManager P × Except CoreError Unit :=
  let m := setTouch { m with active := none, casting := false, remote := none } none
  let m := (m.callPipeline answers (.controls .NONE)).1
  let m := showOsd { m with description := .new } .clear
  m.callPipeline answers .stop

def noActiveSession (m : SessionManager P) (source : SourceId) :
    SessionManager P × Except CoreError Unit :=
  (m, .error (.noActiveSession source.display))

def handle (m : SessionManager P) (answers : Answers P) (message : SourceMessage P) :
    SessionManager P × Except CoreError Unit :=
  let source := message.source
  match message.event with
  | .play request start => m.beginAndCall answers source (.play request start)
  | .mirror video audio => m.beginAndCall answers source (.mirror video audio)
  | .audio frames format config =>
    m.beginAndCall answers source (.playAudio frames format config)
  | .audioLatency latency =>
    if m.active = some source then
      m.callPipeline answers (.audioLatency latency)
    else m.noActiveSession source
  | .nowPlaying snapshot =>
    if m.active = some source then
      m.callPipeline answers (.nowPlaying snapshot)
    else m.noActiveSession source
  | .upNext items =>
    if m.active = some source then
      m.callPipeline answers (.upNext items)
    else m.noActiveSession source
  | .sourceInfo info =>
    if m.active = some source then
      let description := m.description.merged info
      let m := showOsd { m with description := description }
        (.show (.banner ("Now playing from " ++ description.display) m.config.osdTtl))
      m.callPipeline answers (.sourceInfo description)
    else m.noActiveSession source
  | .controlSurface remote =>
    if m.active = some source then
      callPipeline { m with remote := some remote } answers
        (.controls (answers.capabilities remote))
    else m.noActiveSession source
  | .touchSurface surface =>
    if m.active = some source then
      (m.setTouch (some surface), .ok ())
    else m.noActiveSession source
  | .touchSurfaceRevoked =>
    if m.active = some source then
      (m.setTouch none, .ok ())
    else m.noActiveSession source
  | .hostPage page => m.beginAndCall answers source (.hostPage page)
  | .control txn =>
    if m.active = some source then
      m.callPipeline answers (.control txn)
    else m.noActiveSession source
  | .end =>
    if m.active = some source then
      m.endSession answers
    else (m, .ok ())

/-- The pipeline reports the end of the item: the source is told first, and its
session ended second. -/
def mediaEnded (m : SessionManager P) (answers : Answers P) (ending : PlaybackEnd) :
    SessionManager P :=
  match m.active with
  | none => m
  | some source =>
    let m :=
      match m.remote with
      | none => m
      | some remote => (m.reportEnd answers remote ending).1
    (m.handle answers ⟨source, .end⟩).1

end SessionManager

/-! ## The event loop -/

/-- What the loop of `run` picks up: a message of a source, or an end report. -/
inductive Turn (P : Payloads)
  | heard (answers : Answers P) (message : SourceMessage P)
  | ended (answers : Answers P) (ending : PlaybackEnd)

namespace SessionManager

/-- One turn of `run`.  An error is logged and the loop goes on. -/
def turn (m : SessionManager P) : Turn P → SessionManager P
  | .heard answers message => (m.handle answers message).1
  | .ended answers ending => m.mediaEnded answers ending

def run (m : SessionManager P) (turns : List (Turn P)) : SessionManager P :=
  turns.foldl turn m

end SessionManager

end Castaway.Core
