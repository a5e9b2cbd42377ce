import Mathlib.Algebra.Order.Ring.Rat

/-!
# The browser subprocess and its host

The browser runs in a process of its own and paints two windows.  A thread reads
what it says, and the kiosk's main thread pumps the host: it obeys commands,
follows the panel, recovers what failed and imports what was painted.

Here every message and every part of a pump is a step of its own, so that the
reader thread may come between any two of them.  What is outside is brought in:
the panel is any machine that answers where a window goes (`Panel`), and a step
says what the operating system, the importer and the engine did.

`Electron.log` is what passed over the control socket and what failed, in the
order in which it did; the source keeps no such record.
-/

namespace Castaway.Browser

/-! ## The protocol -/

/-- Which of the browser's two windows a message is about. -/
inductive Surface where
  | widget
  | page
  deriving DecidableEq, Repr

structure PlaneInfo where
  fd : ℤ
  stride : ℕ
  offset : ℕ
  deriving DecidableEq, Repr

/-- How a paint's plane buffers travel from the browser to us. -/
inductive FdTransport where
  | process
  | scm
  deriving DecidableEq, Repr

/-- Pixel channel order, as the browser reported it. -/
inductive PixelOrder where
  | bgra
  | rgba
  deriving DecidableEq, Repr

/-- Which placement of a window a message is about. -/
structure ViewGeneration where
  raw : ℕ
  deriving DecidableEq, Repr

namespace ViewGeneration

/-- The generation of a host app that does not stamp its paints. -/
def unstamped : ViewGeneration := ⟨0⟩

/-- Whether a paint belongs to the placement at `current`. -/
def matches_ (generation current : ViewGeneration) : Bool :=
  generation.raw = current.raw || generation.raw = unstamped.raw

end ViewGeneration

/-- A frame that is ready and borrowed until released. -/
structure Paint where
  surface : Surface
  id : ℕ
  format : PixelOrder := .bgra
  width : ℕ
  height : ℕ
  generation : ViewGeneration := .unstamped
  modifier : Option String := none
  fdTransport : FdTransport := .process
  planes : List PlaneInfo
  deriving DecidableEq, Repr

/-- A block of a page's audio.  The time is on the page's media clock, in
seconds. -/
structure AudioBlock where
  surface : Surface
  pcm : String
  channels : UInt16
  sampleRate : UInt32
  mediaTime : ℚ
  paused : Bool
  deriving DecidableEq

/-- What the browser sends us. -/
inductive FromBrowser where
  | ready (pid : UInt32)
  | paint (paint : Paint)
  | dropped (total : ℕ)
  | noTexture (detail : String)
  | scriptletQuery (id : ℕ) (url : String)
  | adblockQuery (id : ℕ) (url source kind : String)
  | loadEnd (surface : Surface) (url : String) (status : Option UInt32)
  | loadError (surface : Surface) (url error : String)
  | renderGone (surface : Surface) (reason : String)
  | audio (block : AudioBlock)
  | probeResult (id : ℕ) (value : String)
  | log (level message : String)
  deriving DecidableEq

/-- What we send the browser. -/
inductive ToBrowser where
  | release (id : ℕ)
  | navigate (surface : Surface) (url : String) (width height : ℕ) (generation : ViewGeneration)
  | blank (surface : Surface)
  | resize (surface : Surface) (width height : ℕ) (generation : ViewGeneration)
  | adblockVerdict (id : ℕ) (block : Bool)
  | scriptletSource (id : ℕ) (source : String)
  | castPlatform (port : Option UInt16)
  deriving DecidableEq, Repr

/-! ## The panel -/

/-- A viewport in device pixels. -/
structure InsetRect where
  x : ℕ
  y : ℕ
  width : ℕ
  height : ℕ
  deriving DecidableEq, Repr

inductive LayerId where
  | browserWidget
  | browserFullscreen
  deriving DecidableEq, Repr

/-- Where a window's page is on the glass. -/
structure BrowserView where
  rect : InsetRect
  layer : LayerId
  deriving DecidableEq, Repr

/-- The panel, as far as the host asks it. -/
structure Panel where
  State : Type
  pageView : State → Surface → Option BrowserView
  setSurface : State → Surface → Bool → State
  restIfIdle : State → State
  /-- The rectangle of a window's role on a panel of some size. -/
  roleRect : Surface → ℕ × ℕ → InsetRect

/-- The engine and the mixer, as far as the reader thread asks them. -/
structure Engine where
  shouldBlock : String → String → String → Bool
  injectedScript : String → Option String
  /-- Whether audio samples decode. -/
  decodesPcm : String → Bool
  /-- Whether a resampler can be built for a rate and a channel count. -/
  resamples : UInt32 → UInt16 → Bool

/-! ## Faults and the recovery ladder -/

/-- How many times to rebuild a page before concluding the problem is not
transient. -/
def recoveryAttempts : ℕ := 3

/-- The wait before a recovery attempt, in milliseconds. -/
def recoveryDelay : ℕ := 3000

/-- A fault the reader thread observed, and where: nowhere in particular for the
process. -/
structure Fault where
  surface : Option Surface
  reason : String
  deriving DecidableEq, Repr

/-- Post a fault.  One that already waits is kept. -/
def setFault (slot : Option Fault) (surface : Option Surface) (reason : String) : Option Fault :=
  slot.or (some { surface, reason })

/-- A recovery due at a time, for a window or for the process. -/
structure Retry where
  due : ℕ
  surface : Option Surface
  deriving DecidableEq, Repr

structure RecoveryLadder where
  /-- Faults taken without a healthy stretch in between. -/
  attempts : ℕ := 0
  /-- A recovery scheduled but not yet due. -/
  retry : Option Retry := none
  deriving DecidableEq, Repr

/-- What the ladder decided. -/
inductive Recovery where
  | idle
  | scheduled (fault : Fault)
  | giveUp (fault : Fault)
  | rebuild (surface : Option Surface)
  deriving DecidableEq, Repr

namespace RecoveryLadder

/-- Absorb a fault if there is one, and surface whatever has come due. -/
def next (ladder : RecoveryLadder) (fault : Option Fault) (now : ℕ) : RecoveryLadder × Recovery :=
  match fault with
  | some fault =>
    if ladder.attempts + 1 > recoveryAttempts then
      -- The budget is spent, and the count starts over for a different page.
      ({ attempts := 0, retry := none }, .giveUp fault)
    else
      ({ attempts := ladder.attempts + 1
         retry := some { due := now + recoveryDelay, surface := fault.surface } },
        .scheduled fault)
  | none =>
    match ladder.retry with
    | some retry =>
      if now ≥ retry.due then ({ ladder with retry := none }, .rebuild retry.surface)
      else (ladder, .idle)
    | none => (ladder, .idle)

/-- A healthy stretch: past faults stop counting against the future. -/
def forgive (_ladder : RecoveryLadder) : RecoveryLadder := { attempts := 0, retry := none }

end RecoveryLadder

/-! ## The process -/

/-- A painted frame waiting to be imported. -/
structure PendingPaint where
  id : ℕ
  format : PixelOrder
  width : ℕ
  height : ℕ
  generation : ViewGeneration
  modifier : ℕ
  plane : PlaneInfo
  /-- Whether the plane's descriptor came with the paint. -/
  scmFd : Bool
  deriving DecidableEq, Repr

/-- What happened between us and one browser process. -/
inductive Entry where
  /-- A paint was read. -/
  | painted (surface : Surface) (id : ℕ)
  /-- A message was written to the control socket. -/
  | sent (msg : ToBrowser)
  /-- A fault was reported. -/
  | faulted (surface : Option Surface)
  /-- The process was given up on. -/
  | abandoned
  deriving DecidableEq, Repr

/-- A browser process and what is shared with its reader thread. -/
structure Electron where
  /-- How many processes there were before it. -/
  serial : ℕ
  /-- Whether the reader thread is running. -/
  reading : Bool := true
  /-- Whether the control socket is open. -/
  connected : Bool := true
  fault : Option Fault := none
  pending : Surface → Option PendingPaint := fun _ => none
  /-- The way into the mix, if there is one, and whether it has started. -/
  audio : Option Bool
  log : List Entry := []

namespace Electron

def note (e : Electron) (entry : Entry) : Electron := { e with log := e.log ++ [entry] }

/-- Write a message.  A socket that is closed takes none. -/
def send (e : Electron) (msg : ToBrowser) : Electron :=
  if e.connected then e.note (.sent msg) else e

def report (e : Electron) (surface : Option Surface) (reason : String) : Electron :=
  { e with fault := setFault e.fault surface reason }.note (.faulted surface)

end Electron

/-- Put a frame in a window's slot, or empty it. -/
def Electron.setPending (e : Electron) (surface : Surface) (slot : Option PendingPaint) :
    Electron :=
  { e with pending := Function.update e.pending surface slot }

/-- The decimal number a string spells, as `u64::from_str` reads it. -/
def parseU64 (text : String) : Option ℕ :=
  let digits : List Char := match text.toList with
    | '+' :: rest => rest
    | all => all
  let number : ℕ := digits.foldl (fun n digit => 10 * n + (digit.toNat - 48)) 0
  if digits ≠ [] ∧ digits.all Char.isDigit ∧ number < 2 ^ 64 then some number else none

/-- A media time at which `Duration::from_secs_f64` overflows, which ends the
thread. -/
def overflowsDuration (mediaTime : ℚ) : Bool := (2 : ℚ) ^ 64 ≤ max mediaTime 0

/-- What waits to be imported of a paint of one plane. -/
def Paint.waiting (paint : Paint) (plane : PlaneInfo) : PendingPaint where
  id := paint.id
  format := paint.format
  width := paint.width
  height := paint.height
  generation := paint.generation
  modifier := (paint.modifier.bind parseU64).getD 0
  plane
  scmFd := paint.fdTransport = .scm

/-- `handle` of a paint, whose `fds` descriptors have come over the second
socket. -/
def Electron.handlePaint (e : Electron) (paint : Paint) (fds : ℕ) : Electron :=
  let e := e.note (.painted paint.surface paint.id)
  if paint.fdTransport = .scm ∧ fds = 0 then
    -- Its descriptors never arrived.
    e.send (.release paint.id)
  else
    match paint.planes with
    | [] => e
    | [plane] =>
      let superseded := e.pending paint.surface
      let e := e.setPending paint.surface (some (paint.waiting plane))
      match superseded with
      | some old => e.send (.release old.id)
      | none => e
    | _ :: _ :: _ => e

/-- `handle` of a block of audio.  It is `none` where the thread does not
survive. -/
def Electron.handleAudio (engine : Engine) (e : Electron) (block : AudioBlock) : Option Electron :=
  if block.paused then some e
  else if !engine.decodesPcm block.pcm then some e
  else
    match e.audio with
    | none => some e
    | some started =>
      if !started && !engine.resamples block.sampleRate block.channels then some e
      else if overflowsDuration block.mediaTime then none
      else some { e with audio := some true }

/-- `handle`: act on one message.  It is `none` where the thread does not
survive. -/
def Electron.handle (engine : Engine) (e : Electron) (msg : FromBrowser) (fds : ℕ) :
    Option Electron :=
  match msg with
  | .paint paint => some (e.handlePaint paint fds)
  | .scriptletQuery id url =>
    some (e.send (.scriptletSource id ((engine.injectedScript url).getD "")))
  | .adblockQuery id url source kind =>
    some (e.send (.adblockVerdict id (engine.shouldBlock url source kind)))
  | .loadError surface _ error => some (e.report (some surface) ("load failed: " ++ error))
  | .renderGone surface reason => some (e.report (some surface) ("render process " ++ reason))
  | .audio block => e.handleAudio engine block
  | .ready _ | .dropped _ | .noTexture _ | .loadEnd .. | .probeResult .. | .log .. => some e

/-- One turn of `reader_loop`. -/
def Electron.read (engine : Engine) (e : Electron) (msg : FromBrowser) (fds : ℕ) : Electron :=
  if e.reading then (e.handle engine msg fds).getD { e with reading := false } else e

/-- The control socket closes, and with it `reader_loop` ends. -/
def Electron.close (e : Electron) : Electron :=
  let e := { e with connected := false }
  if e.reading then
    { e with reading := false }.report none "browser control channel closed"
  else e

/-! ## The host -/

inductive BrowserCommand where
  | navigate (url : String)
  | hide
  | castPlatform (port : Option UInt16)
  deriving DecidableEq, Repr

/-- A frame of one process that rides a texture of the compositor. -/
structure InFlight where
  serial : ℕ
  id : ℕ
  deriving DecidableEq, Repr

structure ElectronHost (panel : Panel) where
  electron : Option Electron
  /-- How many processes there have been. -/
  processes : ℕ := 1
  /-- Whether there is a mixer for a respawned process to join. -/
  mixer : Bool
  size : ℕ × ℕ := (1920, 1080)
  /-- The idle widget's URL, unless it was given up on. -/
  widget : Option String
  widgetStarted : Bool := false
  /-- What the page window is showing. -/
  pageUrl : Option String := none
  views : Surface → Option BrowserView := fun _ => none
  generations : Surface → ViewGeneration := fun _ => .unstamped
  ladder : RecoveryLadder := {}
  /-- Whether somebody asked to be told that the browser cannot be recovered. -/
  onRecoveryFailed : Bool
  /-- How often they were told. -/
  gaveUp : ℕ := 0
  panelState : panel.State
  /-- The frames that ride textures. -/
  composited : List InFlight := []

namespace ElectronHost

def new {panel : Panel} (mixer onRecoveryFailed : Bool) (widget : Option String)
    (panelState : panel.State) : ElectronHost panel where
  electron := some { serial := 0, audio := if mixer then some false else none }
  mixer
  widget
  onRecoveryFailed
  panelState

variable {panel : Panel} (engine : Engine) (h : ElectronHost panel)

/-- Whether a window has a page worth showing at all. -/
def hasPage : Surface → Bool
  | .widget => h.widget.isSome
  | .page => h.pageUrl.isSome

/-- Queue a message on the browser, if there is one. -/
def send (msg : ToBrowser) : ElectronHost panel :=
  { h with electron := h.electron.map (·.send msg) }

def setSurface (surface : Surface) (shown : Bool) : ElectronHost panel :=
  { h with panelState := panel.setSurface h.panelState surface shown }

def setView (surface : Surface) (view : Option BrowserView) : ElectronHost panel :=
  { h with views := Function.update h.views surface view }

def nextGeneration (surface : Surface) : ElectronHost panel :=
  { h with
    generations := Function.update h.generations surface ⟨(h.generations surface).raw + 1⟩ }

/-- Put a window on the glass and send it to `url`, as `show_widget` and
`show_page` end. -/
def navigate (surface : Surface) (url : String) : ElectronHost panel :=
  let view := panel.pageView h.panelState surface
  let h := h.setView surface view
  let rect := (view.map BrowserView.rect).getD (panel.roleRect surface h.size)
  let h := h.nextGeneration surface
  h.send (.navigate surface url rect.width rect.height (h.generations surface))

/-- Navigate the widget window to the configured URL, if there is one. -/
def showWidget : ElectronHost panel :=
  match h.widget with
  | none => h
  | some url => (h.setSurface .widget true).navigate .widget url

def showPage (url : String) : ElectronHost panel :=
  let h := if h.pageUrl ≠ some url then { h with ladder := h.ladder.forgive } else h
  let h := { h with pageUrl := some url }.setSurface .page true
  { h with panelState := panel.restIfIdle h.panelState }.navigate .page url

def hidePage : ElectronHost panel :=
  let h := h.setSurface .page false
  let h := if h.pageUrl.isSome then { h with pageUrl := none }.send (.blank .page) else h
  h.setView .page none

/-- The first thing the first pump does. -/
def start : ElectronHost panel :=
  if h.widgetStarted then h else { h with widgetStarted := true }.showWidget

def command : BrowserCommand → ElectronHost panel
  | .navigate url => h.showPage url
  | .hide => h.hidePage
  | .castPlatform port => h.send (.castPlatform port)

/-- Put one window's page where the panel says it goes. -/
def followPanel (surface : Surface) : ElectronHost panel :=
  let want := if h.hasPage surface then panel.pageView h.panelState surface else none
  if want = h.views surface then h
  else
    let h := h.setView surface want
    match want with
    | none => h
    | some view =>
      let h := h.nextGeneration surface
      h.send (.resize surface view.rect.width view.rect.height (h.generations surface))

def resize (width height : ℕ) : ElectronHost panel :=
  if width = 0 ∨ height = 0 then h
  else { h with size := (width, height), views := fun _ => none }

/-- Tell whoever asked that the browser cannot be recovered. -/
def announce : ElectronHost panel :=
  if h.onRecoveryFailed then { h with gaveUp := h.gaveUp + 1 } else h

/-- The `GiveUp` arm of `recover`. -/
def giveUp (surface : Option Surface) : ElectronHost panel :=
  match surface with
  | some .widget =>
    let h := { h with widget := none }.setSurface .widget false
    (h.send (.blank .widget)).setView .widget none
  | some .page => h.hidePage.announce
  | none =>
    let h := h.hidePage.setSurface .widget false
    let h := { h with views := fun _ => none }.announce
    { h with electron := h.electron.map (·.note .abandoned) }

/-- Bring back the windows a rebuild covers, as `recover` ends. -/
def showAgain (surface : Option Surface) : ElectronHost panel :=
  let h := if surface ≠ some .page then h.showWidget else h
  match h.pageUrl with
  | some url => if surface ≠ some .widget then h.showPage url else h
  | none => h

/-- The `Rebuild` arm of `recover`.  `exited` says whether the child has exited,
and `spawned` whether another could be spawned. -/
def rebuild (surface : Option Surface) (exited spawned : Bool) : ElectronHost panel :=
  if h.electron.isNone || exited then
    let h := { h with views := fun _ => none }
    if spawned then
      let fresh : Electron :=
        { serial := h.processes, audio := if h.mixer then some false else none }
      -- A fresh process has neither window.
      { h with electron := some fresh, processes := h.processes + 1 }.showAgain none
    else { h with electron := none }
  else h.showAgain surface

/-- Take the fault that waits, and let the ladder absorb it. -/
def takeFault (now : ℕ) : ElectronHost panel :=
  { h with
    electron := h.electron.map fun e => { e with fault := none }
    ladder := (h.ladder.next (h.electron.bind Electron.fault) now).1 }

/-- Put a failed window back if something died, or give up loudly. -/
def recover (now : ℕ) (exited spawned : Bool) : ElectronHost panel :=
  match (h.ladder.next (h.electron.bind Electron.fault) now).2 with
  | .idle => h.takeFault now
  | .scheduled _ => h.takeFault now
  | .giveUp fault => (h.takeFault now).giveUp fault.surface
  | .rebuild surface => (h.takeFault now).rebuild surface exited spawned

/-- What became of a frame that was to be imported. -/
inductive Import where
  /-- Its buffer could not be fetched. -/
  | notFetched
  /-- The compositor could not import it. -/
  | refused
  | imported
  deriving DecidableEq, Repr

/-- Import one window's pending frame.  A borrow that is dropped releases the
frame. -/
def importFrame (surface : Surface) (outcome : Import) : ElectronHost panel :=
  match h.electron with
  | none => h
  | some e =>
    match e.pending surface with
    | none => h
    | some paint =>
      let e := e.setPending surface none
      let released := { h with electron := some (e.send (.release paint.id)) }
      if !h.hasPage surface then released
      else if (h.views surface).isNone then released
      else if !paint.generation.matches_ (h.generations surface) then released
      else if !paint.scmFd ∧ outcome = .notFetched then released
      else if outcome = .refused then released
      else
        -- The borrow travels with the texture.
        { h with
          electron := some e
          composited := h.composited ++ [{ serial := e.serial, id := paint.id }] }

/-- The compositor lets go of a texture, and the borrow on it is dropped. -/
def retire (frame : InFlight) : ElectronHost panel :=
  if frame ∈ h.composited then
    { h with
      composited := h.composited.erase frame
      electron := h.electron.map fun e =>
        if e.serial = frame.serial then e.send (.release frame.id) else e }
  else h

/-! ## Steps -/

/-- What can happen to the host and to the process behind it. -/
inductive Step (panel : Panel) where
  /-- The reader thread reads a message. -/
  | message (msg : FromBrowser) (fds : ℕ)
  /-- The control socket closes. -/
  | closed
  /-- The compositor lets go of a texture. -/
  | retire (frame : InFlight)
  | moved (state : panel.State)
  | resize (width height : ℕ)
  -- The parts of a pump.
  | start
  | command (cmd : BrowserCommand)
  | followPanel (surface : Surface)
  | recover (now : ℕ) (exited spawned : Bool)
  | importFrame (surface : Surface) (outcome : Import)

def step : Step panel → ElectronHost panel
  | .message msg fds => { h with electron := h.electron.map fun e => e.read engine msg fds }
  | .closed => { h with electron := h.electron.map Electron.close }
  | .retire frame => h.retire frame
  | .moved state => { h with panelState := state }
  | .resize width height => h.resize width height
  | .start => h.start
  | .command cmd => h.command cmd
  | .followPanel surface => h.followPanel surface
  | .recover now exited spawned => h.recover now exited spawned
  | .importFrame surface outcome => h.importFrame surface outcome

/-! ## What a part of a pump sends

Most of them only put messages on the control socket, beside what they do to the
host's own fields. -/

end ElectronHost

def Electron.sends (e : Electron) (msgs : List ToBrowser) : Electron :=
  msgs.foldl Electron.send e

theorem Electron.sends_eq (e : Electron) (msgs : List ToBrowser) :
    e.sends msgs = if e.connected then { e with log := e.log ++ msgs.map Entry.sent } else e := by
  induction msgs generalizing e with
  | nil => simp [Electron.sends]
  | cons msg msgs ih =>
    have hcons : e.sends (msg :: msgs) = (e.send msg).sends msgs := rfl
    rw [hcons, ih]
    by_cases hconnected : e.connected = true
    · simp [Electron.send, Electron.note, hconnected]
    · simp [Electron.send, hconnected]

namespace ElectronHost

variable {panel : Panel} {h h' h'' : ElectronHost panel} {msgs more : List ToBrowser}

/-- `h'` comes from `h` by sending `msgs`, and perhaps by changes that neither
the process nor the compositor see. -/
structure Says (h : ElectronHost panel) (msgs : List ToBrowser) (h' : ElectronHost panel) : Prop where
  electron : h'.electron = h.electron.map (·.sends msgs)
  processes : h'.processes = h.processes
  composited : h'.composited = h.composited

theorem Says.silent (helectron : h'.electron = h.electron) (hprocesses : h'.processes = h.processes)
    (hcomposited : h'.composited = h.composited) : Says h [] h' where
  electron := by
    rw [helectron]
    cases h.electron with
    | none | some e => rfl
  processes := hprocesses
  composited := hcomposited

theorem Says.refl (h : ElectronHost panel) : Says h [] h := .silent rfl rfl rfl

theorem Says.trans (htold : Says h msgs h') (hmore : Says h' more h'') :
    Says h (msgs ++ more) h'' where
  electron := by
    rw [hmore.electron, htold.electron, Option.map_map]
    congr 1
    funext e
    simp [Electron.sends, List.foldl_append]
  processes := hmore.processes.trans htold.processes
  composited := hmore.composited.trans htold.composited

theorem says_send (h : ElectronHost panel) (msg : ToBrowser) : Says h [msg] (h.send msg) :=
  ⟨rfl, rfl, rfl⟩

/-- A window is sent to `url`, at whatever size and under whatever stamp. -/
def Navigates (surface : Surface) (url : String) (msg : ToBrowser) : Prop :=
  ∃ width height generation, msg = .navigate surface url width height generation

theorem says_navigate (h : ElectronHost panel) (surface : Surface) (url : String) :
    ∃ msg, Navigates surface url msg ∧ Says h [msg] (h.navigate surface url) :=
  ⟨_, ⟨_, _, _, rfl⟩, rfl, rfl, rfl⟩

theorem says_showWidget {url : String} (hwidget : h.widget = some url) :
    ∃ msg, Navigates .widget url msg ∧ Says h [msg] h.showWidget := by
  unfold showWidget
  rw [hwidget]
  obtain ⟨msg, hmsg, htold⟩ := (h.setSurface .widget true).says_navigate .widget url
  have hset : Says h [] (h.setSurface .widget true) := .silent rfl rfl rfl
  exact ⟨msg, hmsg, hset.trans htold⟩

theorem showWidget_none (hwidget : h.widget = none) : h.showWidget = h := by
  unfold showWidget
  rw [hwidget]

theorem says_showPage (h : ElectronHost panel) (url : String) :
    ∃ msg, Navigates .page url msg ∧ Says h [msg] (h.showPage url) := by
  unfold showPage
  split
  · exact ⟨_, ⟨_, _, _, rfl⟩, rfl, rfl, rfl⟩
  · exact ⟨_, ⟨_, _, _, rfl⟩, rfl, rfl, rfl⟩

theorem says_hidePage (h : ElectronHost panel) :
    ∃ msgs, (∀ msg ∈ msgs, msg = .blank .page) ∧ Says h msgs h.hidePage := by
  unfold hidePage
  dsimp only
  split
  · exact ⟨[.blank .page], by simp, rfl, rfl, rfl⟩
  · exact ⟨[], by simp, Says.silent rfl rfl rfl⟩

theorem says_followPanel (h : ElectronHost panel) (surface : Surface) :
    ∃ msgs, (∀ msg ∈ msgs, ∃ width height generation,
      msg = .resize surface width height generation) ∧ Says h msgs (h.followPanel surface) := by
  unfold followPanel
  dsimp only
  generalize (if h.hasPage surface then panel.pageView h.panelState surface else none) = want
  split
  · exact ⟨[], by simp, .refl h⟩
  · cases want with
    | none => exact ⟨[], by simp, Says.silent rfl rfl rfl⟩
    | some view => exact ⟨[_], by simp, rfl, rfl, rfl⟩

end ElectronHost

end Castaway.Browser
