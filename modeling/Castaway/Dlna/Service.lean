import Castaway.Dlna.Gena

/-!
# The event service between its locks

The renderer, the properties last published and the table of subscriptions are
each behind a lock of their own, and nothing is held from one lock to the next.
Here a `Move` is one request as far as its first lock, or one further lock taken
by a `Task` in progress: by a request that has changed the renderer and goes on
to publish both services, or by the task that sends a new subscriber its initial
event.

`handed` records the events that were numbered, in the order in which they were.
-/

namespace Castaway.Dlna

open Castaway.Core (ControlTxn Payloads PlaybackEnd)

inductive ServiceKind where
  | avTransport
  | renderingControl
  | connectionManager
  deriving DecidableEq, Repr

/-! ## Tasks -/

/-- What is in progress, by the lock it takes next.  A publication of one
service is followed by those of `rest`. -/
inductive Task where
  /-- `publish_if_changed`, before the renderer is read. -/
  | reading (service : EventedService) (rest : List EventedService)
  /-- Before what was read is compared with what was last published. -/
  | comparing (service : EventedService) (properties : Properties) (rest : List EventedService)
  | numbering (service : EventedService) (properties : Properties) (rest : List EventedService)
  /-- Numbered events, each delivered or not. -/
  | delivering (batch : List (String × ℕ × List String)) (rest : List EventedService)
  /-- `publish_to`, before the renderer is read. -/
  | readingFor (service : EventedService) (sid : String)
  | numberingFor (service : EventedService) (sid : String) (properties : Properties)
  | deliveringTo (sid : String) (callbacks : List String)
  deriving DecidableEq, Repr

namespace Task

/-- Go on with the next service, if there is one. -/
def publishing : List EventedService → Option Task
  | [] => none
  | service :: rest => some (reading service rest)

def sending : List (String × ℕ × List String) → List EventedService → Option Task
  | [], rest => publishing rest
  | entry :: batch, rest => some (delivering (entry :: batch) rest)

end Task

/-- An event that was given a number. -/
structure Handed where
  sid : String
  service : EventedService
  seq : ℕ
  properties : Properties
  /-- Made by `publish_to`. -/
  initial : Bool
  deriving DecidableEq, Repr

/-! ## The service -/

structure Service where
  renderer : Renderer := {}
  published : List (EventedService × Properties) := []
  subscribers : Subscribers := []
  now : ℕ := 0
  tasks : List Task := []
  /-- The identifiers that were minted so far. -/
  minted : List String := []
  handed : List Handed := []
  deriving DecidableEq, Repr

inductive Move (P : Payloads) where
  | passes (d : Duration)
  /-- A control request: its action if it parses, and what a probe of its URI
  would find. -/
  | control (kind : ServiceKind) (request : Except DlnaError SoapAction)
      (fault : Option DlnaError) (progress : Option PlaybackProgress)
  | press (txn : ControlTxn P)
  | ended (how : PlaybackEnd)
  /-- A `SUBSCRIBE`, and the identifier minted if the subscription is a new one.
  -/
  | subscribe (service : EventedService) (callback nt sid : Option String) (minted : String)
  | unsubscribe (sid : Option String)
  /-- A task in progress takes its next lock; `answers` says which addresses
  answer. -/
  | work (task : ℕ) (answers : String → Bool)

namespace Service

variable {P : Payloads} (media : Media P) (s : Service)

def current (service : EventedService) : Properties := service.properties s.renderer

def last (service : EventedService) : Option Properties := s.published.lookup service

def remember (published : List (EventedService × Properties)) (service : EventedService)
    (properties : Properties) : List (EventedService × Properties) :=
  match published with
  | [] => [(service, properties)]
  | entry :: rest =>
    if entry.1 = service then (service, properties) :: rest
    else entry :: remember rest service properties

def spawn (task : Option Task) : Service := { s with tasks := s.tasks ++ task.toList }

/-- The renderer is as it is now, and both services are to be published. -/
def changed (r : Renderer) : Service :=
  { s with renderer := r }.spawn (Task.publishing [.avTransport, .renderingControl])

def dispatch (kind : ServiceKind) (action : SoapAction) (r : Renderer) : Renderer × Answer P :=
  match kind with
  | .avTransport => r.avTransport media action
  | .renderingControl => r.renderingControl media action
  | .connectionManager => (r, Renderer.connectionManager action)

/-- The URI of an action that sets one, which is probed before the action is
applied. -/
def probedUri (kind : ServiceKind) (action : SoapAction) : Option String :=
  if kind ≠ .avTransport ∨ action.requireInstanceZero ≠ .ok () then none
  else
    let uri :=
      match action.name with
      | "SetAVTransportURI" => action.arg "CurrentURI"
      | "SetNextAVTransportURI" => (action.arg "NextURI").filter fun uri => !uri.isEmpty
      | _ => none
    uri.filter fun uri => (media.request uri).isSome

/-- A refused action is answered with a fault and publishes nothing. -/
def handleControl (kind : ServiceKind) (request : Except DlnaError SoapAction)
    (fault : Option DlnaError) (progress : Option PlaybackProgress) : Service :=
  match request with
  | .error _ => s
  | .ok action =>
    if (probedUri media kind action).isSome ∧ fault.isSome then s
    else
      let after := dispatch media kind action (s.renderer.observeProgress progress)
      match after.2 with
      | .error _ => { s with renderer := after.1 }
      | .ok _ => s.changed after.1

def issue (txn : ControlTxn P) : Service :=
  match s.renderer.press media txn with
  | none => s
  | some r => s.changed r

def subscribe (service : EventedService) (callback nt sid : Option String) (minted : String) :
    Service :=
  match parseSubscribe callback nt sid with
  | .error _ => s
  | .ok (.renew sid) =>
    { s with subscribers := (Subscribers.expire s.subscribers s.now).renew sid s.now }
  | .ok (.new callbacks) =>
    if minted ∈ s.minted then s
    else
      { s with
        subscribers := (Subscribers.expire s.subscribers s.now).add
          ⟨minted, service, callbacks, 0, s.now + subscriptionTime, 0⟩
        minted := minted :: s.minted }.spawn (some (.readingFor service minted))

def unsubscribe (sid : Option String) : Service :=
  match sid with
  | none => s
  | some sid =>
    { s with subscribers :=
        Subscribers.remove s.subscribers (String.ofList (AirPlay.Text.trim sid.toList)) }

/-! ## The locks of a task -/

def compare (service : EventedService) (properties : Properties) (rest : List EventedService) :
    Service × Option Task :=
  if s.last service = some properties then (s, Task.publishing rest)
  else
    ({ s with published := remember s.published service properties },
      some (.numbering service properties rest))

def number (service : EventedService) (properties : Properties) (rest : List EventedService) :
    Service × Option Task :=
  let subs := Subscribers.expire s.subscribers s.now
  let batch := subs.batch service s.now
  ({ s with
    subscribers := subs.prepare service s.now
    handed := s.handed ++ batch.map fun entry =>
      ⟨entry.1, service, entry.2.1, properties, false⟩ },
    Task.sending batch rest)

def numberFor (service : EventedService) (sid : String) (properties : Properties) :
    Service × Option Task :=
  match Subscribers.one s.subscribers sid s.now with
  | none => (s, none)
  | some (seq, callbacks) =>
    ({ s with
      subscribers := Subscribers.prepareOne s.subscribers sid s.now
      handed := s.handed ++ [⟨sid, service, seq, properties, true⟩] },
      some (.deliveringTo sid callbacks))

/-- Deliver one event, trying each address in turn, and keep the books. -/
def send (sid : String) (callbacks : List String) (answers : String → Bool) : Service :=
  { s with subscribers :=
      if callbacks.any answers then Subscribers.delivered s.subscribers sid
      else Subscribers.deliveryFailed s.subscribers sid }

/-- A task takes its next lock; what is left of it follows. -/
def advance (answers : String → Bool) : Task → Service × Option Task
  | .reading service rest => (s, some (.comparing service (s.current service) rest))
  | .comparing service properties rest => s.compare service properties rest
  | .numbering service properties rest => s.number service properties rest
  | .delivering [] rest => (s, Task.publishing rest)
  | .delivering (entry :: batch) rest => (s.send entry.1 entry.2.2 answers, Task.sending batch rest)
  | .readingFor service sid => (s, some (.numberingFor service sid (s.current service)))
  | .numberingFor service sid properties => s.numberFor service sid properties
  | .deliveringTo sid callbacks => (s.send sid callbacks answers, none)

def without (i : ℕ) : Service := { s with tasks := s.tasks.eraseIdx i }

def work (i : ℕ) (answers : String → Bool) : Service :=
  match s.tasks[i]? with
  | none => s
  | some task =>
    let (after, left) := (s.without i).advance answers task
    after.spawn left

def step (s : Service) : Move P → Service
  | .passes d => { s with now := s.now + d }
  | .control kind request fault progress => s.handleControl media kind request fault progress
  | .press txn => s.issue media txn
  | .ended how => s.changed (s.renderer.mediaEnded how)
  | .subscribe service callback nt sid minted => s.subscribe service callback nt sid minted
  | .unsubscribe sid => s.unsubscribe sid
  | .work i answers => s.work i answers

def start (now : ℕ) : Service := { now := now }

end Service

end Castaway.Dlna
