import Castaway.Matter.Udc

/-!
# Pairing a phone, end to end

The server, the queue of prompts for the screen, and the worker that commissions
one phone after the other.  A `Step` is a datagram, the expiry timer, a prompt
taken from its queue, the end of an attempt or the report of it; `Panel.step` is
what it does.  The log is what a person with a watch could write down: it is
read by the properties alone.

## Strategy

`Inv` is kept by every step, and `paired_once` reads the properties of a step
off it.
-/

namespace Castaway.Matter

open List

variable {Name App Ip : Type}

/-! ## The panel -/

/-- What the screen says. -/
inductive OsdMessage where
  /-- A device wants to cast, and this number is to be typed there. -/
  | sticky (device : String) (passcode : String)
  | banner (text : String)
  deriving DecidableEq

/-- The worker's report of an attempt, and what to send to the phone about it.
-/
structure AttemptEnd (Name Ip : Type) where
  instanceName : Name
  outcome : Option ((Ip × UInt16) × CommissionerDeclaration)

inductive Attempt where
  | commissioned
  /-- The phone could not be commissioned, with the code for it. -/
  | failed (error : Option CdError)
  /-- It was, but remembering it failed, which ends the adapter. -/
  | notRemembered

inductive Logged (Name Ip : Type) where
  | issued (name : Name) (passcode at_ : ℕ)
  | sent (prompt : Prompt Name)
  | requested (request : CommissionRequest Name Ip)
  | freed (name : Name)

structure Panel (Name Ip : Type) where
  flow : Flow Name := .idle
  prompts : List (Prompt Name) := []
  /-- The requests that the worker has not ended, the one it runs in front. -/
  requests : List (CommissionRequest Name Ip) := []
  outcomes : List (AttemptEnd Name Ip) := []
  /-- Whose prompt is on the screen. -/
  promptOwner : Option Name := none
  osd : Option OsdMessage := none
  stopped : Bool := false
  now : ℕ := 0
  /-- How many prompts in the queue were there before the last request. -/
  ahead : ℕ := 0
  /-- The latest is in front. -/
  log : List (Logged Name Ip) := []

inductive Step (Name App Ip : Type) where
  | datagram (elapsed : ℕ) (id : IdentificationDeclaration Name App) (source : Ip) (passcode : ℕ)
  | timer (elapsed : ℕ)
  | pump
  | attempt (result : Attempt)
  | report

/-- Everything but a datagram. -/
def Step.Quiet : Step Name App Ip → Prop
  | .datagram .. => False
  | _ => True

/-- A passcode that is issued was drawn. -/
def Step.Drawn : Step Name App Ip → Prop
  | .datagram _ _ _ passcode => ∃ draws, generatePasscode draws = some passcode
  | _ => True

def Step.elapsed : Step Name App Ip → ℕ
  | .datagram elapsed .. => elapsed
  | .timer elapsed => elapsed
  | _ => 0

namespace Panel

variable [DecidableEq Name] (hostsAny : List App → Bool) (s : Panel Name Ip)

def send (prompt : Prompt Name) : Panel Name Ip :=
  { s with prompts := s.prompts ++ [prompt], log := .sent prompt :: s.log }

def request (r : CommissionRequest Name Ip) : Panel Name Ip :=
  { s with requests := s.requests ++ [r], ahead := s.prompts.length, log := .requested r :: s.log }

/-- Note a passcode that was not shown before. -/
def issue (before : Flow Name) : Panel Name Ip :=
  match before, s.flow with
  | .idle, .displayed name passcode _ issued =>
    { s with log := .issued name passcode issued :: s.log }
  | _, _ => s

def sendAll (prompt : Option (Prompt Name)) : Panel Name Ip := prompt.elim s s.send

/-- A declaration's decision.  `before` is the flow that it was made in. -/
def carryOut (before : Flow Name) (decided : Flow Name × Decision Name Ip) : Panel Name Ip :=
  let s' := ({ s with flow := decided.1 }.issue before).sendAll decided.2.prompt
  decided.2.commission.elim s' s'.request

/-- `dispatch`: the lapsed prompt comes down before a new one goes up. -/
def dispatch (id : IdentificationDeclaration Name App) (source : Ip) (passcode : ℕ) :
    Panel Name Ip :=
  let decided := s.flow.handle id source hostsAny passcode s.now
  (s.sendAll (decided.2.expired.map .clear)).carryOut (s.flow.expire s.now).1 decided

def expired : Panel Name Ip :=
  { s.sendAll ((s.flow.expire s.now).2.map .clear) with flow := (s.flow.expire s.now).1 }

/-- `pump_prompts`: show a passcode, or take down the prompt of the phone it
names. -/
def pump : Panel Name Ip :=
  match s.prompts with
  | [] => s
  | .passcode name device passcode :: rest =>
    { s with prompts := rest, ahead := s.ahead - 1, promptOwner := some name
             osd := some (.sticky device passcode) }
  | .clear name :: rest =>
    if s.promptOwner = some name then
      { s with prompts := rest, ahead := s.ahead - 1, promptOwner := none, osd := none }
    else { s with prompts := rest, ahead := s.ahead - 1 }

/-- The worker ends the attempt in front: the banner, and then its report. -/
def endAttempt (result : Attempt) : Panel Name Ip :=
  match s.requests with
  | [] => s
  | r :: rest =>
    -- what was queued before the attempt has been taken by then
    if 0 < s.ahead then s
    else
      match result with
      | .commissioned =>
        { s with requests := rest, promptOwner := none
                 osd := some (.banner (r.deviceName ++ " can now cast"))
                 outcomes := s.outcomes ++ [⟨r.instanceName, none⟩] }
      | .failed error =>
        { s with requests := rest, promptOwner := none
                 osd := some (.banner ("could not pair " ++ r.deviceName))
                 outcomes := s.outcomes ++ [⟨r.instanceName, r.replyTo.bind fun port =>
                   error.map fun errorCode => (port, { errorCode })⟩] }
      | .notRemembered => { s with stopped := true }

/-- The server hears of an attempt's end. -/
def report : Panel Name Ip :=
  match s.outcomes with
  | [] => s
  | ended :: rest =>
    { s with outcomes := rest, flow := s.flow.finished ended.instanceName
             log := if s.flow = .commissioning ended.instanceName then
               .freed ended.instanceName :: s.log else s.log }

def act : Step Name App Ip → Panel Name Ip
  | .datagram elapsed id source passcode =>
    { s with now := s.now + elapsed }.dispatch hostsAny id source passcode
  | .timer elapsed => { s with now := s.now + elapsed }.expired
  | .pump => s.pump
  | .attempt result => s.endAttempt result
  | .report => s.report

def step (x : Step Name App Ip) : Panel Name Ip := if s.stopped then s else s.act hostsAny x

def run (steps : List (Step Name App Ip)) : Panel Name Ip :=
  steps.foldl (fun s x => s.step hostsAny x) {}

/-! ## What is read off the panel -/

/-- The number that the flow is about, as it is shown, and whose it is. -/
def current : Option (Name × String) :=
  match s.flow with
  | .idle => none
  | .displayed name passcode _ _ => some (name, formatPasscode passcode)
  | .commissioning _ =>
    s.requests.head?.map fun r => (r.instanceName, formatPasscode r.passcode)

/-- The number that is on the screen, and whose it is. -/
def glass : Option (Name × String) :=
  match s.promptOwner, s.osd with
  | some name, some (.sticky _ passcode) => some (name, passcode)
  | _, _ => none

end Panel

namespace Logged

/-- The passcode issued last, unless it was redeemed. -/
def pending : List (Logged Name Ip) → Option (Name × ℕ × ℕ)
  | [] => none
  | .issued name passcode at_ :: _ => some (name, passcode, at_)
  | .requested _ :: _ => none
  | _ :: log => pending log

/-- The requests made, the latest in front. -/
def made : List (Logged Name Ip) → List (CommissionRequest Name Ip)
  | [] => []
  | .requested r :: log => r :: made log
  | _ :: log => made log

/-- How often the slot came free after an attempt. -/
def frees : List (Logged Name Ip) → ℕ
  | [] => 0
  | .freed _ :: log => frees log + 1
  | _ :: log => frees log

/-- The number sent to the screen last for a phone. -/
def lastNumber [DecidableEq Name] (name : Name) : List (Logged Name Ip) → Option String
  | [] => none
  | .sent (.passcode name' _ passcode) :: log =>
    if name' = name then some passcode else lastNumber name log
  | _ :: log => lastNumber name log

end Logged

/-! ## Prompts in order -/

variable [DecidableEq Name] {current showing : Option (Name × String)} {name : Name}
  {prompts : List (Prompt Name)}

/-- The prompts in the queue come one phone after the other.  A number goes up
where none is or where it is already, and what is up in the end is current. -/
def Orderly (current : Option (Name × String)) :
    Option (Name × String) → List (Prompt Name) → Prop
  | showing, [] => showing = none ∨ showing = current
  | showing, .clear name :: rest =>
    Orderly current (if showing.map Prod.fst = some name then none else showing) rest
  | showing, .passcode name _ passcode :: rest =>
    (showing = none ∨ showing = some (name, passcode)) ∧
      Orderly current (some (name, passcode)) rest

/-- What is current is taken down, and anything may be current then. -/
theorem Orderly.concat_clear {next : Option (Name × String)} (h : Orderly current showing prompts)
    (hcurrent : ∀ number ∈ current, number.1 = name) :
    Orderly next showing (prompts ++ [.clear name]) := by
  induction prompts generalizing showing with
  | nil =>
    refine .inl ?_
    rcases h with rfl | rfl
    · rfl
    · cases showing with
      | none => rfl
      | some number => rw [Option.map_some, hcurrent number rfl, if_pos rfl]
  | cons p prompts ih =>
    cases p with
    | clear other => exact ih h
    | passcode other device passcode => exact ⟨h.1, ih h.2⟩

/-- A number goes up that is current then, and nothing else was. -/
theorem Orderly.concat_passcode {device passcode : String} (h : Orderly current showing prompts)
    (hcurrent : current = none ∨ current = some (name, passcode)) :
    Orderly (some (name, passcode)) showing (prompts ++ [.passcode name device passcode]) := by
  induction prompts generalizing showing with
  | nil =>
    refine ⟨?_, .inr rfl⟩
    rcases h with hnone | rfl
    · exact .inl hnone
    · exact hcurrent
  | cons p prompts ih =>
    cases p with
    | clear other => exact ih h
    | passcode other device passcode' => exact ⟨h.1, ih h.2⟩

/-- Where numbers are only taken down, none is up in the end. -/
theorem orderly_of_clear (h : ∀ p ∈ prompts, p = .clear name) : Orderly current none prompts := by
  induction prompts with
  | nil => exact .inl rfl
  | cons p prompts ih =>
    cases h p mem_cons_self
    exact ih fun p hp => h p (mem_cons_of_mem _ hp)

/-- A number that is up is current or will be taken down. -/
theorem Orderly.taken_down {passcode : String}
    (h : Orderly current (some (name, passcode)) prompts) :
    current = some (name, passcode) ∨ .clear name ∈ prompts := by
  induction prompts with
  | nil =>
    rcases h with hnone | heq
    · cases hnone
    · exact .inl heq.symm
  | cons p prompts ih =>
    cases p with
    | clear other =>
      by_cases hother : other = name
      · exact .inr (hother ▸ mem_cons_self)
      · rw [Orderly, Option.map_some, if_neg fun heq => hother (Option.some.inj heq).symm] at h
        exact (ih h).imp_right (mem_cons_of_mem _)
    | passcode other device passcode' =>
      rcases h.1 with hnone | heq
      · cases hnone
      · cases heq
        exact (ih h.2).imp_right (mem_cons_of_mem _)

/-! ## What a step can do -/

namespace Panel

variable {hostsAny : List App → Bool} {s : Panel Name Ip}

/-- What a declaration of a phone can do, once a lapsed passcode is dropped. -/
inductive Moves (ready : Prop) (drawn : ℕ) (name : Name) (s : Panel Name Ip) :
    Panel Name Ip → Prop
  | stays : Moves ready drawn name s s
  | withdrawn {passcode device issued} (h : s.flow = .displayed name passcode device issued) :
    Moves ready drawn name s { s.send (.clear name) with flow := .idle }
  | hidden (h : s.flow = .commissioning name) : Moves ready drawn name s (s.send (.clear name))
  | redeemed {r device issued} (h : s.flow = .displayed name r.passcode device issued)
      (hname : r.instanceName = name) (hready : ready) :
    Moves ready drawn name s ({ s with flow := .commissioning name }.request r)
  | repeated {passcode device issued} (h : s.flow = .displayed name passcode device issued) :
    Moves ready drawn name s (s.send (.passcode name device (formatPasscode passcode)))
  | issued {device} (h : s.flow = .idle) :
    Moves ready drawn name s
        ({ s with flow := .displayed name drawn device s.now
                  log := .issued name drawn s.now :: s.log }.send
          (.passcode name device (formatPasscode drawn)))

omit [DecidableEq Name] in
theorem expired_cases (s : Panel Name Ip) : s.expired = s ∨ ∃ name passcode device issued,
      s.flow = .displayed name passcode device issued ∧ passcodeLifetime ≤ s.now - issued ∧
        s.expired = { s.send (.clear name) with flow := .idle } := by
  obtain ⟨flow, prompts, requests, outcomes, promptOwner, osd, stopped, now, ahead, log⟩ := s
  cases flow with
  | idle | commissioning name => exact .inl rfl
  | displayed name passcode device issued =>
    rw [expired, Flow.expire]
    by_cases hlapsed : passcodeLifetime ≤ now - issued
    · rw [if_pos hlapsed]
      exact .inr ⟨name, passcode, device, issued, rfl, hlapsed, rfl⟩
    · rw [if_neg hlapsed]
      exact .inl rfl

theorem carryOut_moves (id : IdentificationDeclaration Name App) (source : Ip) (passcode : ℕ) :
    Moves (id.request = .passcodeReady) passcode id.instanceName s
      (s.carryOut s.flow (s.flow.answer id source hostsAny passcode s.now)) := by
  obtain ⟨flow, prompts, requests, outcomes, promptOwner, osd, stopped, now, ahead, log⟩ := s
  rw [Flow.answer]
  cases id.request with
  | cancel =>
    cases flow with
    | idle => exact .stays
    | commissioning name =>
      by_cases hname : name = id.instanceName
      · simp only [Flow.onCancel, if_pos hname]
        exact .hidden (congrArg _ hname)
      · simp only [Flow.onCancel, if_neg hname]
        exact .stays
    | displayed name passcode device issued =>
      by_cases hname : name = id.instanceName
      · subst hname
        simp only [Flow.onCancel, if_pos]
        exact .withdrawn rfl
      · simp only [Flow.onCancel, if_neg hname]
        exact .stays
  | passcodeReady =>
    cases flow with
    | idle => exact .stays
    | commissioning name =>
      by_cases hname : name = id.instanceName
      · simp only [if_pos hname]
        exact .stays
      · simp only [if_neg hname]
        exact .stays
    | displayed name passcode device issued =>
      by_cases hname : name = id.instanceName
      · subst hname
        simp only [if_pos]
        exact .redeemed rfl rfl trivial
      · simp only [if_neg hname]
        exact .stays
  | commission =>
    cases id.commissionerPasscode with
    | false => cases flow <;> exact .stays
    | true =>
      cases hostsAny id.targetApps with
      | false => cases flow <;> exact .stays
      | true =>
        cases flow with
        | idle => exact .issued rfl
        | commissioning name => exact .stays
        | displayed name passcode device issued =>
          by_cases hname : name = id.instanceName
          · subst hname
            simp only [if_pos]
            exact .repeated rfl
          · simp only [if_neg hname]
            exact .stays

/-- A datagram drops a lapsed passcode, and then does what the declaration asks
for. -/
theorem dispatch_moves (id : IdentificationDeclaration Name App) (source : Ip) (passcode : ℕ) :
    Moves (id.request = .passcodeReady) passcode id.instanceName s.expired
      (s.dispatch hostsAny id source passcode) := by
  have hnow : s.expired.now = s.now := by
    rcases expired_cases s with hsame | ⟨_, _, _, _, -, -, hlapsed⟩
    · rw [hsame]
    · rw [hlapsed]
      rfl
  have hmoves := @carryOut_moves _ _ _ _ hostsAny s.expired id source passcode
  rw [hnow] at hmoves
  exact hmoves

/-! ## The invariant -/

/-- The slot is held from a request until the report of its end, and by one
attempt. -/
def Slot (s : Panel Name Ip) : Prop :=
  match s.flow with
  | .commissioning name =>
    (∃ r, s.requests = [r] ∧ s.outcomes = [] ∧ r.instanceName = name) ∨
      ∃ ended, s.requests = [] ∧ s.outcomes = [ended] ∧ ended.instanceName = name
  | _ => s.requests = [] ∧ s.outcomes = []

/-- One attempt is under way, or none. -/
def attempts : Flow Name → ℕ
  | .commissioning _ => 1
  | _ => 0

structure Inv (s : Panel Name Ip) : Prop where
  slot : s.Slot
  owned : ∀ name, s.promptOwner = some name →
    ∃ device passcode, s.osd = some (.sticky device passcode)
  owner : ∀ device passcode, s.osd = some (.sticky device passcode) →
    ∃ name, s.promptOwner = some name
  orderly : Orderly s.current s.glass s.prompts
  behind : ∀ name, s.flow = .commissioning name → ∀ p ∈ s.prompts.drop s.ahead, p = .clear name
  issued : ∀ name passcode device at_, s.flow = .displayed name passcode device at_ →
    Logged.pending s.log = some (name, passcode, at_) ∧
      Logged.lastNumber name s.log = some (formatPasscode passcode)
  freed : (Logged.made s.log).length = Logged.frees s.log + attempts s.flow

omit [DecidableEq Name] in
theorem Slot.of_request {r : CommissionRequest Name Ip} {rest} (h : s.Slot)
    (hrequests : s.requests = r :: rest) :
    s.flow = .commissioning r.instanceName ∧ rest = [] ∧ s.outcomes = [] := by
  unfold Slot at h
  rw [hrequests] at h
  split at h
  · rename_i hflow
    obtain ⟨_, hr, houtcomes, hname⟩ | ⟨_, hr, -⟩ := h
    · cases hr
      exact ⟨hname ▸ hflow, rfl, houtcomes⟩
    · cases hr
  · cases h.1

omit [DecidableEq Name] in
theorem Slot.of_report {ended : AttemptEnd Name Ip} {rest} (h : s.Slot)
    (houtcomes : s.outcomes = ended :: rest) :
    s.flow = .commissioning ended.instanceName ∧ s.requests = [] ∧ rest = [] := by
  unfold Slot at h
  rw [houtcomes] at h
  split at h
  · rename_i hflow
    obtain ⟨_, -, hno, -⟩ | ⟨_, hrequests, hone, hname⟩ := h
    · cases hno
    · cases hone
      exact ⟨hname ▸ hflow, hrequests, rfl⟩
  · cases h.2

omit [DecidableEq Name] in
theorem current_name (h : s.Slot) (hflow : s.flow = .commissioning name) :
    ∀ number ∈ s.current, number.1 = name := by
  rw [Slot, hflow] at h
  rw [current, hflow]
  rintro number hnumber
  rcases h with ⟨r, hrequests, -, hname⟩ | ⟨ended, hrequests, -⟩
  · rw [hrequests] at hnumber
    cases hnumber
    exact hname
  · rw [hrequests] at hnumber
    cases hnumber

omit [DecidableEq Name] in
theorem glass_owner (h : s.glass.map Prod.fst = some name) : s.promptOwner = some name := by
  unfold glass at h
  split at h
  · rename_i howner _
    rw [howner]
    exact h
  · cases h

theorem mem_drop_cons {α : Type} {a x : α} {l : List α} {n : ℕ} (h : x ∈ l.drop (n - 1)) :
    x ∈ (a :: l).drop n := by
  cases n with
  | zero => exact mem_cons_of_mem _ h
  | succ n => exact h

/-- **A declaration** and the expiry timer keep the invariant. -/
theorem inv_moves {ready : Prop} {drawn : ℕ} {s' : Panel Name Ip} (h : Inv s)
    (hmoves : Moves ready drawn name s s') : Inv s' := by
  have hslot := h.slot
  have horderly := h.orderly
  have hfreed := h.freed
  cases hmoves with
  | stays => exact h
  | withdrawn hflow =>
    rw [Slot, hflow] at hslot
    rw [current, hflow] at horderly
    rw [hflow] at hfreed
    refine ⟨hslot, h.owned, h.owner, horderly.concat_clear ?_, ?_, ?_, hfreed⟩
    · rintro _ ⟨⟩
      rfl
    · rintro _ ⟨⟩
    · rintro _ _ _ _ ⟨⟩
  | hidden hflow =>
    have hname := current_name hslot hflow
    refine ⟨hslot, h.owned, h.owner, horderly.concat_clear hname, ?_, ?_, hfreed⟩
    · intro name' hflow' p hp
      cases hflow.symm.trans hflow'
      change p ∈ (s.prompts ++ [Prompt.clear name]).drop s.ahead at hp
      rw [drop_append] at hp
      rcases mem_append.mp hp with hbefore | hlast
      · exact h.behind name hflow p hbefore
      · exact mem_singleton.mp (mem_of_mem_drop hlast)
    · intro _ _ _ _ hflow'
      cases hflow.symm.trans hflow'
  | @redeemed r _ _ hflow hname hready =>
    rw [Slot, hflow] at hslot
    rw [current, hflow, ← hname] at horderly
    rw [hflow] at hfreed
    have hrequests : s.requests ++ [r] = [r] := by rw [hslot.1, nil_append]
    refine ⟨.inl ⟨r, hrequests, hslot.2, hname⟩, h.owned, h.owner, ?_, ?_, ?_, ?_⟩
    · change Orderly (((s.requests ++ [r]).head?).map _) s.glass s.prompts
      rw [hrequests]
      exact horderly
    · intro _ _ p hp
      change p ∈ s.prompts.drop s.prompts.length at hp
      rw [drop_length] at hp
      cases hp
    · rintro _ _ _ _ ⟨⟩
    · exact congrArg (· + 1) hfreed
  | repeated hflow =>
    rw [current, hflow] at horderly
    refine ⟨hslot, h.owned, h.owner, ?_, ?_, ?_, hfreed⟩
    · rw [current, send, hflow]
      exact horderly.concat_passcode (.inr rfl)
    · intro _ hflow'
      cases hflow.symm.trans hflow'
    · intro _ _ _ _ hflow'
      cases hflow.symm.trans hflow'
      exact ⟨(h.issued _ _ _ _ hflow).1, if_pos rfl⟩
  | issued hflow =>
    rw [Slot, hflow] at hslot
    rw [current, hflow] at horderly
    rw [hflow] at hfreed
    refine ⟨hslot, h.owned, h.owner, horderly.concat_passcode (.inl rfl), ?_, ?_, hfreed⟩
    · rintro _ ⟨⟩
    · rintro _ _ _ _ ⟨⟩
      exact ⟨rfl, if_pos rfl⟩

theorem inv_expired (h : Inv s) : Inv s.expired := by
  rcases expired_cases s with hsame | ⟨name, passcode, device, issued, hflow, -, hlapsed⟩
  · rw [hsame]
    exact h
  · rw [hlapsed]
    exact inv_moves h (.withdrawn hflow : Moves False 0 name s _)

theorem inv_pump (h : Inv s) : Inv s.pump := by
  have horderly := h.orderly
  have hbehind := h.behind
  unfold pump
  split
  · exact h
  · rename_i name device passcode rest hprompts
    rw [hprompts] at horderly hbehind
    refine ⟨h.slot, fun _ hname => ⟨device, passcode, rfl⟩, fun _ _ _ => ⟨name, rfl⟩,
      horderly.2, ?_, h.issued, h.freed⟩
    exact fun name' hflow p hp => hbehind name' hflow p (mem_drop_cons hp)
  · rename_i name rest hprompts
    rw [hprompts] at horderly hbehind
    have hrest : ∀ name', s.flow = .commissioning name' →
        ∀ p ∈ rest.drop (s.ahead - 1), p = .clear name' :=
      fun name' hflow p hp => hbehind name' hflow p (mem_drop_cons hp)
    split
    · rename_i howner
      refine ⟨h.slot, fun _ hname => ?_, fun _ _ hosd => ?_, ?_, hrest, h.issued, h.freed⟩
      · cases hname
      · cases hosd
      · obtain ⟨device, passcode, hosd⟩ := h.owned name howner
        rw [glass, howner, hosd] at horderly
        change Orderly _ (if some name = some name then none else _) rest at horderly
        rw [if_pos rfl] at horderly
        rw [glass]
        exact horderly
    · rename_i howner
      refine ⟨h.slot, h.owned, h.owner, ?_, hrest, h.issued, h.freed⟩
      rw [Orderly, if_neg (mt glass_owner howner)] at horderly
      exact horderly

theorem inv_endAttempt (h : Inv s) (result : Attempt) : Inv (s.endAttempt result) := by
  unfold endAttempt
  split
  · exact h
  · rename_i r rest hrequests
    split
    · exact h
    · rename_i hahead
      obtain ⟨hflow, rfl, houtcomes⟩ := h.slot.of_request hrequests
      have hclear := h.behind _ hflow
      rw [Nat.eq_zero_of_not_pos hahead] at hclear
      have hended (banner : String) (ended : AttemptEnd Name Ip)
          (hname : ended.instanceName = r.instanceName) :
          Inv { s with requests := [], promptOwner := none, osd := some (.banner banner)
                       outcomes := s.outcomes ++ [ended] } := by
        refine ⟨?_, ?_, ?_, ?_, h.behind, h.issued, h.freed⟩
        · rw [Slot, hflow]
          exact .inr ⟨ended, rfl, by rw [houtcomes, nil_append], hname⟩
        · rintro _ ⟨⟩
        · rintro _ _ ⟨⟩
        · exact orderly_of_clear hclear
      cases result with
      | commissioned | failed error => exact hended _ _ rfl
      | notRemembered => exact ⟨h.slot, h.owned, h.owner, h.orderly, h.behind, h.issued, h.freed⟩

theorem inv_report (h : Inv s) : Inv s.report := by
  unfold report
  split
  · exact h
  · rename_i ended rest houtcomes
    obtain ⟨hflow, hrequests, rfl⟩ := h.slot.of_report houtcomes
    have horderly := h.orderly
    have hfreed := h.freed
    rw [current, hflow, hrequests] at horderly
    rw [hflow] at hfreed
    rw [hflow, Flow.finished, if_pos rfl, if_pos rfl]
    refine ⟨⟨hrequests, rfl⟩, h.owned, h.owner, horderly, ?_, ?_, hfreed⟩
    · rintro _ ⟨⟩
    · rintro _ _ _ _ ⟨⟩

theorem inv_step (h : Inv s) (x : Step Name App Ip) : Inv (s.step hostsAny x) := by
  have hlater (elapsed : ℕ) : Inv { s with now := s.now + elapsed } :=
    ⟨h.slot, h.owned, h.owner, h.orderly, h.behind, h.issued, h.freed⟩
  unfold step
  split
  · exact h
  · cases x with
    | datagram elapsed id source passcode =>
      exact inv_moves (inv_expired (hlater elapsed)) (dispatch_moves id source passcode)
    | timer elapsed => exact inv_expired (hlater elapsed)
    | pump => exact inv_pump h
    | attempt result => exact inv_endAttempt h result
    | report => exact inv_report h

theorem inv_run (steps : List (Step Name App Ip)) : Inv (run hostsAny steps : Panel Name Ip) := by
  induction steps using List.reverseRecOn with
  | nil =>
    refine ⟨⟨rfl, rfl⟩, ?_, ?_, .inl rfl, ?_, ?_, rfl⟩
    · rintro _ ⟨⟩
    · rintro _ _ ⟨⟩
    · rintro _ ⟨⟩
    · rintro _ _ _ _ ⟨⟩
  | append_singleton steps x ih =>
    rw [run, foldl_concat]
    exact inv_step ih x

/-! ## One passcode, one phone, one attempt -/

section

omit [DecidableEq Name]

/-- A passcode that is redeemed is within its lifetime. -/
theorem expired_displayed {passcode issued : ℕ} {device : String}
    (h : s.expired.flow = .displayed name passcode device issued) :
    s.expired = s ∧ s.now < issued + passcodeLifetime := by
  rcases expired_cases s with hsame | ⟨_, _, _, _, -, -, hlapsed⟩
  · refine ⟨hsame, ?_⟩
    have hflow : s.flow = _ := (congrArg flow hsame).symm.trans h
    change (s.flow.expire s.now).1 = _ at h
    rw [hflow, Flow.expire] at h
    split at h
    · cases h
    · omega
  · cases (congrArg flow hlapsed).symm.trans h

theorem Moves.glass {ready : Prop} {drawn : ℕ} {s' : Panel Name Ip}
    (h : Moves ready drawn name s s') : s'.glass = s.glass := by
  cases h <;> rfl

theorem Moves.flow {ready : Prop} {drawn : ℕ} {s' : Panel Name Ip}
    (h : Moves ready drawn name s s') :
    s'.flow = s.flow ∨ s.flow.phone = some name ∨ s.flow.phone = none := by
  cases h with
  | withdrawn h | redeemed h => exact .inr (.inl (by rw [h]; rfl))
  | issued h => exact .inr (.inr (by rw [h]; rfl))
  | _ => exact .inl rfl

theorem Moves.made {ready : Prop} {drawn : ℕ} {s' : Panel Name Ip}
    (h : Moves ready drawn name s s') : Logged.made s'.log = Logged.made s.log ∨
      ∃ r device issued, ready ∧ r.instanceName = name ∧
        s.flow = .displayed name r.passcode device issued ∧ s'.log = .requested r :: s.log := by
  cases h with
  | redeemed h hname hready => exact .inr ⟨_, _, _, hready, hname, h, rfl⟩
  | _ => exact .inl rfl

theorem expired_keeps (s : Panel Name Ip) : (s.expired.flow = s.flow ∨ s.expired.flow = .idle) ∧
      Logged.made s.expired.log = Logged.made s.log ∧ s.expired.glass = s.glass := by
  rcases expired_cases s with hsame | ⟨_, _, _, _, -, -, hlapsed⟩
  · rw [hsame]
    exact ⟨.inl rfl, rfl, rfl⟩
  · rw [hlapsed]
    exact ⟨.inr rfl, rfl, rfl⟩

end

theorem answer_again (flow : Flow Name) (id : IdentificationDeclaration Name App)
    (source source' : Ip) (passcode passcode' now now' : ℕ) {flow' : Flow Name}
    (h : flow' = (flow.answer id source hostsAny passcode now).1 ∨ flow' = .idle) :
    (flow'.answer id source' hostsAny passcode' now').2.commission = none ∧
      (flow' ≠ .idle → (flow'.answer id source' hostsAny passcode' now').1 = flow') := by
  rcases h with rfl | rfl
  · rw [Flow.answer]
    cases hrequest : id.request with
    | cancel =>
      rw [Flow.answer, hrequest]
      cases flow with
      | idle | commissioning name => exact ⟨rfl, fun _ => rfl⟩
      | displayed name passcode device issued =>
        by_cases hname : name = id.instanceName <;> simp [Flow.onCancel, hname]
    | passcodeReady =>
      cases flow with
      | idle => simp [Flow.answer, hrequest]
      | commissioning name | displayed name passcode device issued =>
        by_cases hname : name = id.instanceName <;> simp [Flow.answer, hrequest, hname]
    | commission =>
      cases hpasscode : id.commissionerPasscode <;> cases hhosts : hostsAny id.targetApps <;>
        cases flow <;> simp [Flow.answer, hrequest, hpasscode, hhosts, apply_ite]
  · refine ⟨?_, fun h => absurd rfl h⟩
    rw [Flow.answer]
    cases id.request with
    | cancel | passcodeReady => rfl
    | commission => cases id.commissionerPasscode <;> cases hostsAny id.targetApps <;> rfl

theorem step_eq (s : Panel Name Ip) (x : Step Name App Ip) :
    s.step hostsAny x = s ∨ s.step hostsAny x = s.act hostsAny x := by
  unfold step
  split
  · exact .inl rfl
  · exact .inr rfl

theorem pump_keeps (s : Panel Name Ip) : s.pump.flow = s.flow ∧ s.pump.log = s.log := by
  unfold pump
  split
  · exact ⟨rfl, rfl⟩
  · exact ⟨rfl, rfl⟩
  · split <;> exact ⟨rfl, rfl⟩

omit [DecidableEq Name] in
theorem endAttempt_keeps (s : Panel Name Ip) (result : Attempt) :
    (s.endAttempt result).flow = s.flow ∧ (s.endAttempt result).log = s.log := by
  unfold endAttempt
  split
  · exact ⟨rfl, rfl⟩
  · split
    · exact ⟨rfl, rfl⟩
    · cases result <;> exact ⟨rfl, rfl⟩

/-- Without a datagram a flow only ends, and no request is made. -/
theorem step_quiet {x : Step Name App Ip} (hx : x.Quiet) :
    ((s.step hostsAny x).flow = s.flow ∨ (s.step hostsAny x).flow = .idle) ∧
      Logged.made (s.step hostsAny x).log = Logged.made s.log := by
  rcases step_eq s x with hstep | hstep <;> rw [hstep]
  · exact ⟨.inl rfl, rfl⟩
  · cases x with
    | datagram => exact hx.elim
    | timer elapsed =>
      obtain ⟨hflow, hmade, -⟩ := expired_keeps { s with now := s.now + elapsed }
      exact ⟨hflow, hmade⟩
    | pump => exact ⟨.inl (pump_keeps s).1, congrArg _ (pump_keeps s).2⟩
    | attempt result =>
      exact ⟨.inl (endAttempt_keeps s result).1, congrArg _ (endAttempt_keeps s result).2⟩
    | report =>
      change ((s.report).flow = _ ∨ (s.report).flow = _) ∧ Logged.made (s.report).log = _
      unfold report
      split
      · exact ⟨.inl rfl, rfl⟩
      · rename_i ended rest _
        by_cases hown : s.flow = .commissioning ended.instanceName
        · simp only [Flow.finished, if_pos hown]
          exact ⟨.inr trivial, rfl⟩
        · simp only [Flow.finished, if_neg hown]
          exact ⟨.inl trivial, trivial⟩

theorem run_quiet {quiet : List (Step Name App Ip)} (h : ∀ y ∈ quiet, y.Quiet) :
    (quiet.foldl (step hostsAny) s).flow = s.flow ∨
      (quiet.foldl (step hostsAny) s).flow = .idle := by
  induction quiet generalizing s with
  | nil => exact .inl rfl
  | cons y quiet ih =>
    have hrest := ih (s := s.step hostsAny y) fun z hz => h z (mem_cons_of_mem _ hz)
    have hstep := (@step_quiet _ _ _ _ hostsAny s _ (h y mem_cons_self)).1
    rw [foldl_cons]
    rcases hrest with hsame | hidle
    · rw [hsame]
      exact hstep
    · exact .inr hidle

omit [DecidableEq Name] in
theorem carryOut_flow (before : Flow Name) (decided : Flow Name × Decision Name Ip) :
    (s.carryOut before decided).flow = decided.1 ∧ (decided.2.commission = none →
      Logged.made (s.carryOut before decided).log = Logged.made s.log) := by
  obtain ⟨flow, reply, expired, prompt, commission⟩ := decided
  unfold carryOut sendAll issue
  cases commission <;> cases prompt <;> dsimp only [Option.elim] <;> split <;>
    first | exact ⟨rfl, fun _ => rfl⟩ | exact ⟨rfl, fun h => absurd h (Option.some_ne_none _)⟩

/-- `x` redeems the passcode that was issued last, and whose number was sent
last. -/
def Redeems (hostsAny : List App → Bool) (s : Panel Name Ip) (x : Step Name App Ip) : Prop :=
  ∃ elapsed id source passcode device issued r, x = .datagram elapsed id source passcode ∧
    id.request = .passcodeReady ∧ r.instanceName = id.instanceName ∧
    s.flow = .displayed id.instanceName r.passcode device issued ∧
    s.now + elapsed < issued + passcodeLifetime ∧
    Logged.pending s.log = some (id.instanceName, r.passcode, issued) ∧
    Logged.lastNumber id.instanceName s.log = some (formatPasscode r.passcode) ∧
    (s.step hostsAny x).log = .requested r :: s.log

/-- `x` leaves the flow, unless a passcode has lapsed. -/
def Leaves (hostsAny : List App → Bool) (s : Panel Name Ip) (x : Step Name App Ip) : Prop :=
  (s.flow.expire (s.now + x.elapsed)).1 ≠ .idle → (s.step hostsAny x).flow = s.flow

theorem step_requested (h : Inv s) (x : Step Name App Ip) :
    Logged.made (s.step hostsAny x).log = Logged.made s.log ∨ Redeems hostsAny s x := by
  by_cases hquiet : x.Quiet
  · exact .inl (step_quiet hquiet).2
  · cases x with
    | datagram elapsed id source passcode =>
      rcases step_eq s (.datagram elapsed id source passcode) with hstep | hstep
      · exact .inl (congrArg (Logged.made ·.log) hstep)
      · have hmoves := @dispatch_moves _ _ _ _ hostsAny { s with now := s.now + elapsed } id source
          passcode
        rcases hmoves.made with hmade | ⟨r, device, issued, hready, hname, hflow, hlog⟩
        · rw [hstep]
          exact .inl (hmade.trans (expired_keeps _).2.1)
        · obtain ⟨hsame, hwithin⟩ := expired_displayed hflow
          rw [hsame] at hflow hlog
          obtain ⟨hpending, hlast⟩ := h.issued _ _ _ _ hflow
          exact .inr ⟨elapsed, id, source, passcode, device, issued, r, rfl, hready, hname, hflow,
            hwithin, hpending, hlast, hstep ▸ hlog⟩
    | _ => exact (hquiet trivial).elim

theorem run_stopped (h : s.stopped = true) (steps : List (Step Name App Ip)) :
    steps.foldl (step hostsAny) s = s := by
  induction steps with
  | nil => rfl
  | cons x steps ih => rw [foldl_cons, step, if_pos h, ih]

/-- A datagram that is repeated finds the flow as it left it, or over. -/
theorem step_repeated (s : Panel Name Ip) {quiet : List (Step Name App Ip)}
    (hquiet : ∀ y ∈ quiet, y.Quiet) (elapsed elapsed' : ℕ) (id : IdentificationDeclaration Name App)
    (source source' : Ip) (passcode passcode' : ℕ) {s₁ : Panel Name Ip}
    (hs₁ : quiet.foldl (step hostsAny)
      (s.step hostsAny (.datagram elapsed id source passcode)) = s₁) :
    Logged.made (s₁.step hostsAny (.datagram elapsed' id source' passcode')).log =
        Logged.made s₁.log ∧ Leaves hostsAny s₁ (.datagram elapsed' id source' passcode') := by
  by_cases hstopped : s.stopped
  · have hs : s₁ = s := by
      rw [← hs₁, step, if_pos hstopped]
      exact run_stopped hstopped quiet
    rw [Leaves, step, hs, if_pos hstopped]
    exact ⟨rfl, fun _ => rfl⟩
  · rcases step_eq s₁ (.datagram elapsed' id source' passcode') with hstep | hstep
    · rw [Leaves, hstep]
      exact ⟨rfl, fun _ => rfl⟩
    · have hleft : s₁.flow =
          ((s.flow.expire (s.now + elapsed)).1.answer id source hostsAny passcode
            (s.now + elapsed)).1 ∨ s₁.flow = .idle := by
        have hrun := @run_quiet _ _ _ _ hostsAny
          (s.step hostsAny (.datagram elapsed id source passcode)) quiet hquiet
        rw [hs₁, step, if_neg hstopped] at hrun
        exact hrun.imp_left (·.trans (carryOut_flow _ _).1)
      have hnow : (s₁.flow.expire (s₁.now + elapsed')).1 = s₁.flow ∨
          (s₁.flow.expire (s₁.now + elapsed')).1 = .idle :=
        (expired_keeps { s₁ with now := s₁.now + elapsed' }).1
      obtain ⟨hnone, hsame⟩ := answer_again _ id source source' passcode passcode' _
        (s₁.now + elapsed') (hnow.elim (fun h => h ▸ hleft) .inr)
      rw [Leaves, hstep]
      refine ⟨((carryOut_flow _ _).2 hnone).trans (expired_keeps _).2.1, fun hidle => ?_⟩
      exact ((carryOut_flow _ _).1.trans (hsame hidle)).trans (hnow.resolve_right hidle)

/-- The phone that a step is about. -/
def phone (s : Panel Name Ip) : Step Name App Ip → Option Name
  | .datagram _ id _ _ => some id.instanceName
  | .timer _ => none
  | .pump => s.prompts.head?.map Prompt.instanceName
  | .attempt _ => s.requests.head?.map CommissionRequest.instanceName
  | .report => s.outcomes.head?.map AttemptEnd.instanceName

theorem step_flow (h : Inv s) {x : Step Name App Ip} (hphone : s.flow.phone = some name)
    (hother : s.phone x ≠ some name) : Leaves hostsAny s x := by
  intro hidle
  rcases step_eq s x with hstep | hstep <;> rw [hstep]
  have hlive (elapsed : ℕ) (hidle : (s.flow.expire (s.now + elapsed)).1 ≠ .idle) :
      { s with now := s.now + elapsed }.expired = { s with now := s.now + elapsed } := by
    rcases expired_cases { s with now := s.now + elapsed } with hsame | ⟨_, _, _, _, -, -, hlapsed⟩
    · exact hsame
    · exact absurd (congrArg flow hlapsed) hidle
  cases x with
  | datagram elapsed id source passcode =>
    have hmoves := @dispatch_moves _ _ _ _ hostsAny { s with now := s.now + elapsed } id source
      passcode
    rw [hlive elapsed hidle] at hmoves
    rcases hmoves.flow with hsame | hown | hno
    · exact hsame
    · exact absurd (hown.symm.trans hphone) hother
    · cases hno.symm.trans hphone
  | timer elapsed =>
    have hsame := congrArg flow (hlive elapsed hidle)
    exact hsame
  | pump => exact (pump_keeps s).1
  | attempt result => exact (endAttempt_keeps s result).1
  | report =>
    change s.report.flow = _
    unfold report
    split
    · rfl
    · rename_i ended rest houtcomes
      rw [phone, houtcomes] at hother
      rw [(h.slot.of_report houtcomes).1] at hphone
      exact absurd hphone hother

/-- A prompt is taken down for its own phone. -/
theorem step_glass (h : Inv s) (x : Step Name App Ip) {number : Name × String}
    (hglass : number ∈ s.glass) (hother : s.phone x ≠ some number.1) :
    (s.step hostsAny x).glass = s.glass := by
  rcases step_eq s x with hstep | hstep <;> rw [hstep]
  have horderly := h.orderly
  rw [hglass] at horderly
  cases x with
  | datagram elapsed id source passcode =>
    have hmoves := @dispatch_moves _ _ _ _ hostsAny { s with now := s.now + elapsed } id source
      passcode
    exact hmoves.glass.trans (expired_keeps _).2.2
  | timer elapsed => exact (expired_keeps { s with now := s.now + elapsed }).2.2
  | pump =>
    change s.pump.glass = _
    unfold pump
    split
    · rfl
    · rename_i hprompts
      rw [hprompts] at horderly
      rw [phone, hprompts] at hother
      rcases horderly.1 with hnone | hown
      · cases hnone
      · cases hown
        exact absurd rfl hother
    · rename_i hprompts
      split
      · rename_i howner
        rw [phone, hprompts] at hother
        have hname := glass_owner (congrArg (Option.map Prod.fst) hglass)
        exact absurd (howner.symm.trans hname) hother
      · rfl
  | attempt result =>
    change (s.endAttempt result).glass = _
    unfold endAttempt
    split
    · rfl
    · rename_i r rest hrequests
      split
      · rfl
      · rename_i hahead
        obtain ⟨hflow, -, -⟩ := h.slot.of_request hrequests
        have hclear := h.behind _ hflow
        rw [Nat.eq_zero_of_not_pos hahead] at hclear
        have hname : number.1 = r.instanceName := by
          rcases horderly.taken_down with hcurrent | hmem
          · exact current_name h.slot hflow number hcurrent
          · exact congrArg Prompt.instanceName (hclear _ hmem)
        rw [phone, hrequests] at hother
        exact absurd (congrArg some hname.symm) hother
  | report =>
    change s.report.glass = _
    unfold report
    split <;> rfl

/-- A passcode belongs to one phone and one attempt: what the step `x` does to a
panel. -/
structure PairedOnce (hostsAny : List App → Bool) (s : Panel Name Ip) (x : Step Name App Ip) :
    Prop where
  requested : Logged.made (s.step hostsAny x).log = Logged.made s.log ∨ Redeems hostsAny s x
  /-- The latest datagram again asks for nothing new, whatever else went on in
  between. -/
  repeated : ∀ elapsed id source passcode, x = .datagram elapsed id source passcode →
    ∀ quiet : List (Step Name App Ip), (∀ y ∈ quiet, y.Quiet) → ∀ elapsed' source' passcode' s₁,
      quiet.foldl (step hostsAny) (s.step hostsAny x) = s₁ →
        Logged.made (s₁.step hostsAny (.datagram elapsed' id source' passcode')).log =
            Logged.made s₁.log ∧
          Leaves hostsAny s₁ (.datagram elapsed' id source' passcode')
  flow_kept : ∀ name, s.flow.phone = some name → s.phone x ≠ some name → Leaves hostsAny s x
  glass_kept : ∀ number ∈ s.glass, s.phone x ≠ some number.1 → (s.step hostsAny x).glass = s.glass
  /-- A report ends the attempt that holds the slot, and there are as many as
  attempts. -/
  freed : (∀ ended ∈ s.outcomes.head?, s.flow = .commissioning ended.instanceName) ∧
    (Logged.made s.log).length = Logged.frees s.log + attempts s.flow
  glass : ∀ number ∈ s.glass, s.current = some number ∨ .clear number.1 ∈ s.prompts

theorem paired_once (hostsAny : List App → Bool) (steps : List (Step Name App Ip))
    (x : Step Name App Ip) : PairedOnce hostsAny (run hostsAny steps) x := by
  have hinv : Inv (run hostsAny steps : Panel Name Ip) := inv_run steps
  refine ⟨step_requested hinv x, ?_, fun _ => step_flow hinv, fun _ => step_glass hinv x,
    ⟨fun ended hended => ?_, hinv.freed⟩, fun number hglass => ?_⟩
  · rintro elapsed id source passcode rfl quiet hquiet elapsed' source' passcode' s₁ hs₁
    exact step_repeated _ hquiet _ _ _ _ _ _ _ hs₁
  · obtain ⟨rest, houtcomes⟩ := List.head?_eq_some_iff.mp hended
    exact (hinv.slot.of_report houtcomes).1
  · have horderly := hinv.orderly
    rw [hglass] at horderly
    exact horderly.taken_down

/-! ## The number that is typed -/

/-- A number that may be used is spelled by `text`. -/
def Spelled (text : String) : Prop := ∃ passcode, Allowed passcode ∧ Spells text passcode

/-- Each request is for the passcode that the number sent last for its phone
spells. -/
def Told : List (Logged Name Ip) → Prop
  | [] => True
  | .requested r :: log =>
    (Allowed r.passcode ∧
      ∃ text ∈ Logged.lastNumber r.instanceName log, Spells text r.passcode) ∧ Told log
  | _ :: log => Told log

/-- Whatever is shown or will be spells a number that may be used. -/
structure Shown (s : Panel Name Ip) : Prop where
  flow : ∀ name passcode device at_, s.flow = .displayed name passcode device at_ →
    Allowed passcode
  prompts : ∀ name device text, .passcode name device text ∈ s.prompts → Spelled text
  osd : ∀ device text, s.osd = some (.sticky device text) → Spelled text
  told : Told s.log

theorem Shown.moves {ready : Prop} {drawn : ℕ} {s' : Panel Name Ip} (h : Shown s) (hinv : Inv s)
    (hdrawn : Allowed drawn) (hmoves : Moves ready drawn name s s') : Shown s' := by
  have hsent (p : Prompt Name) (hp : ∀ name device text, p = .passcode name device text →
      Spelled text) : ∀ name device text, .passcode name device text ∈ s.prompts ++ [p] →
        Spelled text := by
    intro name device text hmem
    rcases mem_append.mp hmem with hbefore | hlast
    · exact h.prompts _ _ _ hbefore
    · exact hp _ _ _ (mem_singleton.mp hlast).symm
  cases hmoves with
  | stays => exact h
  | withdrawn hflow =>
    refine ⟨?_, hsent _ ?_, h.osd, h.told⟩
    · rintro _ _ _ _ ⟨⟩
    · rintro _ _ _ ⟨⟩
  | hidden hflow =>
    refine ⟨h.flow, hsent _ ?_, h.osd, h.told⟩
    rintro _ _ _ ⟨⟩
  | redeemed hflow hname hready =>
    have hallowed := h.flow _ _ _ _ hflow
    refine ⟨?_, h.prompts, h.osd, ⟨hallowed, _, ?_, spells_formatPasscode hallowed⟩, h.told⟩
    · rintro _ _ _ _ ⟨⟩
    · rw [hname]
      exact (hinv.issued _ _ _ _ hflow).2
  | repeated hflow =>
    refine ⟨h.flow, hsent _ ?_, h.osd, h.told⟩
    rintro _ _ _ ⟨⟩
    exact ⟨_, h.flow _ _ _ _ hflow, spells_formatPasscode (h.flow _ _ _ _ hflow)⟩
  | issued hflow =>
    refine ⟨?_, hsent _ ?_, h.osd, h.told⟩
    · rintro _ _ _ _ ⟨⟩
      exact hdrawn
    · rintro _ _ _ ⟨⟩
      exact ⟨_, hdrawn, spells_formatPasscode hdrawn⟩

theorem Shown.expired (h : Shown s) (hinv : Inv s) : Shown s.expired := by
  rcases expired_cases s with hsame | ⟨name, passcode, device, issued, hflow, -, hlapsed⟩
  · rw [hsame]
    exact h
  · rw [hlapsed]
    exact h.moves hinv (h.flow _ _ _ _ hflow) (.withdrawn hflow : Moves False passcode name s _)

theorem Shown.pump (h : Shown s) : Shown s.pump := by
  have hprompts := h.prompts
  unfold Panel.pump
  split
  · exact h
  · rename_i name device passcode rest hqueue
    rw [hqueue] at hprompts
    refine ⟨h.flow, fun _ _ _ hmem => hprompts _ _ _ (mem_cons_of_mem _ hmem), ?_, h.told⟩
    rintro _ _ ⟨⟩
    exact hprompts _ _ _ mem_cons_self
  · rename_i name rest hqueue
    rw [hqueue] at hprompts
    have hrest : ∀ name device text, .passcode name device text ∈ rest → Spelled text :=
      fun _ _ _ hmem => hprompts _ _ _ (mem_cons_of_mem _ hmem)
    split
    · refine ⟨h.flow, hrest, ?_, h.told⟩
      rintro _ _ ⟨⟩
    · exact ⟨h.flow, hrest, h.osd, h.told⟩

theorem Shown.endAttempt (h : Shown s) (result : Attempt) : Shown (s.endAttempt result) := by
  unfold Panel.endAttempt
  split
  · exact h
  · split
    · exact h
    · cases result with
      | notRemembered => exact ⟨h.flow, h.prompts, h.osd, h.told⟩
      | _ =>
        refine ⟨h.flow, h.prompts, ?_, h.told⟩
        rintro _ _ ⟨⟩

theorem Shown.report (h : Shown s) : Shown s.report := by
  unfold Panel.report
  split
  · exact h
  · rename_i ended rest _
    by_cases hown : s.flow = .commissioning ended.instanceName
    · simp only [Flow.finished, if_pos hown]
      refine ⟨?_, h.prompts, h.osd, h.told⟩
      rintro _ _ _ _ ⟨⟩
    · simp only [Flow.finished, if_neg hown]
      exact ⟨h.flow, h.prompts, h.osd, h.told⟩

theorem Shown.step (h : Shown s) (hinv : Inv s) {x : Step Name App Ip} (hx : x.Drawn) :
    Shown (s.step hostsAny x) := by
  have hlater (elapsed : ℕ) : Inv { s with now := s.now + elapsed } :=
    ⟨hinv.slot, hinv.owned, hinv.owner, hinv.orderly, hinv.behind, hinv.issued, hinv.freed⟩
  have hshown (elapsed : ℕ) : Shown { s with now := s.now + elapsed } :=
    ⟨h.flow, h.prompts, h.osd, h.told⟩
  unfold Panel.step
  split
  · exact h
  · cases x with
    | datagram elapsed id source passcode =>
      obtain ⟨draws, hdraws⟩ := hx
      exact ((hshown elapsed).expired (hlater elapsed)).moves (inv_expired (hlater elapsed))
        (.of_generated hdraws) (dispatch_moves id source passcode)
    | timer elapsed => exact (hshown elapsed).expired (hlater elapsed)
    | pump => exact h.pump
    | attempt result => exact h.endAttempt result
    | report => exact h.report

/-- **A person types what the panel shows.**  A number on the screen is eight
digits in two groups that spell a passcode which may be used, and a request is
for the passcode that the number sent last for its phone spells. -/
theorem typed_as_shown (hostsAny : List App → Bool) (steps : List (Step Name App Ip))
    (hdrawn : ∀ x ∈ steps, x.Drawn) : Told (run hostsAny steps : Panel Name Ip).log ∧
      ∀ number ∈ (run hostsAny steps : Panel Name Ip).glass, Spelled number.2 := by
  have hshown : Shown (run hostsAny steps : Panel Name Ip) := by
    induction steps using List.reverseRecOn with
    | nil => exact ⟨nofun, nofun, nofun, trivial⟩
    | append_singleton steps x ih =>
      rw [run, foldl_concat]
      exact (ih fun y hy => hdrawn y (mem_append_left _ hy)).step (inv_run steps)
        (hdrawn x mem_concat_self)
  refine ⟨hshown.told, fun number hglass => ?_⟩
  unfold glass at hglass
  split at hglass
  · rename_i hosd
    cases hglass
    exact hshown.osd _ _ hosd
  · cases hglass

/-- A phone whose passcode is drawn again, once forbidden, then shown and
redeemed. -/
theorem typed_as_shown_once : let fresh : IdentificationDeclaration ℕ Unit :=
      ⟨1, none, none, [], true, false, false⟩
    let panel : List (Step ℕ Unit Unit) → Panel ℕ Unit := run fun _ => true
    let shown := panel [.datagram 0 fresh () 43, .pump]
    (shown.glass = some (1, "0000-0043") ∧ ∀ number ∈ shown.glass, Spelled number.2) ∧
      Told (panel [.datagram 0 fresh () 43, .pump,
        .datagram 0 { fresh with commissionerPasscodeReady := true } () 43]).log := by
  intro fresh panel shown
  have hdraw : ∃ draws, generatePasscode draws = some 43 := ⟨[11111110, 42], by decide⟩
  refine ⟨⟨by decide, (typed_as_shown (fun _ => true) _ ?_).2⟩,
    (typed_as_shown (fun _ => true) _ ?_).1⟩
  · simp [Step.Drawn, hdraw]
  · simp [Step.Drawn, hdraw]

/-- **However many phones ask**, the slot is held while one attempt or its
report is under way, and there is never another. -/
theorem one_attempt (hostsAny : List App → Bool) (steps : List (Step Name App Ip)) :
    (run hostsAny steps).requests.length + (run hostsAny steps).outcomes.length =
      attempts (run hostsAny steps : Panel Name Ip).flow := by
  have hinv : Inv (run hostsAny steps : Panel Name Ip) := inv_run steps
  have hslot := hinv.slot
  unfold Slot at hslot
  split at hslot
  · rename_i hflow
    rw [hflow]
    obtain ⟨r, hr, houtcomes, -⟩ | ⟨ended, hr, houtcomes, -⟩ := hslot <;> rw [hr, houtcomes] <;> rfl
  · rename_i hflow
    rw [hslot.1, hslot.2]
    cases hcase : (run hostsAny steps).flow with
    | commissioning name => exact (hflow name hcase).elim
    | _ => rfl

/-- A number stays on the glass after its time, until the prompt queue is
served, and is redeemed before it was there. -/
theorem paired_late : let fresh : IdentificationDeclaration ℕ Unit :=
      ⟨1, none, none, [], true, false, false⟩
    let panel : List (Step ℕ Unit Unit) → Panel ℕ Unit := run fun _ => true
    let lapsed := panel [.datagram 0 fresh () 12345679, .pump, .timer passcodeLifetime]
    let ready := { fresh with commissionerPasscodeReady := true }
    let early := panel [.datagram 0 fresh () 12345679, .datagram 0 ready () 43]
    (lapsed.flow = .idle ∧ lapsed.glass = some (1, formatPasscode 12345679)) ∧
      early.flow = .commissioning 1 ∧ early.glass = none := by
  exact ⟨⟨rfl, rfl⟩, rfl, rfl⟩

end Panel

end Castaway.Matter
