import Castaway.Browser.Host
import Castaway.Lib.Runs

/-!
# Recovery of the browser

One fault slot, one retry and one count of attempts serve two windows and a
process.  What recovery promises is `Responsible`: a window with a page works,
or a rebuild that covers it is scheduled, or it was given up on.  The slot and
the retry are both places where a window's claim to be rebuilt is kept, and the
invariant `Covered` lets a window have it in either.

## Strategy

The claim gets lost in five ways, and `Orderly` rules them out.

1. A fault is dropped because one waits that does not cover it.
2. A fault is taken while a rebuild is scheduled that it does not cover, or uses
   up attempts that faults elsewhere were counted against.
3. Another page is shown while a rebuild of the widget is scheduled: the ladder
   forgives.
4. A process that should be respawned cannot be, or is not yet seen to have
   exited.
5. A page is shown to a process that is gone and is not about to be respawned.

**The headline result** is `recovered_of_orderly`.
-/

namespace Castaway.Browser

/-- Whether a fault or a rebuild is about a window.  The process is about both.
-/
def covers : Option Surface → Surface → Bool
  | none, _ => true
  | some named, surface => named = surface

/-- What an entry of the log does to a window that was up or not. -/
def Entry.leaves (surface : Surface) (up : Bool) : Entry → Bool
  | .sent (.navigate named ..) => up || decide (named = surface)
  | .faulted fault => up && !covers fault surface
  | _ => up

/-- The window was navigated, and there was no fault in it since. -/
def Electron.working (e : Electron) (surface : Surface) : Bool :=
  e.log.foldl (Entry.leaves surface) false

namespace ElectronHost

variable {panel : Panel}

/-- The window has a page to show. -/
def shown (h : ElectronHost panel) : Surface → Bool
  | .widget => h.widgetStarted && h.widget.isSome
  | .page => h.pageUrl.isSome

/-- The fault in the slot. -/
def waitingFault (h : ElectronHost panel) : Option Fault := h.electron.bind Electron.fault

def slotCovers (h : ElectronHost panel) (surface : Surface) : Bool :=
  h.waitingFault.any fun fault => covers fault.surface surface

def retryCovers (h : ElectronHost panel) (surface : Surface) : Bool :=
  h.ladder.retry.any fun retry => covers retry.surface surface

/-- The page was sent to a process that has not faulted since. -/
def works (h : ElectronHost panel) (surface : Surface) : Bool :=
  h.electron.any fun e => e.working surface

def abandoned (h : ElectronHost panel) : Bool :=
  h.electron.any fun e => e.log.any (· = .abandoned)

def connected (h : ElectronHost panel) : Bool := h.electron.any Electron.connected

/-! ## What recovery promises -/

/-- **Somebody is responsible for every window** where no fault waits to be
taken: it works, or a rebuild that covers it is scheduled, or, for the widget,
which stays configured, the process was given up on.  (A page that is given up
on is hidden, so a page that has an URL was shown since.) -/
def Responsible (h : ElectronHost panel) : Prop :=
  h.waitingFault = none → ∀ surface, h.shown surface = true →
    h.works surface = true ∨ h.retryCovers surface = true ∨
      surface = .widget ∧ h.abandoned = true

/-- The host, and where the faults were that count towards giving up. -/
structure Watched (panel : Panel) where
  host : ElectronHost panel
  counted : List (Option Surface) := []

variable (engine : Engine)

def Watched.step (w : Watched panel) (move : Step panel) : Watched panel :=
  let host := w.host.step engine move
  { host
    counted :=
      if host.ladder.attempts = 0 then []
      else if w.host.ladder.attempts < host.ladder.attempts then
        w.counted ++ [w.host.waitingFault.bind Fault.surface]
      else w.counted }

/-- What the ladder decides when `recover` asks it. -/
def decision (h : ElectronHost panel) (now : ℕ) : Recovery := (h.ladder.next h.waitingFault now).2

/-- What recovery promises of one step. -/
structure Recovered (w : Watched panel) (move : Step panel) : Prop where
  responsible : Responsible (w.step engine move).host
  /-- Giving up on the page or the process is announced. -/
  announced : ∀ now exited spawned fault, move = .recover now exited spawned →
    w.host.decision now = .giveUp fault → fault.surface ≠ some .widget →
    w.host.onRecoveryFailed = true → (w.step engine move).host.gaveUp = w.host.gaveUp + 1
  /-- A fault in one window does not cancel a rebuild scheduled for the other.
  -/
  spared : ∀ now exited spawned fault surface other, move = .recover now exited spawned →
    w.host.waitingFault = some fault → fault.surface = some surface → other ≠ surface →
    w.host.retryCovers other = true → (w.step engine move).host.retryCovers other = true
  /-- Nor is it counted when the other window is given up on. -/
  fair : ∀ now exited spawned fault, move = .recover now exited spawned →
    w.host.decision now = .giveUp fault →
    ∀ counted ∈ w.counted, ∀ surface, covers fault.surface surface = true →
      covers counted surface = true

/-! ## The condition -/

/-- A fault that is reported finds the slot empty, or a fault that covers it. -/
def Noticed (h : ElectronHost panel) (surface : Option Surface) : Prop :=
  ∀ e, h.electron = some e → e.reading = true → ∀ fault, e.fault = some fault →
    ∀ window, covers surface window = true → covers fault.surface window = true

def Orderly (w : Watched panel) : Step panel → Prop
  | .message (.loadError surface ..) _ => w.host.Noticed (some surface)
  | .message (.renderGone surface _) _ => w.host.Noticed (some surface)
  | .closed => w.host.Noticed none
  | .start => w.host.connected = true ∨ w.host.slotCovers .widget = true ∨
      w.host.retryCovers .widget = true
  | .command (.navigate url) =>
    (w.host.pageUrl ≠ some url → w.host.shown .widget = true →
      w.host.retryCovers .widget = true → w.host.slotCovers .widget = true) ∧
    (w.host.connected = true ∨ w.host.slotCovers .page = true ∨
      w.host.pageUrl = some url ∧ w.host.retryCovers .page = true)
  | .recover now exited spawned =>
    (∀ fault, w.host.waitingFault = some fault →
      (∀ window, w.host.retryCovers window = true → covers fault.surface window = true) ∧
      (recoveryAttempts ≤ w.host.ladder.attempts → ∀ counted ∈ w.counted, ∀ window,
        covers fault.surface window = true → covers counted window = true)) ∧
    (∀ surface, w.host.decision now = .rebuild surface →
      if w.host.electron.isNone || exited then spawned = true else w.host.connected = true)
  | _ => True

end ElectronHost

/-! ## The log of a process -/

namespace Electron

variable {e : Electron} {surface : Surface}

theorem working_note (entry : Entry) :
    (e.note entry).working surface = entry.leaves surface (e.working surface) := by
  simp [working, note]

/-- A message takes no window down. -/
theorem working_send {msg : ToBrowser} (h : e.working surface = true) :
    (e.send msg).working surface = true := by
  unfold send
  split
  · rw [working_note, h]
    cases msg with
    | _ => rfl
  · exact h

theorem working_sends {msgs : List ToBrowser} (h : e.working surface = true) :
    (e.sends msgs).working surface = true := by
  induction msgs generalizing e with
  | nil => exact h
  | cons msg msgs ih => exact ih (working_send h)

/-- A window that is navigated works, if the message can be written. -/
theorem working_navigate {msg : ToBrowser} {url : String} (hconnected : e.connected = true)
    (hmsg : ElectronHost.Navigates surface url msg) : (e.sends [msg]).working surface = true := by
  obtain ⟨width, height, generation, rfl⟩ := hmsg
  change (e.send _).working surface = true
  unfold send
  rw [if_pos hconnected, working_note]
  simp [Entry.leaves]

theorem fault_sends (msgs : List ToBrowser) : (e.sends msgs).fault = e.fault := by
  rw [sends_eq]
  split
  · rfl
  · rfl

theorem connected_sends (msgs : List ToBrowser) : (e.sends msgs).connected = e.connected := by
  rw [sends_eq]
  split
  · rfl
  · rfl

theorem abandoned_sends {msgs : List ToBrowser} (h : Entry.abandoned ∈ e.log) :
    Entry.abandoned ∈ (e.sends msgs).log := by
  rw [sends_eq]
  split
  · exact List.mem_append_left _ h
  · exact h

end Electron

namespace ElectronHost

variable {panel : Panel} {engine : Engine} {h h' : ElectronHost panel} {surface : Surface}

/-! ## The invariant -/

/-- Somebody is responsible for the window, the fault slot included. -/
def Claimed (h : ElectronHost panel) (surface : Surface) : Prop :=
  h.works surface = true ∨ h.slotCovers surface = true ∨ h.retryCovers surface = true ∨
    surface = .widget ∧ h.abandoned = true

def Covered (h : ElectronHost panel) : Prop := ∀ surface, h.shown surface = true → h.Claimed surface

/-- What is covered is taken care of. -/
theorem Covered.responsible (h₀ : Covered h) : Responsible h := by
  intro hnone surface hshown
  rcases h₀ surface hshown with hworks | hslot | hretry | habandoned
  · exact .inl hworks
  · simp [slotCovers, hnone] at hslot
  · exact .inr (.inl hretry)
  · exact .inr (.inr habandoned)

theorem abandoned_iff : h.abandoned = true ↔ ∃ e, h.electron = some e ∧ .abandoned ∈ e.log := by
  unfold abandoned
  cases h.electron with
  | none | some e => simp

/-- What only sends messages leaves every claim as it was. -/
theorem Claimed.telling {msgs : List ToBrowser} (h₀ : h.Claimed surface) (htold : Says h msgs h')
    (hretry : h.retryCovers surface = true → h'.retryCovers surface = true) :
    h'.Claimed surface := by
  rcases h₀ with hworks | hslot | hcovers | ⟨hwidget, habandoned⟩
  · left
    unfold works at hworks ⊢
    rw [htold.electron]
    cases helectron : h.electron with
    | none =>
      rw [helectron] at hworks
      cases hworks
    | some e =>
      rw [helectron] at hworks
      exact Electron.working_sends hworks
  · refine .inr (.inl ?_)
    have hfault : h'.waitingFault = h.waitingFault := by
      unfold waitingFault
      rw [htold.electron]
      cases h.electron with
      | none => rfl
      | some e => exact Electron.fault_sends msgs
    unfold slotCovers
    rwa [hfault]
  · exact .inr (.inr (.inl (hretry hcovers)))
  · refine .inr (.inr (.inr ⟨hwidget, ?_⟩))
    obtain ⟨e, he, hmem⟩ := abandoned_iff.mp habandoned
    refine abandoned_iff.mpr ⟨e.sends msgs, ?_, Electron.abandoned_sends hmem⟩
    rw [htold.electron, he]
    rfl

/-- A window works once its page is sent. -/
theorem works_of_navigate {msg : ToBrowser} {url : String} (hconnected : h.connected = true)
    (hmsg : Navigates surface url msg) (htold : Says h [msg] h') : h'.works surface = true := by
  unfold works connected at *
  rw [htold.electron]
  cases helectron : h.electron with
  | none =>
    rw [helectron] at hconnected
    cases hconnected
  | some e =>
    rw [helectron] at hconnected
    exact Electron.working_navigate hconnected hmsg

theorem connected_told {msgs : List ToBrowser} (hconnected : h.connected = true)
    (htold : Says h msgs h') : h'.connected = true := by
  unfold connected at *
  rw [htold.electron]
  cases helectron : h.electron with
  | none =>
    rw [helectron] at hconnected
    cases hconnected
  | some e =>
    rw [helectron] at hconnected
    exact (Electron.connected_sends msgs).trans hconnected

/-! ### Showing and hiding -/

theorem ladder_showWidget : h.showWidget.ladder = h.ladder := by
  unfold showWidget
  split
  · rfl
  · rfl

theorem shown_showWidget : h.showWidget.shown = h.shown := by
  unfold showWidget
  split
  · rfl
  · rfl

theorem pageUrl_showWidget : h.showWidget.pageUrl = h.pageUrl := by
  unfold showWidget
  split
  · rfl
  · rfl

theorem ladder_showPage (url : String) :
    (h.showPage url).ladder = if h.pageUrl ≠ some url then h.ladder.forgive else h.ladder := by
  unfold showPage
  split
  · rfl
  · rfl

theorem shown_showPage (url : String) (surface : Surface) :
    (h.showPage url).shown surface = (decide (surface = .page) || h.shown surface) := by
  unfold showPage
  split
  · cases surface with
    | widget | page => rfl
  · cases surface with
    | widget | page => rfl

/-- Showing the widget takes no claim away. -/
theorem Claimed.showWidget (h₀ : h.Claimed surface) : h.showWidget.Claimed surface := by
  cases hwidget : h.widget with
  | none => rwa [showWidget_none hwidget]
  | some url =>
    obtain ⟨msg, -, htold⟩ := says_showWidget hwidget
    refine h₀.telling htold fun hretry => ?_
    unfold retryCovers
    rwa [ladder_showWidget]

theorem Claimed.showPage (h₀ : h.Claimed surface) (url : String)
    (hretry : h.pageUrl ≠ some url → h.retryCovers surface = true →
      h.slotCovers surface = true) : (h.showPage url).Claimed surface := by
  obtain ⟨msg, -, htold⟩ := h.says_showPage url
  by_cases hnew : h.pageUrl ≠ some url
  · have hkept : ({ h with ladder := h.ladder.forgive } : ElectronHost panel).Claimed surface := by
      rcases h₀ with hworks | hslot | hcovers | habandoned
      · exact .inl hworks
      · exact .inr (.inl hslot)
      · exact .inr (.inl (hretry hnew hcovers))
      · exact .inr (.inr (.inr habandoned))
    have hforgiven : Says { h with ladder := h.ladder.forgive } [msg] (h.showPage url) :=
      ⟨htold.electron, htold.processes, htold.composited⟩
    exact hkept.telling hforgiven nofun
  · refine h₀.telling htold fun hcovers => ?_
    unfold retryCovers
    rwa [ladder_showPage, if_neg hnew]

/-- Neither does hiding the page. -/
theorem Claimed.hidePage (h₀ : h.Claimed surface) : h.hidePage.Claimed surface := by
  obtain ⟨msgs, -, htold⟩ := h.says_hidePage
  refine h₀.telling htold fun hretry => ?_
  have hladder : h.hidePage.ladder = h.ladder := by
    unfold ElectronHost.hidePage
    dsimp only
    split
    · rfl
    · rfl
  unfold retryCovers
  rwa [hladder]

theorem shown_hidePage (surface : Surface) :
    h.hidePage.shown surface = (decide (surface = .widget) && h.shown surface) := by
  unfold ElectronHost.hidePage
  dsimp only
  split
  next => cases surface with
    | widget | page => rfl
  next hnone =>
    cases surface with
    | widget => rfl
    | page => exact Bool.eq_false_iff.mpr hnone

/-! ### Messages -/

/-- The slots of the process are left alone, and no window goes down. -/
structure Steady (e e' : Electron) : Prop where
  fault : e'.fault = e.fault
  working : ∀ surface, e.working surface = true → e'.working surface = true
  abandoned : .abandoned ∈ e.log → .abandoned ∈ e'.log

theorem Claimed.steady (h₀ : h.Claimed surface) {e e' : Electron} (he : h.electron = some e)
    (hsteady : Steady e e') (helectron : h'.electron = some e')
    (hladder : h'.ladder = h.ladder) : h'.Claimed surface := by
  rcases h₀ with hworks | hslot | hretry | ⟨hwidget, habandoned⟩
  · left
    unfold works at hworks ⊢
    rw [he] at hworks
    rw [helectron]
    exact hsteady.working surface hworks
  · refine .inr (.inl ?_)
    unfold slotCovers waitingFault at hslot ⊢
    rw [he] at hslot
    rw [helectron]
    change e'.fault.any _ = true
    rw [hsteady.fault]
    exact hslot
  · refine .inr (.inr (.inl ?_))
    unfold retryCovers
    rwa [hladder]
  · refine .inr (.inr (.inr ⟨hwidget, ?_⟩))
    obtain ⟨e₀, he₀, hmem⟩ := abandoned_iff.mp habandoned
    obtain rfl : e = e₀ := Option.some.inj (he.symm.trans he₀)
    exact abandoned_iff.mpr ⟨e', helectron, hsteady.abandoned hmem⟩

theorem Steady.refl (e : Electron) : Steady e e := ⟨rfl, fun _ hworking => hworking, id⟩

theorem Steady.trans {e e' e'' : Electron} (h₁ : Steady e e') (h₂ : Steady e' e'') :
    Steady e e'' where
  fault := h₂.fault.trans h₁.fault
  working := fun surface hworking => h₂.working surface (h₁.working surface hworking)
  abandoned := fun hmem => h₂.abandoned (h₁.abandoned hmem)

theorem steady_send (e : Electron) (msg : ToBrowser) : Steady e (e.send msg) :=
  ⟨Electron.fault_sends [msg], fun _ => Electron.working_send,
    fun hmem => @Electron.abandoned_sends e [msg] hmem⟩

theorem steady_painted (e : Electron) (surface : Surface) (id : ℕ) :
    Steady e (e.note (.painted surface id)) := by
  refine ⟨rfl, ?_, List.mem_append_left _⟩
  intro window hworking
  rw [Electron.working_note]
  exact hworking

/-- A paint changes no claim. -/
theorem steady_handlePaint (e : Electron) (paint : Paint) (fds : ℕ) :
    Steady e (e.handlePaint paint fds) := by
  have hpainted := steady_painted e paint.surface paint.id
  have hfilled (slot : Option PendingPaint) :
      Steady e ((e.note (.painted paint.surface paint.id)).setPending paint.surface slot) :=
    hpainted.trans ⟨rfl, fun _ hworking => hworking, id⟩
  unfold Electron.handlePaint
  dsimp only
  split
  · exact hpainted.trans (steady_send _ _)
  · split
    · exact hpainted
    · split
      · exact (hfilled _).trans (steady_send _ _)
      · exact hfilled _
    · exact hpainted

/-- Neither does a block of audio. -/
theorem steady_handleAudio {e e' : Electron} {block : AudioBlock}
    (h₀ : e.handleAudio engine block = some e') : Steady e e' := by
  unfold Electron.handleAudio at h₀
  split at h₀
  · cases h₀
    exact .refl e
  · split at h₀
    · cases h₀
      exact .refl e
    · split at h₀
      · cases h₀
        exact .refl e
      · split_ifs at h₀
        · cases h₀
          exact .refl e
        · cases h₀
          exact ⟨rfl, fun _ hworking => hworking, id⟩

/-- A fault is noticed: the window it is about can be claimed in the slot. -/
theorem Claimed.report (h₀ : h.Claimed surface) {e : Electron} (he : h.electron = some e)
    (fault : Option Surface) (reason : String)
    (hnoticed : ∀ waiting, e.fault = some waiting → ∀ window, covers fault window = true →
      covers waiting.surface window = true)
    (helectron : h'.electron = some (e.report fault reason)) (hladder : h'.ladder = h.ladder) :
    h'.Claimed surface := by
  have hslot : h'.slotCovers surface =
      ((e.fault.or (some ⟨fault, reason⟩)).any fun waiting => covers waiting.surface surface) := by
    unfold slotCovers waitingFault
    rw [helectron]
    rfl
  by_cases hcovers : covers fault surface = true
  · -- Whatever took the window down, the slot covers it now.
    refine .inr (.inl ?_)
    rw [hslot]
    cases hwaiting : e.fault with
    | none => exact hcovers
    | some waiting => exact hnoticed waiting hwaiting surface hcovers
  · have hcovers : covers fault surface = false := Bool.eq_false_iff.mpr hcovers
    rcases h₀ with hworks | hfull | hretry | ⟨hwidget, habandoned⟩
    · left
      unfold works at hworks ⊢
      rw [he] at hworks
      rw [helectron]
      change (e.report fault reason).working surface = true
      unfold Electron.report
      rw [Electron.working_note]
      have hbefore : e.working surface = true := hworks
      change (e.working surface && !covers fault surface) = true
      rw [hbefore, hcovers]
      rfl
    · refine .inr (.inl ?_)
      rw [hslot]
      unfold slotCovers waitingFault at hfull
      rw [he] at hfull
      change (e.fault.any _) = true at hfull
      cases hwaiting : e.fault with
      | none =>
        rw [hwaiting] at hfull
        cases hfull
      | some waiting =>
        rw [hwaiting] at hfull
        exact hfull
    · refine .inr (.inr (.inl ?_))
      unfold retryCovers
      rwa [hladder]
    · refine .inr (.inr (.inr ⟨hwidget, ?_⟩))
      obtain ⟨e₀, he₀, hmem⟩ := abandoned_iff.mp habandoned
      obtain rfl : e = e₀ := Option.some.inj (he.symm.trans he₀)
      exact abandoned_iff.mpr ⟨_, helectron, List.mem_append_left _ hmem⟩

/-! ### Recovery -/

/-- Nothing to do, a retry that is due, a fault that is taken, or the end. -/
theorem next_cases (ladder : RecoveryLadder) (fault : Option Fault) (now : ℕ) :
    fault = none ∧ ladder.next fault now = (ladder, .idle) ∨
    (∃ retry, fault = none ∧ ladder.retry = some retry ∧
      ladder.next fault now = ({ ladder with retry := none }, .rebuild retry.surface)) ∨
    (∃ taken, fault = some taken ∧ ladder.attempts < recoveryAttempts ∧
      ladder.next fault now = (⟨ladder.attempts + 1, some ⟨now + recoveryDelay, taken.surface⟩⟩,
        .scheduled taken)) ∨ ∃ taken, fault = some taken ∧ recoveryAttempts ≤ ladder.attempts ∧
      ladder.next fault now = (⟨0, none⟩, .giveUp taken) := by
  unfold RecoveryLadder.next
  cases fault with
  | none =>
    cases hretry : ladder.retry with
    | none => exact .inl ⟨rfl, rfl⟩
    | some retry =>
      dsimp only
      split
      · exact .inr (.inl ⟨retry, rfl, rfl, rfl⟩)
      · exact .inl ⟨rfl, rfl⟩
  | some taken =>
    dsimp only
    split
    next hspent => exact .inr (.inr (.inr ⟨taken, rfl, Nat.le_of_lt_succ hspent, rfl⟩))
    next hbudget =>
      exact .inr (.inr (.inl ⟨taken, rfl, Nat.lt_of_succ_le (Nat.le_of_not_lt hbudget), rfl⟩))

theorem works_takeFault (now : ℕ) : (h.takeFault now).works surface = h.works surface := by
  unfold works takeFault
  cases h.electron with
  | none | some e => rfl

theorem abandoned_takeFault (now : ℕ) : (h.takeFault now).abandoned = h.abandoned := by
  unfold abandoned takeFault
  cases h.electron with
  | none | some e => rfl

theorem connected_takeFault (now : ℕ) : (h.takeFault now).connected = h.connected := by
  unfold connected takeFault
  cases h.electron with
  | none | some e => rfl

/-- A window that neither the fault taken nor the rebuild due is about. -/
theorem Claimed.left (h₀ : h.Claimed surface) (now : ℕ) (hslot : h.slotCovers surface = false)
    (hretry : h.retryCovers surface = false) : (h.takeFault now).Claimed surface := by
  rcases h₀ with hworks | hcovers | hcovers | ⟨hwidget, habandoned⟩
  · exact .inl ((works_takeFault now).trans hworks)
  · exact absurd (hslot.symm.trans hcovers) (by decide)
  · exact absurd (hretry.symm.trans hcovers) (by decide)
  · exact .inr (.inr (.inr ⟨hwidget, (abandoned_takeFault now).trans habandoned⟩))

theorem Claimed.announce (h₀ : h.Claimed surface) : h.announce.Claimed surface := by
  unfold ElectronHost.announce
  split
  · exact h₀
  · exact h₀

theorem shown_announce : h.announce.shown = h.shown := by
  unfold ElectronHost.announce
  split
  · rfl
  · rfl

/-- Giving up takes the windows it is about off, or marks the process. -/
theorem Covered.giveUp (named : Option Surface) (helectron : h.electron.isSome = true)
    (hleft : ∀ surface, h.shown surface = true → covers named surface = false →
      h.Claimed surface) : Covered (h.giveUp named) := by
  intro surface hshown
  match named with
  | some .widget =>
    cases surface with
    | widget => simp [ElectronHost.giveUp, shown, setView, send, setSurface] at hshown
    | page =>
      have hpage : h.Claimed .page := hleft .page hshown rfl
      have hdropped : Says h [.blank .widget] (h.giveUp (some .widget)) := ⟨rfl, rfl, rfl⟩
      exact hpage.telling hdropped id
  | some .page =>
    rw [show h.giveUp (some .page) = h.hidePage.announce from rfl, shown_announce,
      shown_hidePage, Bool.and_eq_true, decide_eq_true_eq] at hshown
    obtain ⟨rfl, hwidget⟩ := hshown
    exact (hleft .widget hwidget rfl).hidePage.announce
  | none =>
    have hpage : (h.giveUp none).shown surface = h.hidePage.shown surface := by
      have hshown₀ : (h.giveUp none).shown =
          ({ h.hidePage.setSurface .widget false with views := fun _ => none } :
            ElectronHost panel).announce.shown := rfl
      rw [hshown₀, shown_announce]
      rfl
    rw [hpage, shown_hidePage, Bool.and_eq_true, decide_eq_true_eq] at hshown
    refine .inr (.inr (.inr ⟨hshown.1, ?_⟩))
    obtain ⟨msgs, -, htold⟩ := h.says_hidePage
    obtain ⟨e, he⟩ := Option.isSome_iff_exists.mp helectron
    refine abandoned_iff.mpr ⟨(e.sends msgs).note .abandoned, ?_, ?_⟩
    · have hhidden : h.hidePage.electron = some (e.sends msgs) := by
        rw [htold.electron, he]
        rfl
      have hannounced (h₁ : ElectronHost panel) : h₁.announce.electron = h₁.electron := by
        unfold ElectronHost.announce
        split
        · rfl
        · rfl
      change Option.map _ (ElectronHost.announce _).electron = _
      rw [hannounced]
      change Option.map _ h.hidePage.electron = _
      rw [hhidden]
      rfl
    · exact List.mem_append_right _ (List.mem_singleton.mpr rfl)

theorem shown_showAgain (named : Option Surface) : (h.showAgain named).shown = h.shown := by
  have hwidget : (if named ≠ some .page then h.showWidget else h).shown = h.shown := by
    split
    · exact shown_showWidget
    · rfl
  have hpage : (if named ≠ some .page then h.showWidget else h).pageUrl = h.pageUrl := by
    split
    · exact pageUrl_showWidget
    · rfl
  unfold ElectronHost.showAgain
  dsimp only
  split
  next url hurl =>
    split
    · funext surface
      rw [shown_showPage, hwidget]
      cases surface with
      | widget => rfl
      | page =>
        rw [hpage] at hurl
        simp [shown, hurl]
    · exact hwidget
  · exact hwidget

/-- What is shown again works, or is claimed as before. -/
theorem Claimed.showAgain (h₀ : h.Claimed surface) (named : Option Surface) :
    (h.showAgain named).Claimed surface := by
  have hwidget : (if named ≠ some .page then h.showWidget else h).Claimed surface := by
    split
    · exact h₀.showWidget
    · exact h₀
  unfold ElectronHost.showAgain
  dsimp only
  split
  next url hurl =>
    split
    · exact hwidget.showPage url fun hnew => absurd hurl hnew
    · exact hwidget
  · exact hwidget

/-- A rebuild of a live process navigates the windows it covers. -/
theorem works_showAgain {named : Option Surface} (hconnected : h.connected = true)
    (hcovers : covers named surface = true) (hshown : h.shown surface = true) :
    (h.showAgain named).Claimed surface := by
  cases surface with
  | widget =>
    obtain ⟨url, hurl⟩ := Option.isSome_iff_exists.mp (Bool.and_eq_true .. ▸ hshown).2
    obtain ⟨msg, hmsg, htold⟩ := says_showWidget hurl
    have hworks : h.showWidget.Claimed .widget := .inl (works_of_navigate hconnected hmsg htold)
    have hnamed : named ≠ some .page := by
      rintro rfl
      cases hcovers
    unfold ElectronHost.showAgain
    dsimp only
    rw [if_pos hnamed]
    split
    next url hurl =>
      split
      · exact hworks.showPage url fun hnew => absurd hurl hnew
      · exact hworks
    · exact hworks
  | page =>
    obtain ⟨url, hurl⟩ := Option.isSome_iff_exists.mp hshown
    have hnamed : named ≠ some .widget := by
      rintro rfl
      cases hcovers
    have hbefore : (if named ≠ some .page then h.showWidget else h).pageUrl = some url ∧
        (if named ≠ some .page then h.showWidget else h).connected = true := by
      split
      · refine ⟨pageUrl_showWidget.trans hurl, ?_⟩
        cases hwidget : h.widget with
        | none => rwa [showWidget_none hwidget]
        | some url =>
          obtain ⟨msg, -, htold⟩ := says_showWidget hwidget
          exact connected_told hconnected htold
      · exact ⟨hurl, hconnected⟩
    obtain ⟨msg, hmsg, htold⟩ :=
      says_showPage (if named ≠ some .page then h.showWidget else h) url
    unfold ElectronHost.showAgain
    dsimp only
    rw [hbefore.1]
    dsimp only
    rw [if_pos hnamed]
    exact .inl (works_of_navigate hbefore.2 hmsg htold)

/-- A rebuild that finds a live process, or spawns one, brings back what it
covers. -/
theorem Covered.rebuild (named : Option Surface) (exited spawned : Bool)
    (halive : if h.electron.isNone || exited then spawned = true else h.connected = true)
    (hleft : ∀ surface, h.shown surface = true → covers named surface = false →
      h.Claimed surface) : Covered (h.rebuild named exited spawned) := by
  unfold ElectronHost.rebuild
  split
  next hdead =>
    rw [if_pos hdead] at halive
    dsimp only
    rw [if_pos halive]
    intro surface hshown
    rw [shown_showAgain] at hshown
    exact works_showAgain rfl rfl hshown
  next hlive =>
    rw [if_neg hlive] at halive
    intro surface hshown
    rw [shown_showAgain] at hshown
    by_cases hcovers : covers named surface = true
    · exact works_showAgain halive hcovers hshown
    · exact (hleft surface hshown (Bool.eq_false_iff.mpr hcovers)).showAgain named

/-- A turn of the recovery leaves everything covered. -/
theorem Covered.recover (h₀ : Covered h) (now : ℕ) (exited spawned : Bool)
    (htaken : ∀ fault, h.waitingFault = some fault →
      ∀ window, h.retryCovers window = true → covers fault.surface window = true)
    (halive : ∀ surface, h.decision now = .rebuild surface →
      if h.electron.isNone || exited then spawned = true else h.connected = true) :
    Covered (h.recover now exited spawned) := by
  have hslot {fault : Option Fault} (hfault : h.waitingFault = fault) (window : Surface) :
      h.slotCovers window = fault.any fun fault => covers fault.surface window := by
    unfold slotCovers
    rw [hfault]
  have hladder : (h.takeFault now).ladder = (h.ladder.next h.waitingFault now).1 := rfl
  unfold decision at halive
  unfold ElectronHost.recover
  rcases next_cases h.ladder h.waitingFault now with
    ⟨hfault, hnext⟩ | ⟨retry, hfault, hretry, hnext⟩ | ⟨fault, hfault, -, hnext⟩ |
      ⟨fault, hfault, -, hnext⟩
  · -- Nothing waits and nothing is due.
    rw [show h.electron.bind Electron.fault = h.waitingFault from rfl, hnext]
    intro surface hshown
    have hcovers := hslot hfault surface
    rw [hnext] at hladder
    rcases h₀ surface hshown with hworks | hfull | hretry | ⟨hwidget, habandoned⟩
    · exact .inl ((works_takeFault now).trans hworks)
    · rw [hcovers] at hfull
      cases hfull
    · refine .inr (.inr (.inl ?_))
      unfold retryCovers
      rwa [hladder]
    · exact .inr (.inr (.inr ⟨hwidget, (abandoned_takeFault now).trans habandoned⟩))
  · -- A rebuild has come due.
    rw [hnext] at halive
    rw [show h.electron.bind Electron.fault = h.waitingFault from rfl, hnext]
    refine Covered.rebuild _ _ _ ?_ ?_
    · have hlive := halive retry.surface rfl
      rw [connected_takeFault]
      unfold takeFault
      simpa using hlive
    · intro surface hshown hcovers
      refine (h₀ surface hshown).left now ((hslot hfault surface).trans rfl) ?_
      unfold retryCovers
      rw [hretry]
      exact hcovers
  · -- A fault is taken: the rebuild scheduled for it covers what the slot did.
    rw [show h.electron.bind Electron.fault = h.waitingFault from rfl, hnext]
    intro surface hshown
    rw [hnext] at hladder
    have hcovers : (h.takeFault now).retryCovers surface = covers fault.surface surface := by
      unfold retryCovers
      rw [hladder]
      rfl
    rcases h₀ surface hshown with hworks | hfull | hretry | ⟨hwidget, habandoned⟩
    · exact .inl ((works_takeFault now).trans hworks)
    · exact .inr (.inr (.inl (hcovers.trans ((hslot hfault surface).symm.trans hfull))))
    · exact .inr (.inr (.inl (hcovers.trans (htaken fault hfault surface hretry))))
    · exact .inr (.inr (.inr ⟨hwidget, (abandoned_takeFault now).trans habandoned⟩))
  · -- The last fault there is room for.
    rw [show h.electron.bind Electron.fault = h.waitingFault from rfl, hnext]
    refine Covered.giveUp _ ?_ ?_
    · unfold waitingFault at hfault
      unfold takeFault
      cases helectron : h.electron with
      | none =>
        rw [helectron] at hfault
        cases hfault
      | some e => rfl
    · intro surface hshown hcovers
      refine (h₀ surface hshown).left now ((hslot hfault surface).trans hcovers) ?_
      refine Bool.eq_false_iff.mpr fun hretry => ?_
      exact absurd (hcovers.symm.trans (htaken fault hfault surface hretry)) (by decide)

/-! ### Every step -/

section

variable (h₀ : Covered h)
include h₀

/-- The reader thread reports what it reads, and takes no window down otherwise.
-/
theorem Covered.message (msg : FromBrowser) (fds : ℕ)
    (hnoticed : ∀ named, (∃ url error, msg = .loadError named url error) ∨
      (∃ reason, msg = .renderGone named reason) → h.Noticed (some named)) :
    Covered (h.step engine (.message msg fds)) := by
  intro surface hshown
  have hclaimed : h.Claimed surface := h₀ surface hshown
  cases he : h.electron with
  | none =>
    have hsame : h.step engine (.message msg fds) = h := by
      simp only [ElectronHost.step, he, Option.map_none]
      rw [← he]
    rwa [hsame]
  | some e =>
    have helectron : (h.step engine (.message msg fds)).electron =
        some (e.read engine msg fds) := by
      simp [ElectronHost.step, he]
    have hsteady (e' : Electron) (heq : e.read engine msg fds = e') (hsteady : Steady e e') :
        (h.step engine (.message msg fds)).Claimed surface :=
      hclaimed.steady he hsteady (heq ▸ helectron) rfl
    by_cases hreading : e.reading = true
    · have hread {e' : Electron} (hhandle : e.handle engine msg fds = some e') :
          e.read engine msg fds = e' := by
        simp [Electron.read, hreading, hhandle]
      cases msg with
      | paint paint => exact hsteady _ (hread rfl) (steady_handlePaint e paint fds)
      | scriptletQuery id url | adblockQuery id url source kind =>
        exact hsteady _ (hread rfl) (steady_send e _)
      | loadError named url error =>
        refine hclaimed.report he (some named) ("load failed: " ++ error) ?_
          (hread rfl ▸ helectron) rfl
        exact hnoticed named (.inl ⟨url, error, rfl⟩) e he hreading
      | renderGone named reason =>
        refine hclaimed.report he (some named) ("render process " ++ reason) ?_
          (hread rfl ▸ helectron) rfl
        exact hnoticed named (.inr ⟨reason, rfl⟩) e he hreading
      | audio block =>
        cases hhandle : e.handle engine (.audio block) fds with
        | none =>
          have hdies : e.read engine (.audio block) fds = { e with reading := false } := by
            simp [Electron.read, hreading, hhandle]
          exact hsteady _ hdies ⟨rfl, fun _ hworking => hworking, id⟩
        | some e' => exact hsteady e' (hread hhandle) (steady_handleAudio hhandle)
      | ready | dropped | noTexture | loadEnd | probeResult | log =>
        exact hsteady e (hread rfl) (.refl e)
    · refine hsteady e ?_ (.refl e)
      simp [Electron.read, hreading]

/-- A socket that closes is a fault of both windows. -/
theorem Covered.closed (hnoticed : h.Noticed none) :
    Covered (h.step engine .closed) := by
  intro surface hshown
  have hclaimed : h.Claimed surface := h₀ surface hshown
  cases he : h.electron with
  | none =>
    have hsame : h.step engine .closed = h := by
      simp only [ElectronHost.step, he, Option.map_none]
      rw [← he]
    rwa [hsame]
  | some e =>
    have helectron : (h.step engine .closed).electron = some e.close := by
      simp [ElectronHost.step, he]
    by_cases hreading : e.reading = true
    · have hclose : e.close = { e with connected := false, reading := false }.report none
          "browser control channel closed" := by
        simp [Electron.close, hreading]
      have hcut : ({ h with electron := some { e with connected := false, reading := false } } :
          ElectronHost panel).Claimed surface :=
        hclaimed.steady he (⟨rfl, fun _ hworking => hworking, id⟩ :
          Steady e { e with connected := false, reading := false }) rfl rfl
      exact hcut.report rfl none _ (hnoticed e he hreading) (hclose ▸ helectron) rfl
    · refine hclaimed.steady he ⟨?_, ?_, ?_⟩ helectron rfl
      · simp [Electron.close, hreading]
      · intro window hworking
        unfold Electron.close
        dsimp only
        rw [if_neg hreading]
        exact hworking
      · intro hmem
        unfold Electron.close
        dsimp only
        rw [if_neg hreading]
        exact hmem

theorem Covered.retire (frame : InFlight) : Covered (h.retire frame) := by
  unfold ElectronHost.retire
  split
  · intro surface hshown
    have hclaimed : h.Claimed surface := h₀ surface hshown
    cases he : h.electron with
    | none =>
      rcases hclaimed with hworks | hslot | hretry | ⟨-, habandoned⟩
      · simp [works, he] at hworks
      · simp [slotCovers, waitingFault, he] at hslot
      · exact .inr (.inr (.inl hretry))
      · simp [abandoned, he] at habandoned
    | some e =>
      refine hclaimed.steady he (?_ : Steady e (if e.serial = frame.serial then
        e.send (.release frame.id) else e)) rfl rfl
      split
      · exact steady_send e _
      · exact .refl e
  · exact h₀

theorem Covered.importFrame (surface : Surface) (outcome : Import) :
    Covered (h.importFrame surface outcome) := by
  unfold ElectronHost.importFrame
  cases he : h.electron with
  | none => exact h₀
  | some e =>
    dsimp only
    cases e.pending surface with
    | none => exact h₀
    | some paint =>
      have htaken : Steady e (e.setPending surface none) := ⟨rfl, fun _ hworking => hworking, id⟩
      have hreleased : Covered { h with
          electron := some ((e.setPending surface none).send (.release paint.id)) } := by
        intro window hshown
        exact (h₀ window hshown).steady he (htaken.trans (steady_send _ _)) rfl rfl
      dsimp only
      split_ifs
      · exact hreleased
      · exact hreleased
      · exact hreleased
      · exact hreleased
      · exact hreleased
      · intro window hshown
        exact (h₀ window hshown).steady he htaken rfl rfl

/-- The widget is sent, or a rebuild will send it. -/
theorem Covered.start (halive : h.connected = true ∨
    h.slotCovers .widget = true ∨ h.retryCovers .widget = true) : Covered h.start := by
  unfold ElectronHost.start
  split
  · exact h₀
  · intro surface hshown
    rw [shown_showWidget] at hshown
    cases surface with
    | page =>
      have hpage : h.Claimed .page := h₀ .page hshown
      have hstarted : ({ h with widgetStarted := true } : ElectronHost panel).Claimed .page := hpage
      exact hstarted.showWidget
    | widget =>
      rcases halive with hconnected | hslot | hretry
      · have hwidget : h.widget.isSome = true := hshown
        obtain ⟨url, hurl⟩ := Option.isSome_iff_exists.mp hwidget
        have hstarted : ({ h with widgetStarted := true } : ElectronHost panel).widget = some url :=
          hurl
        have hreached : ({ h with widgetStarted := true } : ElectronHost panel).connected = true :=
          hconnected
        obtain ⟨msg, hmsg, htold⟩ := says_showWidget hstarted
        exact .inl (works_of_navigate hreached hmsg htold)
      · have hstarted : ({ h with widgetStarted := true } : ElectronHost panel).Claimed .widget :=
          .inr (.inl hslot)
        exact hstarted.showWidget
      · have hstarted : ({ h with widgetStarted := true } : ElectronHost panel).Claimed .widget :=
          .inr (.inr (.inl hretry))
        exact hstarted.showWidget

/-- The page is sent, or a rebuild will send it. -/
theorem Covered.showPage (url : String)
    (hwidget : h.pageUrl ≠ some url → h.shown .widget = true → h.retryCovers .widget = true →
      h.slotCovers .widget = true) (hpage : h.connected = true ∨ h.slotCovers .page = true ∨
      h.pageUrl = some url ∧ h.retryCovers .page = true) : Covered (h.showPage url) := by
  intro surface hshown
  rw [shown_showPage, Bool.or_eq_true, decide_eq_true_eq] at hshown
  cases surface with
  | widget =>
    have hshown : h.shown .widget = true := hshown.resolve_left nofun
    exact (h₀ .widget hshown).showPage url fun hnew => hwidget hnew hshown
  | page =>
    rcases hpage with hconnected | hslot | ⟨hsame, hretry⟩
    · obtain ⟨msg, hmsg, htold⟩ := h.says_showPage url
      exact .inl (works_of_navigate hconnected hmsg htold)
    · have hclaimed : h.Claimed .page := .inr (.inl hslot)
      exact hclaimed.showPage url fun _ _ => hslot
    · have hclaimed : h.Claimed .page := .inr (.inr (.inl hretry))
      exact hclaimed.showPage url fun hnew => absurd hsame hnew

end

/-- **What an orderly step keeps.** -/
theorem Covered.step {w : Watched panel} (h₀ : Covered w.host) (move : Step panel)
    (horderly : Orderly w move) : Covered (w.host.step engine move) := by
  cases move with
  | message msg fds =>
    refine h₀.message msg fds ?_
    rintro named (⟨url, error, rfl⟩ | ⟨reason, rfl⟩)
    · exact horderly
    · exact horderly
  | closed => exact h₀.closed horderly
  | retire frame => exact h₀.retire frame
  | moved state => exact fun surface hshown => h₀ surface hshown
  | resize width height =>
    simp only [ElectronHost.step, ElectronHost.resize]
    split
    · exact h₀
    · exact fun surface hshown => h₀ surface hshown
  | start => exact h₀.start horderly
  | command cmd =>
    cases cmd with
    | navigate url => exact h₀.showPage url horderly.1 horderly.2
    | hide =>
      intro surface hshown
      change w.host.hidePage.shown surface = true at hshown
      rw [shown_hidePage, Bool.and_eq_true] at hshown
      exact (h₀ surface hshown.2).hidePage
    | castPlatform port =>
      intro surface hshown
      exact (h₀ surface hshown).telling (says_send w.host _) id
  | followPanel surface =>
    intro window hshown
    obtain ⟨msgs, -, htold⟩ := w.host.says_followPanel surface
    have hsame : (w.host.followPanel surface).shown = w.host.shown ∧
        (w.host.followPanel surface).ladder = w.host.ladder := by
      unfold followPanel
      dsimp only
      generalize (if w.host.hasPage surface then panel.pageView w.host.panelState surface
        else none) = want
      split
      · exact ⟨rfl, rfl⟩
      · cases want with
        | none | some view => exact ⟨rfl, rfl⟩
    have hbefore : w.host.shown window = true := by
      rw [← hsame.1]
      exact hshown
    refine (h₀ window hbefore).telling htold fun hretry => ?_
    change ((w.host.followPanel surface).ladder.retry.any _) = true
    rw [hsame.2]
    exact hretry
  | recover now exited spawned =>
    exact h₀.recover now exited spawned (fun fault hfault => (horderly.1 fault hfault).1)
      horderly.2
  | importFrame surface outcome => exact h₀.importFrame surface outcome

/-! ## The headline result -/

theorem gaveUp_hidePage : h.hidePage.gaveUp = h.gaveUp ∧
    h.hidePage.onRecoveryFailed = h.onRecoveryFailed := by
  unfold ElectronHost.hidePage
  dsimp only
  split
  · exact ⟨rfl, rfl⟩
  · exact ⟨rfl, rfl⟩

theorem gaveUp_giveUp {named : Option Surface} (hnamed : named ≠ some .widget)
    (hhook : h.onRecoveryFailed = true) : (h.giveUp named).gaveUp = h.gaveUp + 1 := by
  obtain ⟨hgaveUp, hkept⟩ := @gaveUp_hidePage _ h
  have hannounce (h₁ : ElectronHost panel) (hsame : h₁.gaveUp = h.gaveUp)
      (hhook₁ : h₁.onRecoveryFailed = true) : h₁.announce.gaveUp = h.gaveUp + 1 := by
    unfold ElectronHost.announce
    rw [if_pos hhook₁, hsame]
  match named with
  | some .widget => exact absurd rfl hnamed
  | some .page | none => exact hannounce _ hgaveUp (hkept.trans hhook)

/-- **The step lemma**: an orderly step keeps what recovery promises. -/
theorem recovered_step {w : Watched panel} (h₀ : Covered w.host) (move : Step panel)
    (horderly : Orderly w move) : Recovered engine w move where
  responsible := (h₀.step move horderly).responsible
  announced := by
    rintro now exited spawned fault rfl hdecision hsurface hhook
    change (w.host.recover now exited spawned).gaveUp = _
    unfold ElectronHost.recover
    rw [show (w.host.ladder.next (w.host.electron.bind Electron.fault) now).2 = .giveUp fault from
      hdecision]
    exact @gaveUp_giveUp _ (w.host.takeFault now) _ hsurface hhook
  spared := by
    rintro now exited spawned fault surface other rfl hfault hsurface hother hretry
    have hcovers := (horderly.1 fault hfault).1 other hretry
    rw [hsurface] at hcovers
    exact absurd (of_decide_eq_true hcovers).symm hother
  fair := by
    rintro now exited spawned fault rfl hdecision counted hcounted window hcovers
    unfold decision at hdecision
    rcases next_cases w.host.ladder w.host.waitingFault now with
      ⟨-, hnext⟩ | ⟨retry, -, -, hnext⟩ | ⟨taken, -, -, hnext⟩ | ⟨taken, hfault, hspent, hnext⟩
    · rw [hnext] at hdecision
      cases hdecision
    · rw [hnext] at hdecision
      cases hdecision
    · rw [hnext] at hdecision
      cases hdecision
    · rw [hnext] at hdecision
      cases hdecision
      exact (horderly.1 fault hfault).2 hspent counted hcounted window hcovers

theorem covered_new (mixer onRecoveryFailed : Bool) (widget : Option String)
    (panelState : panel.State) : Covered (.new mixer onRecoveryFailed widget panelState) := by
  intro surface hshown
  cases surface with
  | widget | page => cases hshown

/-- **Recovery strands no window** in a run of the host all of whose steps are
orderly: every step keeps every promise of `Recovered`. -/
theorem recovered_of_orderly (mixer onRecoveryFailed : Bool) (widget : Option String)
    (panelState : panel.State) (moves : List (Step panel))
    (horderly : Along (Watched.step engine) Orderly moves
      { host := .new mixer onRecoveryFailed widget panelState }) :
    Along (Watched.step engine) (Recovered engine) moves
      { host := .new mixer onRecoveryFailed widget panelState } :=
  horderly.imp_of_invariant (fun w => Covered w.host)
    (covered_new mixer onRecoveryFailed widget panelState) fun _ move h₀ hmove =>
      ⟨recovered_step h₀ move hmove, h₀.step move hmove⟩

/-! ## Two runs -/

/-- A panel that shows the widget and the cast page side by side. -/
def splitPanel : Panel where
  State := Unit
  pageView := fun _ surface =>
    match surface with
    | .widget => some ⟨⟨0, 0, 640, 480⟩, .browserWidget⟩
    | .page => some ⟨⟨0, 0, 1920, 1080⟩, .browserFullscreen⟩
  setSurface := fun state _ _ => state
  restIfIdle := fun state => state
  roleRect := fun _ size => ⟨0, 0, size.1, size.2⟩

def idleEngine : Engine where
  shouldBlock := fun _ _ _ => false
  injectedScript := fun _ => none
  decodesPcm := fun _ => true
  resamples := fun _ _ => true

def bothShown : List (Step splitPanel) :=
  [.start, .command (.navigate "https://cast.test/")]

/-- The page's renderer dies, and the page is rebuilt. -/
theorem recovered_pageFault : Along (Watched.step idleEngine) (Recovered idleEngine)
      (bothShown ++ [.message (.renderGone .page "crashed") 0, .recover 0 false true,
        .recover 3000 false true])
      { host := .new true true (some "https://clock.test/") () } := by
  refine @recovered_of_orderly splitPanel idleEngine true true (some "https://clock.test/") () _ ?_
  refine ⟨.inl rfl, ⟨fun _ _ => nofun, .inl rfl⟩, ?_, ⟨?_, nofun⟩, ⟨nofun, ?_⟩, trivial⟩
  · rintro e ⟨⟩ - fault ⟨⟩
  · rintro fault ⟨⟩
    exact ⟨fun window => nofun, fun hspent => absurd hspent (by decide)⟩
  · rintro surface ⟨⟩
    rfl

/-- The page's renderer dies while a rebuild of the widget is scheduled, which
is cancelled. -/
theorem unrecovered_bothFaults : ¬ Along (Watched.step idleEngine) (Recovered idleEngine)
      (bothShown ++ [.message (.renderGone .widget "crashed") 0, .recover 0 false true,
        .message (.renderGone .page "crashed") 0, .recover 10 false true])
      { host := .new true true (some "https://clock.test/") () } := by
  rintro ⟨-, -, -, -, -, hlast, -⟩
  have hspared := hlast.spared 10 false true _ .page .widget rfl rfl rfl (by decide) (by decide)
  revert hspared
  decide

end ElectronHost

end Castaway.Browser
