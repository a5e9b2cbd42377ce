import Castaway.Bluetooth.PlayerSettings
import Castaway.Lib.Runs
import Mathlib.Data.List.Perm.Subperm

/-!
# The interrogation of a player

`Interrogation` sets beside a link the questions that left it, as they are read
off its frames, and whether each has had an answer.  A phone answers the
questions as it pleases: in any order, more than once, with a refusal, or with
values that are none.

## Strategy

There is a good course (`Stage`): the listing, then the values of a setting that
has none yet, then the end.  An answer keeps to it exactly if it lists or values
what was asked and brings something (`Progress`); any other makes the link
repeat its question, ask a second one beside it, or take the values for those of
another setting.
-/

namespace Castaway.Bluetooth

open List

inductive Question where
  | settings
  | values (setting : SettingAttribute)
  deriving DecidableEq, Repr

def Question.ofFrame (frame : AvcFrame) : Option Question :=
  frame.vendorPdu.bind fun pdu =>
    if pdu.pduId = 0x11 then some .settings
    else if pdu.pduId = 0x12 then
      (pdu.parameters.head?.bind SettingAttribute.fromId).map Question.values
    else none

/-- The questions among some frames; none of them has had its answer. -/
def questions (sent : List (UInt8 × AvcFrame)) : List (Question × Bool) :=
  (sent.filterMap fun f => Question.ofFrame f.2).map fun q => (q, false)

/-- A response to the question of some number. -/
structure Answer where
  number : ℕ
  ctype : Ctype
  params : Bytes
  deriving DecidableEq

/-- A response to a question reaches the arm of its PDU. -/
def SettingsLink.onAnswer (link : SettingsLink) (question : Question) (ctype : Ctype)
    (params : Bytes) : SettingsLink × List (UInt8 × AvcFrame) :=
  match question with
  | .settings => link.onSettingAttributes ctype params
  | .values _ => link.onSettingValues ctype params

/-- A link, the questions that left it with whether they had an answer, and what
settings the player ever listed. -/
structure Interrogation where
  link : SettingsLink
  asked : List (Question × Bool)
  listed : List SettingAttribute := []
  deriving DecidableEq

namespace Interrogation

def begin (link : SettingsLink) : Interrogation where
  link := link.opened.1
  asked := questions link.opened.2

def heard (i : Interrogation) (a : Answer) : Option Question :=
  if a.ctype.isResponse then (i.asked[a.number]?).map Prod.fst else none

def reply (i : Interrogation) (a : Answer) : SettingsLink × List (UInt8 × AvcFrame) :=
  match i.heard a with
  | none => (i.link, [])
  | some question => i.link.onAnswer question a.ctype a.params

def listing (i : Interrogation) (a : Answer) : List SettingAttribute :=
  if i.heard a = some .settings ∧ a.ctype.isFailure = false then
    match parseSettingAttributes a.params with
    | .ok attributes => attributes.known
    | .error _ => []
  else []

def answer (i : Interrogation) (a : Answer) : Interrogation where
  link := (i.reply a).1
  asked := (if (i.heard a).isSome then i.asked.modify a.number fun q => (q.1, true) else i.asked) ++
    questions (i.reply a).2
  listed := i.listed ++ (i.listing a).filter (· ∉ i.listed)

/-! ## What is wanted of the interrogation -/

/-- The questions are few: none twice, none about a setting that was not listed,
and one about values at a time. -/
structure Counted (asked : List (Question × Bool)) (listed : List SettingAttribute) : Prop where
  once : (asked.map Prod.fst).Nodup
  bounded : asked.length ≤ 1 + listed.length
  inFlight : asked.countP (fun q => q.1 ≠ .settings && !q.2) ≤ 1

/-- And while it is not over, one of them is to be answered. -/
structure Good (i : Interrogation) : Prop where
  counted : Counted i.asked i.listed
  awaited : i.link.query.isOver ∨ ∃ q ∈ i.asked, q.2 = false

/-- The values that an answer puts on record are its own, of the setting that it
was asked about, and once it is over an answer has nothing asked. -/
structure Attributed (i : Interrogation) (a : Answer) : Prop where
  own : ∀ v ∈ (i.reply a).1.settings.values, v ∉ i.link.settings.values →
    i.heard a = some (.values v.setting) ∧
      ∃ values, parseSettingValues v.setting a.params = .ok values ∧ v ∈ values
  ended : i.link.query.isOver → (i.reply a).2 = []

/-- The answer is a refusal; or it can be read and is the first; or it can be
read, and the settings that it lists leave no question; or it cannot be read and
is not the first. -/
def ListingTaken (link : SettingsLink) (a : Answer) : Prop :=
  a.ctype.isFailure ∨
    match parseSettingAttributes a.params with
    | .error _ => link.query ≠ .attributes
    | .ok attributes =>
      match link.query with
      | .attributes | .idle => True
      | .values _ => ({ link.settings with attributes } : PlayerSettings).next = none
      | .settled | .unsupported => attributes.known = []

/-- The answer is to the question in flight, if there is one, and has a value of
ours. -/
def ValuesTaken (link : SettingsLink) (setting : SettingAttribute) (a : Answer) : Prop :=
  match link.query with
  | .values asked =>
    setting = asked ∧ a.ctype.isFailure = false ∧
      ∃ values, parseSettingValues asked a.params = .ok values ∧ values ≠ []
  | .idle | .attributes | .settled | .unsupported => True

/-- The answer brings the interrogation forward, or has no part in it. -/
def Progress (i : Interrogation) (a : Answer) : Prop :=
  match i.heard a with
  | none => True
  | some .settings => ListingTaken i.link a
  | some (.values setting) => ValuesTaken i.link setting a

/-! ## What the link asks -/

end Interrogation

variable {setting : SettingAttribute}

theorem PlayerSettings.next_eq (settings : PlayerSettings) :
    settings.next =
      if settings.repeatValues = [] ∧ .repeat ∈ settings.attributes.known then some .repeat
      else if settings.shuffleValues = [] ∧ .shuffle ∈ settings.attributes.known then some .shuffle
      else none := by
  unfold PlayerSettings.next
  by_cases hrepeat : settings.repeatValues = [] ∧ .repeat ∈ settings.attributes.known
  · simp [hrepeat]
  · by_cases hshuffle : settings.shuffleValues = [] ∧ .shuffle ∈ settings.attributes.known
    · simp [hrepeat, hshuffle]
    · simp [hrepeat, hshuffle]

theorem ofFrame_listSettingValues (setting : SettingAttribute) :
    Question.ofFrame (listSettingValues setting) = some (.values setting) := by
  rw [Question.ofFrame, listSettingValues, vendorPdu_vendorCommand]
  cases setting <;> rfl

theorem questions_current (label label' : UInt8) (known : List SettingAttribute) :
    questions [(label, getCurrentSettings known),
      (label', registerNotification SettingsLink.settingChanged 0)] = [] := by
  have hcurrent : Question.ofFrame (getCurrentSettings known) = none := by
    rw [Question.ofFrame, getCurrentSettings, vendorPdu_vendorCommand]
    rfl
  have hchanges : Question.ofFrame (registerNotification SettingsLink.settingChanged 0) = none := by
    rw [Question.ofFrame, registerNotification, vendorPdu_vendorCommand]
    rfl
  simp [questions, hcurrent, hchanges]

/-- With a setting to ask about, the next question is about it. -/
theorem advance_asks (link : SettingsLink) (h : link.settings.next = some setting) :
    link.advanceSettingsQuery.1.settings = link.settings ∧
      link.advanceSettingsQuery.1.query = .values setting ∧
      questions link.advanceSettingsQuery.2 = [(.values setting, false)] := by
  rw [SettingsLink.advanceSettingsQuery, h]
  refine ⟨rfl, rfl, ?_⟩
  simp [questions, SettingsLink.label, ofFrame_listSettingValues]

theorem advance_settles (link : SettingsLink) (h : link.settings.next = none) :
    link.advanceSettingsQuery.1.settings = link.settings ∧
      link.advanceSettingsQuery.1.query = .settled ∧
      questions link.advanceSettingsQuery.2 = [] ∧
      (link.advanceSettingsQuery.2 = [] ↔ link.settings.attributes.known = []) := by
  rw [SettingsLink.advanceSettingsQuery, h]
  dsimp only
  split
  next hnone => exact ⟨rfl, rfl, rfl, by simp [hnone]⟩
  next hsome => exact ⟨rfl, rfl, questions_current _ _ _, by simp [hsome]⟩

/-! ## What is recorded -/

variable {settings : PlayerSettings} {v w : SettingValue} {values : List SettingValue}
  {params : Bytes}

theorem setting_fromIds {id : UInt8} (h : SettingValue.fromIds setting.id id = some v) :
    v.setting = setting := by
  cases setting
  · change (if id = 0x01 then _ else if id = 0x02 then _ else _) = _ at h
    split at h
    · cases h
      rfl
    · split at h
      · cases h
        rfl
      · cases h
  all_goals
    obtain ⟨_, -, rfl⟩ := Option.map_eq_some_iff.mp h
    rfl

/-- The values of an answer are read as those of one setting. -/
theorem setting_of_parse (h : parseSettingValues setting params = .ok values) (hv : v ∈ values) :
    v.setting = setting := by
  unfold parseSettingValues at h
  cases hids : countedIds "player setting value" params with
  | error e => simp [hids, Except.map] at h
  | ok ids =>
    rw [hids] at h
    simp only [Except.map, Except.ok.injEq] at h
    rw [← h] at hv
    obtain ⟨id, -, hid⟩ := mem_filterMap.mp hv
    exact setting_fromIds hid

def Kept (v : SettingValue) : Prop := v.setting = .repeat ∨ v.setting = .shuffle

theorem mem_recordValue :
    v ∈ (settings.recordValue w).values ↔ v ∈ settings.values ∨ v = w ∧ Kept w := by
  -- a value is added unless it stands there already
  have hadded (hkept : Kept w) (hmem : w ∈ settings.values) :
      v ∈ settings.values ↔ v ∈ settings.values ∨ v = w ∧ Kept w := by
    constructor
    · exact .inl
    · rintro (hv | ⟨rfl, -⟩)
      · exact hv
      · exact hmem
  cases w
  case «repeat» value =>
    rw [PlayerSettings.recordValue]
    split
    next hmem => exact hadded (.inl rfl) (by simp [PlayerSettings.values, hmem])
    next =>
      simp only [PlayerSettings.values, map_append, mem_append, Kept,
        SettingValue.setting, map_cons, map_nil, mem_singleton, true_or, and_true]
      exact or_right_comm
  case shuffle value =>
    rw [PlayerSettings.recordValue]
    split
    next hmem => exact hadded (.inr rfl) (by simp [PlayerSettings.values, hmem])
    next =>
      simp only [PlayerSettings.values, map_append, mem_append, Kept,
        SettingValue.setting, map_cons, map_nil, mem_singleton, or_true, and_true]
      exact or_assoc.symm
  all_goals simp [PlayerSettings.recordValue, Kept, SettingValue.setting]

theorem mem_recordValues :
    v ∈ (settings.recordValues values).values ↔ v ∈ settings.values ∨ v ∈ values ∧ Kept v := by
  unfold PlayerSettings.recordValues
  induction values generalizing settings with
  | nil => simp
  | cons w values ih =>
    rw [foldl_cons, ih, mem_recordValue, mem_cons, or_assoc, or_and_right]
    refine or_congr_right (or_congr_left ?_)
    exact and_congr_right fun h => by rw [h]

theorem attributes_recordValue : (settings.recordValue w).attributes = settings.attributes := by
  cases w
  case «repeat» value =>
    rw [PlayerSettings.recordValue]
    split <;> rfl
  case shuffle value =>
    rw [PlayerSettings.recordValue]
    split <;> rfl
  all_goals rfl

theorem attributes_recordValues : (settings.recordValues values).attributes = settings.attributes :=
  foldl_keeps PlayerSettings.attributes (fun _ _ => attributes_recordValue) _ _

theorem repeatValues_eq_nil_iff :
    settings.repeatValues = [] ↔ ∀ v ∈ settings.values, v.setting ≠ .repeat := by
  constructor
  · intro h v hv
    simp only [PlayerSettings.values, h, map_nil, nil_append, mem_map] at hv
    obtain ⟨_, -, rfl⟩ := hv
    simp [SettingValue.setting]
  · intro h
    refine eq_nil_iff_forall_not_mem.mpr fun value hvalue => ?_
    exact h (.repeat value) (by simp [PlayerSettings.values, hvalue]) rfl

theorem shuffleValues_eq_nil_iff :
    settings.shuffleValues = [] ↔ ∀ v ∈ settings.values, v.setting ≠ .shuffle := by
  constructor
  · intro h v hv
    simp only [PlayerSettings.values, h, map_nil, append_nil, mem_map] at hv
    obtain ⟨_, -, rfl⟩ := hv
    simp [SettingValue.setting]
  · intro h
    refine eq_nil_iff_forall_not_mem.mpr fun value hvalue => ?_
    exact h (.shuffle value) (by simp [PlayerSettings.values, hvalue]) rfl

section

variable (h : settings.next = some setting)
include h

theorem mem_known_of_next :
    setting ∈ settings.attributes.known := by
  rw [PlayerSettings.next_eq] at h
  split at h
  next hrepeat =>
    cases h
    exact hrepeat.2
  next =>
    split at h
    next hshuffle =>
      cases h
      exact hshuffle.2
    next => cases h

theorem kept_of_next :
    setting = .repeat ∨ setting = .shuffle := by
  rw [PlayerSettings.next_eq] at h
  split at h
  · exact .inl (Option.some.inj h).symm
  · split at h
    · exact .inr (Option.some.inj h).symm
    · cases h

/-- The setting that is asked about has no values yet. -/
theorem no_values_of_next (hv : v ∈ settings.values) :
    v.setting ≠ setting := by
  rw [PlayerSettings.next_eq] at h
  split at h
  next hrepeat =>
    cases h
    exact repeatValues_eq_nil_iff.mp hrepeat.1 v hv
  next =>
    split at h
    next hshuffle =>
      cases h
      exact shuffleValues_eq_nil_iff.mp hshuffle.1 v hv
    next => cases h

/-- Values of the setting that was asked about leave the other setting to ask
about, if it is the second. -/
theorem next_recordValues
    (hparse : parseSettingValues setting params = .ok values) (hvalues : values ≠ []) :
    (settings.recordValues values).next = none ∨
      setting = .repeat ∧ (settings.recordValues values).next = some .shuffle := by
  obtain ⟨v, hv⟩ := exists_mem_of_ne_nil values hvalues
  have hsetting := setting_of_parse hparse hv
  rw [PlayerSettings.next_eq (settings.recordValues values), attributes_recordValues]
  rcases kept_of_next h with rfl | rfl
  · have hrecorded : (settings.recordValues values).repeatValues ≠ [] := fun hnil =>
      repeatValues_eq_nil_iff.mp hnil v (mem_recordValues.mpr (.inr ⟨hv, .inl hsetting⟩)) hsetting
    rw [if_neg fun hpending => hrecorded hpending.1]
    split
    · exact .inr ⟨rfl, rfl⟩
    · exact .inl rfl
  · have hrecorded : (settings.recordValues values).shuffleValues ≠ [] := fun hnil =>
      shuffleValues_eq_nil_iff.mp hnil v (mem_recordValues.mpr (.inr ⟨hv, .inr hsetting⟩)) hsetting
    have hrepeat : ¬ ((settings.recordValues values).repeatValues = [] ∧
        .repeat ∈ settings.attributes.known) := by
      rintro ⟨hnil, hlisted⟩
      have hbefore : settings.repeatValues = [] :=
        repeatValues_eq_nil_iff.mpr fun w hw =>
          repeatValues_eq_nil_iff.mp hnil w (mem_recordValues.mpr (.inl hw))
      rw [PlayerSettings.next_eq, if_pos ⟨hbefore, hlisted⟩] at h
      cases h
    rw [if_neg hrepeat, if_neg fun hpending => hrecorded hpending.1]
    exact .inl rfl

end

/-! ## The good course -/

namespace Interrogation

/-- Where an interrogation is that has kept to the good course. -/
inductive Stage (i : Interrogation) : Prop
  | listing (hquery : i.link.query = .attributes) (hasked : i.asked = [(.settings, false)])
      (hlisted : i.listed = [])
  | values (setting : SettingAttribute) (earlier : List (Question × Bool))
      (hquery : i.link.query = .values setting) (hnext : i.link.settings.next = some setting)
      (hasked : i.asked = (.settings, true) :: earlier ++ [(.values setting, false)])
      (hearlier : earlier = [] ∨ earlier = [(.values .repeat, true)] ∧ setting = .shuffle)
      (hlisted : ∀ s answered, (Question.values s, answered) ∈ i.asked → s ∈ i.listed)
      (hknown : i.link.settings.attributes.known ⊆ i.listed)
  | ended (hover : i.link.query.isOver) (hcounted : Counted i.asked i.listed)

variable {i : Interrogation} {a : Answer} {asked earlier : List (Question × Bool)}
  {question : SettingAttribute}

theorem counted_of_listed {listed : List SettingAttribute} (honce : (asked.map Prod.fst).Nodup)
    (hlisted : ∀ s answered, (Question.values s, answered) ∈ asked → s ∈ listed)
    (hinFlight : asked.countP (fun q => q.1 ≠ .settings && !q.2) ≤ 1) :
    Counted asked listed := by
  refine ⟨honce, ?_, hinFlight⟩
  have hsubset : asked.map Prod.fst ⊆ .settings :: listed.map Question.values := by
    intro question hquestion
    obtain ⟨⟨question', answered⟩, hq, rfl⟩ := mem_map.mp hquestion
    cases question' with
    | settings => exact mem_cons_self
    | values s =>
      exact mem_cons_of_mem _ (mem_map_of_mem (hlisted s answered hq))
  have hlength := (honce.subperm hsubset).length_le
  rw [length_map, length_cons, length_map] at hlength
  omega

theorem Stage.good (h : Stage i) : Good i := by
  cases h with
  | listing hquery hasked hlisted =>
    refine ⟨⟨?_, ?_, ?_⟩, .inr ⟨(.settings, false), ?_, rfl⟩⟩
    all_goals simp [hasked]
  | values setting earlier hquery hnext hasked hearlier hlisted hknown =>
    refine ⟨counted_of_listed ?_ hlisted ?_, .inr ⟨(.values setting, false), ?_, rfl⟩⟩
    · rcases hearlier with rfl | ⟨rfl, rfl⟩ <;> simp [hasked]
    · rcases hearlier with rfl | ⟨rfl, rfl⟩ <;> simp [hasked]
    · simp [hasked]
  | ended hover hcounted => exact ⟨hcounted, .inl hover⟩

theorem answer_unheard (h : i.heard a = none) : i.answer a = i := by
  have hreply : i.reply a = (i.link, []) := by rw [reply, h]
  have hlisting : i.listing a = [] := by simp [listing, h]
  simp [answer, h, hreply, hlisting, questions]

theorem map_fst_modify (asked : List (Question × Bool)) (number : ℕ) :
    (asked.modify number fun q => (q.1, true)).map Prod.fst = asked.map Prod.fst := by
  apply ext_getElem?
  intro k
  rw [getElem?_map, getElem?_map, getElem?_modify]
  split <;> cases asked[k]? <;> rfl

theorem Counted.answered {listed more : List SettingAttribute}
    (h : Counted asked listed) (number : ℕ) :
    Counted (asked.modify number fun q => (q.1, true)) (listed ++ more) := by
  have hfst := map_fst_modify asked number
  refine ⟨hfst ▸ h.once, ?_, ?_⟩
  · rw [length_modify, length_append]
    exact h.bounded.trans (by omega)
  · refine le_trans ?_ h.inFlight
    clear h hfst
    induction asked generalizing number with
    | nil => simp
    | cons q asked ih =>
      cases number with
      | zero => simp [countP_cons]
      | succ number =>
        rw [modify_succ_cons, countP_cons, countP_cons]
        exact Nat.add_le_add_right (ih number) _

theorem heard_some {question : Question} (h : i.heard a = some question) :
    ∃ answered, i.asked[a.number]? = some (question, answered) := by
  unfold heard at h
  split at h
  · obtain ⟨⟨question', answered⟩, hq, rfl⟩ := Option.map_eq_some_iff.mp h
    exact ⟨answered, hq⟩
  · cases h

theorem reply_listing (h : i.heard a = some .settings) :
    i.reply a = i.link.onSettingAttributes a.ctype a.params := by
  rw [reply, h]
  rfl

theorem reply_values {setting : SettingAttribute} (h : i.heard a = some (.values setting)) :
    i.reply a = i.link.onSettingValues a.ctype a.params := by
  rw [reply, h]
  rfl

/-- An answer that ends the interrogation, or comes when it is over. -/
theorem stage_over {question : Question} (hheard : i.heard a = some question)
    (hcounted : Counted i.asked i.listed) (hover : (i.reply a).1.query.isOver)
    (hnone : questions (i.reply a).2 = []) : Stage (i.answer a) := by
  refine .ended hover ?_
  have hasked : (i.answer a).asked = i.asked.modify a.number fun q => (q.1, true) := by
    simp [answer, hheard, hnone]
  rw [hasked]
  exact hcounted.answered a.number

theorem reply_listed (hheard : i.heard a = some .settings) (hfailure : a.ctype.isFailure = false)
    {attributes : SettingAttributes} (hparse : parseSettingAttributes a.params = .ok attributes) :
    i.reply a = SettingsLink.advanceSettingsQuery
      { i.link with settings := { i.link.settings with attributes } } := by
  rw [reply_listing hheard, SettingsLink.onSettingAttributes, hfailure, hparse]
  rfl

theorem reply_unread (hheard : i.heard a = some .settings) (hfailure : a.ctype.isFailure = false)
    {e : AudioError} (hparse : parseSettingAttributes a.params = .error e) :
    i.reply a = (i.link, []) := by
  rw [reply_listing hheard, SettingsLink.onSettingAttributes, hfailure, hparse]
  rfl

theorem reply_refused (hheard : i.heard a = some .settings) (hfailure : a.ctype.isFailure) :
    i.reply a = ({ i.link with query := .unsupported }, []) := by
  rw [reply_listing hheard, SettingsLink.onSettingAttributes, if_pos hfailure]

/-- The listing is refused, or the first question follows from it. -/
theorem stage_of_first (h : i.asked = [(.settings, false)]) (hlisted : i.listed = [])
    (hquery : i.link.query = .attributes) (hheard : i.heard a = some .settings)
    (htaken : ListingTaken i.link a) : Stage (i.answer a) := by
  have hcounted : Counted i.asked i.listed := ⟨by simp [h], by simp [h], by simp [h]⟩
  have hnumber : a.number = 0 := by
    obtain ⟨answered, hat⟩ := heard_some hheard
    rw [h] at hat
    exact Nat.lt_one_iff.mp (List.getElem?_eq_some_iff.mp hat).1
  cases hfailure : a.ctype.isFailure with
  | true =>
    have hreply := reply_refused hheard hfailure
    exact stage_over hheard hcounted (by rw [hreply]; rfl) (by rw [hreply]; rfl)
  | false =>
    cases hparse : parseSettingAttributes a.params with
    | error e => simp [ListingTaken, hfailure, hparse, hquery] at htaken
    | ok attributes =>
      have hreply := reply_listed hheard hfailure hparse
      cases hnext : ({ i.link.settings with attributes } : PlayerSettings).next with
      | none =>
        obtain ⟨-, hsettled, hnone, -⟩ := advance_settles
          { i.link with settings := { i.link.settings with attributes } } hnext
        exact stage_over hheard hcounted (by rw [hreply, hsettled]; rfl)
          (by rw [hreply, hnone])
      | some setting =>
        obtain ⟨hsettings, hvalues, hasks⟩ := advance_asks
          { i.link with settings := { i.link.settings with attributes } } hnext
        have hknown : (i.answer a).listed = attributes.known := by
          simp [answer, hlisted, listing, hheard, hfailure, hparse]
        have hasked : (i.answer a).asked = [(.settings, true), (.values setting, false)] := by
          simp [answer, hheard, h, hnumber, hreply, hasks]
        refine .values setting [] ?_ ?_ hasked (.inl rfl) ?_ ?_
        · rw [answer, hreply, hvalues]
        · rw [answer, hreply, hsettings, hnext]
        · intro s answered hmem
          simp only [hasked, mem_cons, Prod.mk.injEq, reduceCtorEq, false_and,
            false_or, not_mem_nil, or_false, Question.values.injEq] at hmem
          rw [hmem.1, hknown]
          exact mem_known_of_next hnext
        · rw [hknown, answer, hreply, hsettings]
          exact List.Subset.refl _

/-- The link after values of the setting that it asked about. -/
theorem reply_valued {setting : SettingAttribute}
    (hheard : i.heard a = some (.values question)) (hquery : i.link.query = .values setting)
    (hfailure : a.ctype.isFailure = false) {values : List SettingValue}
    (hparse : parseSettingValues setting a.params = .ok values) :
    i.reply a = SettingsLink.advanceSettingsQuery
      { i.link with settings := i.link.settings.recordValues values } := by
  rw [reply_values hheard, SettingsLink.onSettingValues, hquery]
  simp only [hfailure, Bool.false_eq_true, if_false, hparse, hquery]

/-- The listing once more, while values are asked for. -/
theorem stage_of_relisted {setting : SettingAttribute}
    (hstage : Stage i) (hquery : i.link.query = .values setting)
    (hasked : i.asked = (.settings, true) :: earlier ++ [(.values setting, false)])
    (hheard : i.heard a = some .settings) (hfirst : a.number = 0)
    (htaken : ListingTaken i.link a) : Stage (i.answer a) := by
  have hcounted := hstage.good.counted
  cases hfailure : a.ctype.isFailure with
  | true =>
    have hreply := reply_refused hheard hfailure
    exact stage_over hheard hcounted (by rw [hreply]; rfl) (by rw [hreply]; rfl)
  | false =>
    cases hparse : parseSettingAttributes a.params with
    | error e =>
      have hreply := reply_unread hheard hfailure hparse
      have hsame : i.answer a = i := by
        have hlisting : i.listing a = [] := by simp [listing, hheard, hfailure, hparse]
        have hmodify : (i.asked.modify a.number fun q => (q.1, true)) = i.asked := by
          rw [hasked, hfirst]
          rfl
        simp [answer, hheard, hreply, hlisting, hmodify, questions]
      rwa [hsame]
    | ok attributes =>
      have hnext : ({ i.link.settings with attributes } : PlayerSettings).next = none := by
        simpa [ListingTaken, hfailure, hparse, hquery] using htaken
      have hreply := reply_listed hheard hfailure hparse
      obtain ⟨-, hsettled, hnone, -⟩ := advance_settles
        { i.link with settings := { i.link.settings with attributes } } hnext
      exact stage_over hheard hcounted (by rw [hreply, hsettled]; rfl) (by rw [hreply, hnone])

/-- Values of the setting that was asked about, and so the next question or the
end. -/
theorem stage_of_valued {setting : SettingAttribute}
    (hstage : Stage i) (hquery : i.link.query = .values setting)
    (hnext : i.link.settings.next = some setting)
    (hasked : i.asked = (.settings, true) :: earlier ++ [(.values setting, false)])
    (hearlier : earlier = [] ∨ earlier = [(.values .repeat, true)] ∧ setting = .shuffle)
    (hlisted : ∀ s answered, (Question.values s, answered) ∈ i.asked → s ∈ i.listed)
    (hknown : i.link.settings.attributes.known ⊆ i.listed)
    (hheard : i.heard a = some (.values setting)) (hfailure : a.ctype.isFailure = false)
    {values : List SettingValue} (hparse : parseSettingValues setting a.params = .ok values)
    (hvalues : values ≠ []) : Stage (i.answer a) := by
  have hreply := reply_valued hheard hquery hfailure hparse
  rcases next_recordValues hnext hparse hvalues with hend | ⟨rfl, hshuffle⟩
  · obtain ⟨-, hsettled, hnone, -⟩ := advance_settles
      { i.link with settings := i.link.settings.recordValues values } hend
    exact stage_over hheard hstage.good.counted (by rw [hreply, hsettled]; rfl)
      (by rw [hreply, hnone])
  · obtain rfl : earlier = [] := by
      rcases hearlier with rfl | ⟨-, hwrong⟩
      · rfl
      · cases hwrong
    obtain ⟨hsettings, hvaluesNext, hasks⟩ := advance_asks
      { i.link with settings := i.link.settings.recordValues values } hshuffle
    have hnumber : a.number = 1 := by
      obtain ⟨answered, hat⟩ := heard_some hheard
      rw [hasked] at hat
      rcases hn : a.number with _ | _ | n
      · simp [hn] at hat
      · rfl
      · simp [hn] at hat
    have hafter : (i.answer a).asked =
        [(.settings, true), (.values .repeat, true), (.values .shuffle, false)] := by
      simp [answer, hheard, hasked, hnumber, hreply, hasks]
    have hmore : (i.answer a).listed = i.listed := by simp [answer, listing, hheard]
    have hsame : (i.answer a).link.settings.attributes = i.link.settings.attributes := by
      rw [answer, hreply, hsettings, attributes_recordValues]
    refine .values .shuffle [(.values .repeat, true)] ?_ ?_ hafter (.inr ⟨rfl, rfl⟩) ?_ ?_
    · rw [answer, hreply, hvaluesNext]
    · rw [answer, hreply, hsettings, hshuffle]
    · intro s answered hmem
      rw [hmore]
      simp only [hafter, mem_cons, Prod.mk.injEq, reduceCtorEq, false_and, false_or,
        not_mem_nil, or_false, Question.values.injEq] at hmem
      rcases hmem with ⟨rfl, -⟩ | ⟨rfl, -⟩
      · exact hlisted .repeat false (by simp [hasked])
      · have hpending := mem_known_of_next hshuffle
        rw [attributes_recordValues] at hpending
        exact hknown hpending
    · rw [hsame, hmore]
      exact hknown

/-- When it is over, nothing brings it back. -/
theorem stage_of_over {question : Question} (hover : i.link.query.isOver)
    (hcounted : Counted i.asked i.listed) (hheard : i.heard a = some question)
    (htaken : question = .settings → ListingTaken i.link a) : Stage (i.answer a) := by
  cases question with
  | values setting =>
    have hreply : i.reply a = (i.link, []) := by
      rw [reply_values hheard, SettingsLink.onSettingValues]
      cases hquery : i.link.query
      all_goals first | rfl | simp [hquery, SettingsQuery.isOver] at hover
    exact stage_over hheard hcounted (by rw [hreply]; exact hover) (by rw [hreply]; rfl)
  | settings =>
    cases hfailure : a.ctype.isFailure with
    | true =>
      have hreply := reply_refused hheard hfailure
      exact stage_over hheard hcounted (by rw [hreply]; rfl) (by rw [hreply]; rfl)
    | false =>
      cases hparse : parseSettingAttributes a.params with
      | error e =>
        have hreply := reply_unread hheard hfailure hparse
        exact stage_over hheard hcounted (by rw [hreply]; exact hover) (by rw [hreply]; rfl)
      | ok attributes =>
        have hempty : attributes.known = [] := by
          have h := htaken rfl
          rw [ListingTaken, hparse, hfailure] at h
          cases hquery : i.link.query
          all_goals simp_all [SettingsQuery.isOver]
        have hreply := reply_listed hheard hfailure hparse
        have hnext : ({ i.link.settings with attributes } : PlayerSettings).next = none := by
          simp [PlayerSettings.next_eq, hempty]
        obtain ⟨-, hsettled, hnone, -⟩ := advance_settles
          { i.link with settings := { i.link.settings with attributes } } hnext
        exact stage_over hheard hcounted (by rw [hreply, hsettled]; rfl)
          (by rw [hreply, hnone])

theorem number_of_listing {setting : SettingAttribute}
    (hasked : i.asked = (.settings, true) :: earlier ++ [(.values setting, false)])
    (hearlier : earlier = [] ∨ earlier = [(.values .repeat, true)] ∧ setting = .shuffle)
    (hheard : i.heard a = some .settings) : a.number = 0 := by
  obtain ⟨answered, hat⟩ := heard_some hheard
  rw [hasked] at hat
  rcases hearlier with rfl | ⟨rfl, -⟩
  · rcases hn : a.number with _ | _ | n
    · rfl
    all_goals simp [hn] at hat
  · rcases hn : a.number with _ | _ | _ | n
    · rfl
    all_goals simp [hn] at hat

/-- An answer that brings the interrogation forward keeps it on the good course.
-/
theorem stage_answer (h : Stage i) (hprogress : Progress i a) : Stage (i.answer a) := by
  cases hheard : i.heard a with
  | none => rwa [answer_unheard hheard]
  | some question =>
    rw [Progress, hheard] at hprogress
    have hstage := h
    cases h with
    | listing hquery hasked hlisted =>
      have hquestion : question = .settings := by
        obtain ⟨answered, hat⟩ := heard_some hheard
        rw [hasked] at hat
        have hmem := mem_of_getElem? hat
        simp only [mem_singleton, Prod.mk.injEq] at hmem
        exact hmem.1
      subst hquestion
      exact stage_of_first hasked hlisted hquery hheard hprogress
    | values setting earlier hquery hnext hasked hearlier hlisted hknown =>
      cases question with
      | settings =>
        have hfirst := number_of_listing hasked hearlier hheard
        exact stage_of_relisted hstage hquery hasked hheard hfirst hprogress
      | values question =>
        dsimp only at hprogress
        rw [ValuesTaken, hquery] at hprogress
        obtain ⟨rfl, hfailure, values, hparse, hvalues⟩ := hprogress
        exact stage_of_valued hstage hquery hnext hasked hearlier hlisted hknown hheard
          hfailure hparse hvalues
    | ended hover hcounted =>
      refine stage_of_over hover hcounted hheard fun hsettings => ?_
      subst hsettings
      exact hprogress

/-! ## Attribution -/

theorem values_advance (link : SettingsLink) :
    link.advanceSettingsQuery.1.settings = link.settings := by
  cases hnext : link.settings.next with
  | none => exact (advance_settles _ hnext).1
  | some setting => exact (advance_asks _ hnext).1

theorem values_listing (hheard : i.heard a = some .settings) :
    (i.reply a).1.settings.values = i.link.settings.values := by
  rw [reply_listing hheard]
  unfold SettingsLink.onSettingAttributes
  split
  · rfl
  · split
    · rw [values_advance]
      rfl
    · rfl

theorem reply_dropped (hheard : i.heard a = some (.values question))
    (hquery : ∀ setting, i.link.query ≠ .values setting) : i.reply a = (i.link, []) := by
  rw [reply_values hheard, SettingsLink.onSettingValues]
  split
  next setting hasked => exact absurd hasked (hquery setting)
  all_goals rfl

theorem attributed_of_progress (h : Progress i a) : Attributed i a := by
  cases hheard : i.heard a with
  | none =>
    have hreply : i.reply a = (i.link, []) := by rw [reply, hheard]
    refine ⟨fun v hv hnew => ?_, fun _ => by rw [hreply]⟩
    rw [hreply] at hv
    exact absurd hv hnew
  | some question =>
    rw [Progress, hheard] at h
    cases question with
    | settings =>
      refine ⟨fun v hv hnew => ?_, fun hover => ?_⟩
      · rw [values_listing hheard] at hv
        exact absurd hv hnew
      · dsimp only at h
        cases hfailure : a.ctype.isFailure with
        | true => rw [reply_refused hheard hfailure]
        | false =>
          cases hparse : parseSettingAttributes a.params with
          | error e => rw [reply_unread hheard hfailure hparse]
          | ok attributes =>
            have hempty : attributes.known = [] := by
              rw [ListingTaken, hparse, hfailure] at h
              cases hquery : i.link.query
              all_goals simp_all [SettingsQuery.isOver]
            rw [reply_listed hheard hfailure hparse]
            refine (advance_settles _ ?_).2.2.2.mpr hempty
            simp [PlayerSettings.next_eq, hempty]
    | values question =>
      dsimp only at h
      by_cases hasked : ∃ setting, i.link.query = .values setting
      · obtain ⟨setting, hquery⟩ := hasked
        rw [ValuesTaken, hquery] at h
        obtain ⟨rfl, hfailure, values, hparse, -⟩ := h
        refine ⟨fun v hv hnew => ?_, fun hover => ?_⟩
        swap
        · simp [hquery, SettingsQuery.isOver] at hover
        rw [reply_valued hheard hquery hfailure hparse, values_advance] at hv
        rcases mem_recordValues.mp hv with hold | ⟨hmem, -⟩
        · exact absurd hold hnew
        · have hsetting := setting_of_parse hparse hmem
          rw [hsetting]
          exact ⟨hheard, values, hparse, hmem⟩
      · have hreply := reply_dropped hheard (not_exists.mp hasked)
        refine ⟨fun v hv hnew => ?_, fun _ => by rw [hreply]⟩
        rw [hreply] at hv
        exact absurd hv hnew

/-! ## Off the good course -/

/-- An unreadable listing leaves the first question answered and nothing to wait
for. -/
theorem not_good_of_unread (hasked : i.asked = [(.settings, false)])
    (hquery : i.link.query = .attributes) (hheard : i.heard a = some .settings)
    (hfailure : a.ctype.isFailure = false) {e : AudioError}
    (hparse : parseSettingAttributes a.params = .error e) : ¬ Good (i.answer a) := by
  have hnumber : a.number = 0 := by
    obtain ⟨answered, hat⟩ := heard_some hheard
    rw [hasked] at hat
    exact Nat.lt_one_iff.mp (List.getElem?_eq_some_iff.mp hat).1
  have hreply := reply_unread hheard hfailure hparse
  have hafter : (i.answer a).asked = [(.settings, true)] := by
    simp [answer, hheard, hasked, hnumber, hreply, questions]
  intro hgood
  rcases hgood.awaited with hover | ⟨q, hq, hopen⟩
  · simp [answer, hreply, hquery, SettingsQuery.isOver] at hover
  · rw [hafter, mem_singleton] at hq
    rw [hq] at hopen
    cases hopen

/-- A second listing has a question asked beside the one in flight. -/
theorem not_good_of_relisted {setting next : SettingAttribute}
    (hasked : i.asked = (.settings, true) :: earlier ++ [(.values setting, false)])
    (hheard : i.heard a = some .settings) (hnumber : a.number = 0)
    (hasks : questions (i.reply a).2 = [(.values next, false)]) : ¬ Good (i.answer a) := by
  have hafter : (i.answer a).asked =
      (.settings, true) :: earlier ++ [(.values setting, false), (.values next, false)] := by
    simp [answer, hheard, hasked, hnumber, hasks]
  intro hgood
  have hinFlight := hgood.counted.inFlight
  rw [hafter, countP_append] at hinFlight
  simp at hinFlight

theorem not_good_of_valueless {setting : SettingAttribute}
    (hasked : (.values setting, false) ∈ i.asked) (hheard : i.heard a = some (.values question))
    (hasks : questions (i.reply a).2 = [(.values setting, false)]) : ¬ Good (i.answer a) := by
  intro hgood
  have honce := hgood.counted.once
  have hfst : (i.answer a).asked.map Prod.fst = i.asked.map Prod.fst ++ [.values setting] := by
    simp [answer, hheard, hasks, map_fst_modify]
  rw [hfst] at honce
  refine (nodup_append.mp honce).2.2 _ ?_ _ (mem_singleton.mpr rfl) rfl
  exact mem_map_of_mem hasked

/-- Values that were asked for another setting are taken for those in question.
-/
theorem misattributed {setting : SettingAttribute}
    (hquery : i.link.query = .values setting) (hnext : i.link.settings.next = some setting)
    (hheard : i.heard a = some (.values question)) (hother : question ≠ setting)
    (hfailure : a.ctype.isFailure = false) {values : List SettingValue}
    (hparse : parseSettingValues setting a.params = .ok values) (hvalues : values ≠ []) :
    ¬ Attributed i a := by
  obtain ⟨v, hv⟩ := exists_mem_of_ne_nil values hvalues
  have hsetting := setting_of_parse hparse hv
  have hkept : Kept v := by
    rw [Kept, hsetting]
    exact kept_of_next hnext
  have hrecorded : v ∈ (i.reply a).1.settings.values := by
    rw [reply_valued hheard hquery hfailure hparse, values_advance]
    exact mem_recordValues.mpr (.inr ⟨hv, hkept⟩)
  intro hattributed
  have hown := (hattributed.own v hrecorded fun hold =>
    no_values_of_next hnext hold hsetting).1
  rw [hheard, hsetting, Option.some.injEq, Question.values.injEq] at hown
  exact hother hown

/-- With nothing recorded the same question is next. -/
theorem asks_again {setting : SettingAttribute}
    (hquery : i.link.query = .values setting) (hnext : i.link.settings.next = some setting)
    (hheard : i.heard a = some (.values question)) (hnothing : a.ctype.isFailure = false → ∀ values,
      parseSettingValues setting a.params = .ok values → values = []) :
    questions (i.reply a).2 = [(.values setting, false)] := by
  have hreply : i.reply a = i.link.advanceSettingsQuery := by
    rw [reply_values hheard, SettingsLink.onSettingValues, hquery]
    dsimp only
    cases hfailure : a.ctype.isFailure with
    | true => simp [← hquery]
    | false =>
      cases hparse : parseSettingValues setting a.params with
      | error e => simp [← hquery]
      | ok values =>
        rw [hnothing hfailure values hparse]
        simp [PlayerSettings.recordValues, ← hquery]
  rw [hreply]
  exact (advance_asks _ hnext).2.2

theorem not_kept_of_values {setting : SettingAttribute}
    (hquery : i.link.query = .values setting) (hnext : i.link.settings.next = some setting)
    (hasked : (.values setting, false) ∈ i.asked) (hheard : i.heard a = some (.values question))
    (hnot : ¬ ValuesTaken i.link question a) : ¬ (Attributed i a ∧ Good (i.answer a)) := by
  rintro ⟨hattributed, hgood⟩
  by_cases hnothing : a.ctype.isFailure = false → ∀ values,
      parseSettingValues setting a.params = .ok values → values = []
  · exact not_good_of_valueless hasked hheard (asks_again hquery hnext hheard hnothing) hgood
  · push Not at hnothing
    obtain ⟨hfailure, values, hparse, hvalues⟩ := hnothing
    by_cases hsame : question = setting
    · apply hnot
      rw [ValuesTaken, hquery]
      exact ⟨hsame, hfailure, values, hparse, hvalues⟩
    · exact misattributed hquery hnext hheard hsame hfailure hparse hvalues hattributed

/-- A listing after the end that has something asked. -/
theorem not_attributed_of_reopened (hover : i.link.query.isOver)
    (hheard : i.heard a = some .settings) (hfailure : a.ctype.isFailure = false)
    {attributes : SettingAttributes} (hparse : parseSettingAttributes a.params = .ok attributes)
    (hsome : attributes.known ≠ []) : ¬ Attributed i a := by
  intro hattributed
  have hsilent := hattributed.ended hover
  rw [reply_listed hheard hfailure hparse] at hsilent
  cases hnext : ({ i.link.settings with attributes } : PlayerSettings).next with
  | none =>
    exact hsome ((advance_settles
      { i.link with settings := { i.link.settings with attributes } } hnext).2.2.2.mp
        hsilent)
  | some setting =>
    have hasks := (advance_asks
      { i.link with settings := { i.link.settings with attributes } } hnext).2.2
    rw [hsilent] at hasks
    cases hasks

theorem not_kept_of_listing (h : Stage i) (hheard : i.heard a = some .settings)
    (hnot : ¬ ListingTaken i.link a) : ¬ (Attributed i a ∧ Good (i.answer a)) := by
  rintro ⟨hattributed, hgood⟩
  have hfailure : a.ctype.isFailure = false := by
    by_contra hrefused
    exact hnot (.inl (by simpa using hrefused))
  cases hparse : parseSettingAttributes a.params with
  | error e =>
    have hfirst : i.link.query = .attributes := by
      by_contra hother
      exact hnot (.inr (by rw [hparse]; exact hother))
    cases h with
    | listing hquery hasked hlisted =>
      exact not_good_of_unread hasked hquery hheard hfailure hparse hgood
    | values setting earlier hquery => simp [hfirst] at hquery
    | ended hover => simp [hfirst, SettingsQuery.isOver] at hover
  | ok attributes =>
    cases h with
    | listing hquery =>
      refine hnot (.inr ?_)
      rw [hparse, hquery]
      trivial
    | values setting earlier hquery hnext hasked hearlier =>
      cases hrelisted : ({ i.link.settings with attributes } : PlayerSettings).next with
      | none =>
        refine hnot (.inr ?_)
        rw [hparse, hquery]
        exact hrelisted
      | some next =>
        have hnumber : a.number = 0 := number_of_listing hasked hearlier hheard
        have hasks : questions (i.reply a).2 = [(.values next, false)] := by
          rw [reply_listed hheard hfailure hparse]
          exact (advance_asks { i.link with settings := { i.link.settings with attributes } }
            hrelisted).2.2
        exact not_good_of_relisted hasked hheard hnumber hasks hgood
    | ended hover =>
      refine not_attributed_of_reopened hover hheard hfailure hparse (fun hempty => ?_)
        hattributed
      refine hnot (.inr ?_)
      rw [hparse]
      cases hquery : i.link.query
      all_goals simp_all [SettingsQuery.isOver]

theorem kept_iff_progress (h : Stage i) : Attributed i a ∧ Good (i.answer a) ↔ Progress i a := by
  refine ⟨fun hkept => ?_, fun hprogress =>
    ⟨attributed_of_progress hprogress, (stage_answer h hprogress).good⟩⟩
  by_contra hnot
  cases hheard : i.heard a with
  | none =>
    apply hnot
    rw [Progress, hheard]
    trivial
  | some question =>
    rw [Progress, hheard] at hnot
    cases question with
    | settings => exact not_kept_of_listing h hheard hnot hkept
    | values question =>
      by_cases hasking : ∃ setting, i.link.query = .values setting
      · obtain ⟨setting, hquery⟩ := hasking
        cases h with
        | listing hother => simp [hquery] at hother
        | values setting' earlier hquery' hnext hasked =>
          exact not_kept_of_values hquery' hnext (by simp [hasked]) hheard hnot hkept
        | ended hover => simp [hquery, SettingsQuery.isOver] at hover
      · apply hnot
        dsimp only
        rw [ValuesTaken]
        split
        next setting hquery => exact absurd ⟨setting, hquery⟩ hasking
        all_goals trivial

/-- Whatever a phone answers, the interrogation ends after few questions and
gives every value to the setting it is of, exactly when the answers bring it
forward. -/
theorem interrogation_ends_iff (link : SettingsLink) (answers : List Answer) :
    (Along answer Attributed answers (begin link) ∧
        ∀ k ≤ answers.length, Good ((answers.take k).foldl answer (begin link))) ↔
      Along answer Progress answers (begin link) := by
  have hstart : Stage (begin link) := .listing rfl rfl rfl
  rw [forall_take_iff, and_left_comm, ← along_and, and_iff_right hstart.good]
  exact along_congr_of_invariant Stage hstart fun i a hstage =>
    ⟨kept_iff_progress hstage, stage_answer hstage⟩

/-- The phone lists repeat, and answers that it has no values for it. -/
def valueless : List Answer := [⟨0, .stable, [1, 0x02]⟩, ⟨1, .stable, [0]⟩]

/-- Repeat is asked about again. -/
theorem asked_again_without_values :
    ¬ ∀ k ≤ valueless.length, Good ((valueless.take k).foldl answer (begin {})) := by
  intro h
  have honce := (h 2 (by decide)).counted.once
  revert honce
  decide

end Interrogation

end Castaway.Bluetooth
