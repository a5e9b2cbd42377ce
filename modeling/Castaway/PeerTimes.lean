import Castaway.AirPlay.Video
import Castaway.SponsorBlock.Playback

/-!
# Times that peers write

AirPlay's video requests, the Lounge's commands and its news of playback each
turn a number from the network into a length of time.  `Request.given` is what
such a message says about time, `Request.position` the position that comes of
it, and `answered_iff` says which numbers are answered as they should be.
-/

namespace Castaway

open AirPlay (Text)
open AirPlay.Video (VideoEndpoint Libraries)
open Dial (LoungeCommand)

/-! ## What is said -/

/-- What a message says about time. -/
inductive Given where
  /-- A number of seconds, or what is not one. -/
  | seconds (x : Option F64)
  /-- A share of an item of this length. -/
  | share (x : F64) (total : Option Duration64)
  /-- A playing video, without a time. -/
  | untimed

namespace Given

/-- The position that a share of an item stands for, once its length is known.
-/
def sharePosition (x : F64) (total : Option Duration64) : Option Duration64 :=
  match x with
  | .real q => if h : q ≤ 0 then some .zero else total.map fun d => d.share q (le_of_not_ge h)
  | _ => none

/-- Whether a position, or none, answers what was said.  What is no position is
answered by none; a share of zero need not be, as it says that any start will
do. -/
def AnsweredBy : Given → Option Duration64 → Prop
  | seconds x, p => p = x.bind F64.position
  | share x total, p => p = sharePosition x total ∨ (x = .real 0 ∧ p = none)
  | untimed, p => p = none ∨ p = some .zero

def Fits : Given → Prop
  | seconds x => ∀ s ∈ x, s.Fits
  | share x total => (∃ q, x = .real q) ∨ (total = none ∧ x ≠ .negInf)
  | untimed => True

end Given

/-! ## Answers -/

/-- A number of seconds, if there is one, floored at zero and made a length of
time. -/
def floored : Option F64 → Except Panic (Option Duration64)
  | none => .ok none
  | some s => (Duration64.fromSecs (s.max (.real 0))).map some

theorem floored_answered_iff (x : Option F64) :
    (∃ p, floored x = .ok p ∧ (Given.seconds x).AnsweredBy p) ↔ (Given.seconds x).Fits := by
  cases x with
  | none =>
    constructor
    · intro _ s hs
      cases hs
    · exact fun _ => ⟨none, rfl, rfl⟩
  | some s =>
    have hfits : (Given.seconds (some s)).Fits ↔ s.Fits := by
      simp [Given.Fits]
    rw [hfits, ← F64.fromSecs_floor_iff]
    constructor
    · rintro ⟨p, hp, hanswer⟩
      cases hsecs : Duration64.fromSecs (s.max (.real 0)) with
      | error e =>
        rw [floored, hsecs] at hp
        cases hp
      | ok d =>
        rw [floored, hsecs] at hp
        cases hp
        exact ⟨d, rfl, hanswer.symm⟩
    · rintro ⟨d, hd, hposition⟩
      refine ⟨some d, ?_, hposition.symm⟩
      rw [floored, hd]
      rfl

/-- What comes of a start given as a share: nothing, or what it resolves to. -/
def shared (x : F64) (total : Option Duration64) : Except Panic (Option Duration64) :=
  if x = .real 0 then .ok none else (AirPlay.Video.StartPosition.fraction x).resolve total

theorem shared_real (q : ℚ) (total : Option Duration64) :
    shared (.real q) total =
      .ok (if q = 0 then none else Given.sharePosition (.real q) total) := by
  by_cases hzero : q = 0
  · subst hzero
    rfl
  · have hne : F64.real q ≠ .real 0 := fun h => hzero (F64.real.inj h)
    rw [shared, if_neg hne, if_neg hzero, AirPlay.Video.StartPosition.resolve_fraction,
      Given.sharePosition]
    by_cases hneg : q ≤ 0
    · rw [if_pos (by simpa [F64.le] using hneg), dif_pos hneg]
    · rw [if_neg (by simpa [F64.le] using hneg), dif_neg hneg]
      cases total with
      | none => rfl
      | some total =>
        have hpos : 0 ≤ q := le_of_not_ge hneg
        rw [F64.clamp_real hpos, Option.map_some, Option.getD_some, Duration64.mul_real total hpos]
        rfl

theorem shared_answered_iff (x : F64) (total : Option Duration64) :
    (∃ p, shared x total = .ok p ∧ (Given.share x total).AnsweredBy p) ↔
      (Given.share x total).Fits := by
  cases x with
  | real q =>
    constructor
    · exact fun _ => .inl ⟨q, rfl⟩
    · intro _
      refine ⟨_, shared_real q total, ?_⟩
      split_ifs with hzero
      · exact .inr ⟨congrArg F64.real hzero, rfl⟩
      · exact .inl rfl
  | negInf =>
    constructor
    · rintro ⟨p, hp, hanswer⟩
      cases hp
      rcases hanswer with hnone | hzero
      · cases hnone
      · cases hzero.1
    · rintro (⟨q, hq⟩ | ⟨-, hne⟩)
      · cases hq
      · exact absurd rfl hne
  | posInf =>
    cases total with
    | none => exact ⟨fun _ => .inr ⟨rfl, by simp⟩, fun _ => ⟨none, rfl, .inl rfl⟩⟩
    | some total =>
      constructor
      · rintro ⟨p, hp, hanswer⟩
        have hwhole : shared .posInf (some total) = .ok (some (total.share 1 zero_le_one)) :=
          congrArg (Except.map some) (Duration64.mul_real total zero_le_one)
        rw [hwhole] at hp
        cases hp
        rcases hanswer with hnone | hzero
        · cases hnone
        · cases hzero.1
      · rintro (⟨q, hq⟩ | ⟨hnone, -⟩)
        · cases hq
        · cases hnone
  | nan =>
    cases total with
    | none => exact ⟨fun _ => .inr ⟨rfl, by simp⟩, fun _ => ⟨none, rfl, .inl rfl⟩⟩
    | some total =>
      constructor
      · rintro ⟨p, hp, -⟩
        cases hp
      · rintro (⟨q, hq⟩ | ⟨hnone, -⟩)
        · cases hq
        · cases hnone

namespace Given

def position : Given → Except Panic (Option Duration64)
  | seconds x => floored x
  | share x total => shared x total
  | untimed => floored (some (.real 0))

theorem floored_zero : floored (some (.real 0)) = .ok (some .zero) := rfl

theorem answeredBy_iff (g : Given) : (∃ p, g.position = .ok p ∧ g.AnsweredBy p) ↔ g.Fits := by
  cases g with
  | seconds x => exact floored_answered_iff x
  | share x total => exact shared_answered_iff x total
  | untimed => exact ⟨fun _ => trivial, fun _ => ⟨some .zero, floored_zero, .inr rfl⟩⟩

end Given

/-! ## Messages -/

/-- A message that a peer sends, with the length of the item that an AirPlay
start is resolved against. -/
inductive Request where
  | video (endpoint : VideoEndpoint) (path : Text) (body : Bytes) (total : Option Duration64)
  | lounge (command : LoungeCommand)
  | nowPlaying (command : LoungeCommand)

namespace Request

variable {Uri Volume : Type*} (lib : Libraries Uri) (env : Dial.Env Uri Volume)

/-- The position that a start comes to, if the phone says where to start. -/
def startPosition (total : Option Duration64) :
    Option AirPlay.Video.StartPosition → Except Panic (Option Duration64)
  | none => .ok none
  | some start => start.resolve total

def commandPosition (total : Option Duration64) :
    AirPlay.Video.VideoCommand Uri → Except Panic (Option Duration64)
  | .play _ start => startPosition total start
  | .scrub offset => .ok (some offset)
  | _ => .ok none

def seekPosition : Dial.ControlTxn Uri Volume → Option Duration64
  | .seek offset => some offset
  | _ => none

/-- The position that comes of a message, if one does. -/
def position : Request → Except Panic (Option Duration64)
  | video endpoint path body total =>
    (AirPlay.Video.parse lib endpoint path body).bind fun result =>
      match result with
      | .ok (some command) => commandPosition total command
      | _ => .ok none
  | lounge command => (Dial.toEvent env command).map fun event => event.bind seekPosition
  | nowPlaying command =>
    (SponsorBlock.playbackUpdate command).map fun update => update.map (·.position)

/-- What the fields of a `/play` say. -/
def givenByFields (total : Option Duration64) (fields : AirPlay.Video.Fields) : Given :=
  match fields.seconds, fields.fraction with
  | some s, _ => .seconds (some s)
  | none, some f => .share f total
  | none, none => .seconds none

/-- What a message says about time.  A refused `/play` says nothing. -/
def given : Request → Given
  | video .play _ body total =>
    match AirPlay.Video.playRequest lib body with
    | .ok (_, fields) => givenByFields total fields
    | .error _ => .seconds none
  | video .scrub path _ _ => .seconds ((AirPlay.Video.query path "position").bind F64.parse)
  | video _ _ _ _ => .seconds none
  | lounge command =>
    if command.name = "seekTo" then
      .seconds ((command.payload.get "newTime").bind Json.Value.asF64)
    else .seconds none
  | nowPlaying command =>
    match SponsorBlock.playbackNews command with
    | none => .seconds none
    | some (payload, _) =>
      match payload.lookup "currentTime" with
      | none => .untimed
      | some time => .seconds (SponsorBlock.readTime time)

/-- A message is answered: nothing fails, and the position that comes of it is
the one it gives. -/
def Answered (r : Request) : Prop :=
  ∃ p, r.position lib env = .ok p ∧ (r.given lib).AnsweredBy p

/-- A time in news of playback that reads as no number.  It is taken for the
start. -/
def Unread : Request → Prop
  | nowPlaying command =>
    ∃ payload video time, SponsorBlock.playbackNews command = some (payload, video) ∧
      payload.lookup "currentTime" = some time ∧ SponsorBlock.readTime time = none
  | _ => False

def Fits (r : Request) : Prop := (r.given lib).Fits ∧ ¬ r.Unread

/-! ## Each call -/

-- What every call is unfolded by.
attribute [local simp] position given Given.position floored shared givenByFields
  AirPlay.Video.parse AirPlay.Video.parsePlay AirPlay.Video.startOf Dial.toEvent
  SponsorBlock.playbackUpdate

theorem start_position (total : Option Duration64) (fields : AirPlay.Video.Fields) :
    (AirPlay.Video.startOf fields).bind (startPosition total) =
      (givenByFields total fields).position := by
  obtain ⟨location, fraction, seconds⟩ := fields
  cases seconds with
  | some s =>
    simp only [AirPlay.Video.startOf, givenByFields, Given.position, floored]
    cases Duration64.fromSecs (s.max (.real 0)) with
    | error e | ok d => rfl
  | none =>
    cases fraction with
    | none => rfl
    | some f =>
      by_cases hzero : f = .real 0
      · subst hzero
        rfl
      · have hne : AirPlay.Video.StartPosition.fraction f ≠ .fraction (.real 0) := by
          simpa using hzero
        have hstart : AirPlay.Video.startOf ⟨location, some f, none⟩ =
            .ok (some (.fraction f)) := by
          simp [AirPlay.Video.startOf, Option.filter, hne]
        rw [hstart, givenByFields, Given.position, shared, if_neg hzero]
        rfl

theorem play_position (path : Text) (body : Bytes) (total : Option Duration64) :
    (video .play path body total).position lib env =
      ((video .play path body total).given lib).position := by
  cases hrequest : AirPlay.Video.playRequest lib body with
  | error e =>
    simp only [position, given, AirPlay.Video.parse, AirPlay.Video.parsePlay, hrequest]
    rfl
  | ok request =>
    obtain ⟨source, fields⟩ := request
    simp only [position, given, AirPlay.Video.parse, AirPlay.Video.parsePlay, hrequest]
    rw [← start_position]
    cases AirPlay.Video.startOf fields with
    | error e | ok start => rfl

theorem scrub_position (path : Text) (body : Bytes) (total : Option Duration64) :
    (video .scrub path body total).position lib env =
      ((video .scrub path body total).given lib).position := by
  simp only [position, given, AirPlay.Video.parse, Given.position]
  cases (AirPlay.Video.query path "position").bind F64.parse with
  | none => rfl
  | some s =>
    simp only [floored]
    cases Duration64.fromSecs (s.max (.real 0)) with
    | error e | ok d => rfl

theorem rate_position (path : Text) (body : Bytes) (total : Option Duration64) :
    (video .rate path body total).position lib env = .ok none := by
  simp only [position, AirPlay.Video.parse]
  cases (AirPlay.Video.query path "value").bind F64.parse with
  | none | some value => rfl

theorem setPlaylist_position (payload : Json.Value) :
    (Dial.setPlaylist env payload).bind seekPosition = none := by
  rw [Dial.setPlaylist]
  split_ifs with hempty
  · rfl
  · rfl

/-- Only `seekTo` seeks. -/
theorem toEvent_position {command : LoungeCommand} (h : command.name ≠ "seekTo") :
    ((Dial.toEvent env command).map fun event => event.bind seekPosition) = .ok none := by
  rw [Dial.toEvent, if_neg h]
  split_ifs
  · exact congrArg Except.ok (setPlaylist_position env command.payload)
  · rfl
  · rfl
  · rfl
  · rfl
  · rfl
  · cases (command.payload.get "volume").bind Json.Value.asF64 with
    | none => rfl
    | some vol => cases vol <;> rfl
  · rfl

theorem lounge_position (command : LoungeCommand) :
    (lounge command).position lib env = ((lounge command).given lib).position := by
  by_cases hseek : command.name = "seekTo"
  · simp only [position, given, Dial.toEvent, hseek, if_true, Given.position]
    cases (command.payload.get "newTime").bind Json.Value.asF64 with
    | none => rfl
    | some s =>
      simp only [floored]
      cases Duration64.fromSecs (s.max (.real 0)) with
      | error e | ok d => rfl
  · rw [given, if_neg hseek]
    exact toEvent_position env hseek

theorem nowPlaying_position {command : LoungeCommand} (h : ¬ (nowPlaying command).Unread) :
    (nowPlaying command).position lib env = ((nowPlaying command).given lib).position := by
  cases hnews : SponsorBlock.playbackNews command with
  | none =>
    simp only [position, given, SponsorBlock.playbackUpdate, hnews]
    rfl
  | some news =>
    obtain ⟨payload, video⟩ := news
    simp only [position, given, SponsorBlock.playbackUpdate, hnews]
    cases htime : payload.lookup "currentTime" with
    | none => rfl
    | some time =>
      cases hread : SponsorBlock.readTime time with
      | none => exact absurd ⟨payload, video, time, hnews, htime, hread⟩ h
      | some s =>
        simp only [Option.bind_some, Option.getD_some, hread, Given.position, floored]
        cases Duration64.fromSecs (s.max (.real 0)) with
        | error e | ok d => rfl

/-- What comes of a message is what comes of what it says, unless it is taken
for something else. -/
theorem position_eq {r : Request} (h : ¬ r.Unread) :
    r.position lib env = (r.given lib).position := by
  cases r with
  | lounge command => exact lounge_position lib env command
  | nowPlaying command => exact nowPlaying_position lib env h
  | video endpoint path body total =>
    cases endpoint with
    | play => exact play_position lib env path body total
    | scrub => exact scrub_position lib env path body total
    | rate => exact rate_position lib env path body total
    | stop | playbackInfo | action | reverse => rfl

/-- A time that reads as no number comes out as the start, though nothing was
said. -/
theorem not_answered_of_unread {r : Request} (h : r.Unread) : ¬ r.Answered lib env := by
  cases r with
  | video endpoint path body total | lounge command => exact h.elim
  | nowPlaying command =>
    obtain ⟨payload, video, time, hnews, htime, hread⟩ := h
    rintro ⟨p, hp, hanswer⟩
    have hgiven : (nowPlaying command).given lib = .seconds none := by
      simp only [given, hnews, htime, hread]
    have hstart : (nowPlaying command).position lib env = .ok (some .zero) := by
      simp only [position, SponsorBlock.playbackUpdate, hnews, htime, hread, Option.bind_some,
        Option.getD_none]
      rfl
    rw [hstart] at hp
    cases hp
    rw [hgiven] at hanswer
    cases hanswer

/-- A message is answered just when the time it gives is a position that a
`Duration` reaches, or a share that is a number, or one whose item has no length
yet. -/
theorem answered_iff (r : Request) : r.Answered lib env ↔ r.Fits lib := by
  by_cases hunread : r.Unread
  · constructor
    · exact fun h => absurd h (not_answered_of_unread lib env hunread)
    · exact fun h => absurd hunread h.2
  · rw [Answered, position_eq lib env hunread, Given.answeredBy_iff, Fits, and_iff_left hunread]

/-- `POST /scrub?position=inf` takes the connection down. -/
theorem scrub_to_infinity_unanswered :
    ¬ (video .scrub "/scrub?position=inf".toList [] none).Answered
      (⟨fun _ => .error "no plist", fun _ => .ok ()⟩ : Libraries Unit)
      (⟨fun _ => none, fun _ => ()⟩ : Dial.Env Unit Unit) := by
  rintro ⟨p, hp, -⟩
  have hfails : (video .scrub "/scrub?position=inf".toList [] none).position
      (⟨fun _ => .error "no plist", fun _ => .ok ()⟩ : Libraries Unit)
      (⟨fun _ => none, fun _ => ()⟩ : Dial.Env Unit Unit) = .error .notADuration := by
    decide +kernel
  rw [hfails] at hp
  cases hp

end Request

end Castaway
