import Mathlib.Algebra.Order.Ring.Nat
import Mathlib.Data.List.Basic

/-!
# The media clock

Where a pulled session has got to, in media time.  The clock is an anchor, what
the master said last and when, and a freeze.  An anchor from audio is a place in
a queue that has not been heard yet: it is read `outputLead` back, and for no
longer than the queue lasts.  Any other anchor, from the first video frame, a
resume or a seek, runs on with the wall.

Durations and instants are nanoseconds, and natural numbers: a media time near
the end of what `Duration` holds is out of the question.
-/

namespace Castaway.Pipeline

/-- How far ahead of the speaker the audio thread may run, 250 ms. -/
def outputLead : ℕ := 250000000

/-- The last thing the master said. -/
structure Anchor where
  media : ℕ
  instant : ℕ
  buffered : Bool
  deriving DecidableEq, Repr

def Anchor.reading (anchor : Anchor) (instant : ℕ) : ℕ :=
  let elapsed := instant - anchor.instant
  if anchor.buffered then
    -- a queue that nobody refills runs dry, and the subtraction saturates
    anchor.media + min elapsed outputLead - outputLead
  else anchor.media + elapsed

/-- Everything the clock knows. -/
structure MediaClock where
  anchor : Option Anchor := none
  paused : Bool := false
  /-- Where it froze, once it has somewhere to. -/
  frozen : Option ℕ := none
  deriving DecidableEq, Repr

namespace MediaClock

def runningAt (clock : MediaClock) (instant : ℕ) : Option ℕ :=
  clock.anchor.map (·.reading instant)

/-- Take a new anchor, and freeze on it if a pause waits for somewhere to land.
-/
def anchorAt (clock : MediaClock) (anchor : Anchor) : MediaClock :=
  let clock := { clock with anchor := some anchor }
  if clock.paused && clock.frozen.isNone then
    { clock with frozen := clock.runningAt anchor.instant }
  else clock

def observeAudioAt (clock : MediaClock) (media instant : ℕ) : MediaClock :=
  clock.anchorAt ⟨media, instant, true⟩

def startVideoMasterAt (clock : MediaClock) (firstFrame instant : ℕ) : MediaClock :=
  if clock.anchor.isNone then clock.anchorAt ⟨firstFrame, instant, false⟩ else clock

def setPausedAt (clock : MediaClock) (paused : Bool) (instant : ℕ) : MediaClock :=
  if clock.paused = paused then clock
  else
    let clock := { clock with paused := paused }
    if paused then { clock with frozen := clock.runningAt instant }
    else match clock.frozen with
      -- a presented position: the pause drained the output
      | some position => { clock with frozen := none, anchor := some ⟨position, instant, false⟩ }
      | none => clock

def seekToAt (clock : MediaClock) (position instant : ℕ) : MediaClock :=
  let clock := { clock with anchor := some ⟨position, instant, false⟩ }
  if clock.paused then { clock with frozen := some position } else clock

def nowAt (clock : MediaClock) (instant : ℕ) : Option ℕ :=
  if clock.paused then clock.frozen else clock.runningAt instant

end MediaClock

/-! ## Calls -/

/-- What changes the clock. -/
inductive Call where
  | observeAudio (media instant : ℕ)
  | startVideoMaster (firstFrame instant : ℕ)
  | setPaused (paused : Bool) (instant : ℕ)
  | seekTo (position instant : ℕ)
  deriving DecidableEq, Repr

namespace Call

def instant : Call → ℕ
  | observeAudio _ instant => instant
  | startVideoMaster _ instant => instant
  | setPaused _ instant => instant
  | seekTo _ instant => instant

def isSeek : Call → Bool
  | seekTo _ _ => true
  | _ => false

def isAudio : Call → Bool
  | observeAudio _ _ => true
  | _ => false

def isResume : Call → Bool
  | setPaused paused _ => !paused
  | _ => false

end Call

def MediaClock.call (clock : MediaClock) : Call → MediaClock
  | .observeAudio media instant => clock.observeAudioAt media instant
  | .startVideoMaster firstFrame instant => clock.startVideoMasterAt firstFrame instant
  | .setPaused paused instant => clock.setPausedAt paused instant
  | .seekTo position instant => clock.seekToAt position instant

end Castaway.Pipeline
