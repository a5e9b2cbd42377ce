import Castaway.AirPlay.SenderClock
import Castaway.Lib.Runs

/-!
# What can happen to an AirPlay audio stream

A datagram is refused, anchors the stream or is an audio packet (`Handled`).  An
audio packet is stale, or it is packaged, and then it is priming, a copy, a
frame that cannot be placed yet or a frame that is handed on (`Packaged`).
Everything about runs goes by these cases.
-/

namespace Castaway.AirPlay

open Castaway.Core (EncodedFrame)

variable {cbc : Block → Block → Bytes → Bytes} {s : AudioStream} {kind : RtpKind} {payload : Bytes}

/-! ## One packet -/

/-- What is remembered once a timestamp that is not remembered is accepted. -/
def Delivered.push (delivered : Delivered) (timestamp : UInt32) : Delivered :=
  if delivered.recent.length = window then ⟨delivered.recent.tail ++ [timestamp]⟩
  else ⟨delivered.recent ++ [timestamp]⟩

theorem accept_of_mem {delivered : Delivered} {timestamp : UInt32}
    (h : timestamp ∈ delivered.recent) : delivered.accept timestamp = (delivered, false) :=
  if_pos h

theorem accept_of_not_mem {delivered : Delivered} {timestamp : UInt32}
    (h : timestamp ∉ delivered.recent) :
    delivered.accept timestamp = (delivered.push timestamp, true) := by
  rw [Delivered.accept, if_neg h, Delivered.push]
  split <;> rfl

namespace AudioStream

def remember (s : AudioStream) (timestamp : UInt32) : AudioStream :=
  { s with delivered := s.delivered.push timestamp }

/-- The ways a packet that is not stale is taken. -/
inductive Packaged (s : AudioStream) (timestamp : UInt32) :
    AudioStream → Except AudioError AudioOutput → Prop where
  | priming : Packaged s timestamp s (.error .priming)
  | duplicate (hmem : timestamp ∈ s.delivered.recent) :
      Packaged s timestamp { s with duplicatesDropped := s.duplicatesDropped + 1 }
        (.error .duplicate)
  | awaiting (hfresh : timestamp ∉ s.delivered.recent) (horigin : s.origin.isSome)
      (hanchor : s.anchor = none) :
      Packaged s timestamp (s.remember timestamp) (.error .awaitingSync)
  | output (hfresh : timestamp ∉ s.delivered.recent) {sequence : UInt16} {frame : EncodedFrame}
      (hplace : ((s.remember timestamp).place timestamp).2 = .ok frame.pts) :
      Packaged s timestamp ((s.remember timestamp).place timestamp).1
        (.ok (.frame sequence timestamp frame))

/-- A timestamp cannot be placed only while a shared origin waits for a sync
packet. -/
theorem place_error {e : AudioError} {timestamp : UInt32} (h : (s.place timestamp).2 = .error e) :
    (s.place timestamp).1 = s ∧ e = .awaitingSync ∧ s.origin.isSome ∧ s.anchor = none := by
  unfold place at h ⊢
  split at h
  · next origin horigin =>
      split at h
      · next hanchor =>
          cases h
          rw [horigin, hanchor]
          exact ⟨rfl, rfl, rfl, rfl⟩
      · cases h
  · cases h

theorem packaged (cbc : Block → Block → Bytes → Bytes) (s : AudioStream) (kind : RtpKind)
    (payload : Bytes) :
    Packaged s kind.timestamp (s.package cbc kind payload).1 (s.package cbc kind payload).2 := by
  unfold package
  split
  · exact .priming
  · by_cases hmem : kind.timestamp ∈ s.delivered.recent
    · rw [accept_of_mem hmem]
      exact .duplicate hmem
    · rw [accept_of_not_mem hmem]
      change Packaged s kind.timestamp (output (s.remember kind.timestamp) cbc kind payload).1
        (output (s.remember kind.timestamp) cbc kind payload).2
      rw [output]
      split
      · next placed e heq =>
          have hfst := congrArg Prod.fst heq
          obtain ⟨hsame, rfl, horigin, hanchor⟩ := place_error (congrArg Prod.snd heq)
          rw [← hfst, hsame]
          exact .awaiting hmem horigin hanchor
      · next placed pts heq =>
          have hfst := congrArg Prod.fst heq
          rw [← hfst]
          exact .output hmem (congrArg Prod.snd heq)

/-- The flush, if there is one, does not make the timestamp stale. -/
def Passes (s : AudioStream) (timestamp : UInt32) : Prop :=
  ∀ start, s.flush.bind (·.rtp) = some start → 0 ≤ serialDiff timestamp start

/-- A packet that passes ends the flush, if that names a timestamp. -/
def caughtUp (s : AudioStream) : AudioStream :=
  { s with flush := if (s.flush.bind (·.rtp)).isSome then none else s.flush }

def resentTimestamp (datagram : Bytes) : Option UInt32 :=
  if datagram.length < resendPrefixLen then none
  else
    match splitRtp (datagram.drop resendPrefixLen) with
    | .error _ => none
    | .ok (kind, _) => if kind.payloadType = RtpType.audio then some kind.timestamp else none

/-- The timestamp of the audio packet that came to the audio socket. -/
def audioTimestamp (datagram : Bytes) : Option UInt32 :=
  match splitRtp datagram with
  | .error _ => none
  | .ok (kind, _) =>
    if kind.payloadType = RtpType.audio then some kind.timestamp
    else if kind.payloadType = RtpType.resendReply then resentTimestamp datagram
    else none

/-- The timestamp of the audio packet that came to the control socket. -/
def controlTimestamp (datagram : Bytes) : Option UInt32 :=
  match splitRtp datagram with
  | .error _ => none
  | .ok (kind, _) =>
    if kind.payloadType = RtpType.resendReply then resentTimestamp datagram else none

/-- The ways a datagram is taken, by the timestamp of the audio packet in it. -/
inductive Handled (s : AudioStream) :
    Option UInt32 → AudioStream → Except AudioError AudioOutput → Prop where
  | refused {e : AudioError} (he : e ≠ .duplicate) : Handled s none s (.error e)
  | synced (sync : Sync) {anchor : SyncAnchor} (hanchor : anchor.senderNs.toNat ≤ anchorLimit) :
      Handled s none { s with anchor := some anchor } (.ok (.sync sync))
  | stale {timestamp : UInt32} (hstale : ¬ s.Passes timestamp) :
      Handled s (some timestamp) { s with staleDropped := s.staleDropped + 1 } (.error .stale)
  | packet {timestamp : UInt32} {s' : AudioStream} {result : Except AudioError AudioOutput}
      (hpasses : s.Passes timestamp) (hpackaged : Packaged s.caughtUp timestamp s' result) :
      Handled s (some timestamp) s' result

theorem handled_audioPacket (cbc : Block → Block → Bytes → Bytes) (s : AudioStream)
    (kind : RtpKind) (payload : Bytes) :
    Handled s (some kind.timestamp) (s.audioPacket cbc kind payload).1
      (s.audioPacket cbc kind payload).2 := by
  unfold audioPacket
  split
  · next start hstart =>
      split
      · next hbehind =>
          exact .stale fun hpasses => absurd (hpasses start hstart)
            (not_le.mpr (half_lt_sub_iff.mp hbehind))
      · next hpasses =>
          have hcaught : { s with flush := none } = s.caughtUp := by
            rw [caughtUp, hstart]
            rfl
          have hlow : s.Passes kind.timestamp := fun start' hstart' => by
            rw [hstart] at hstart'
            cases hstart'
            exact not_lt.mp fun hlow => hpasses (half_lt_sub_iff.mpr hlow)
          refine .packet hlow ?_
          rw [← hcaught]
          exact packaged cbc _ kind payload
  · next hnone =>
      have hcaught : s = s.caughtUp := by
        rw [caughtUp, hnone]
        rfl
      have hlow : s.Passes kind.timestamp := fun start hstart => by
        rw [hnone] at hstart
        cases hstart
      refine .packet hlow ?_
      rw [← hcaught]
      exact packaged cbc s kind payload

theorem splitRtp_error {datagram : Bytes} {e : AudioError} (h : splitRtp datagram = .error e) :
    e ≠ .duplicate := by
  unfold splitRtp at h
  split at h
  · split at h
    · cases h
      exact AudioError.noConfusion
    · split at h
      · cases h
        exact AudioError.noConfusion
      · cases h
  · cases h
    exact AudioError.noConfusion

theorem handled_resendReply (cbc : Block → Block → Bytes → Bytes) (s : AudioStream)
    (datagram : Bytes) : Handled s (resentTimestamp datagram) (s.resendReply cbc datagram).1
      (s.resendReply cbc datagram).2 := by
  unfold resendReply resentTimestamp
  split
  · exact .refused AudioError.noConfusion
  · rcases hsplit : splitRtp (datagram.drop resendPrefixLen) with e | ⟨kind, body⟩
    · exact .refused (splitRtp_error hsplit)
    · dsimp only
      split
      · exact handled_audioPacket cbc s kind body
      · exact .refused AudioError.noConfusion

theorem handled_onAudio (cbc : Block → Block → Bytes → Bytes) (s : AudioStream) (datagram : Bytes) :
    Handled s (audioTimestamp datagram) (s.onAudio cbc datagram).1 (s.onAudio cbc datagram).2 := by
  unfold onAudio audioTimestamp
  rcases hsplit : splitRtp datagram with e | ⟨kind, body⟩
  · exact .refused (splitRtp_error hsplit)
  · dsimp only
    split
    · exact handled_audioPacket cbc s kind body
    · split
      · exact handled_resendReply cbc s datagram
      · exact .refused AudioError.noConfusion

/-- The 1900 epoch comes off the sender's stamp. -/
theorem toNat_sub_epoch_le (nanos epoch : UInt64) (h : nanos.toNat ≤ anchorLimit) :
    (if nanos < epoch then 0 else nanos - epoch).toNat ≤ anchorLimit := by
  split
  · exact Nat.zero_le _
  · next hle =>
      rw [UInt64.toNat_sub_of_le _ _ (UInt64.not_lt.mp hle)]
      omega

theorem handled_onControl (cbc : Block → Block → Bytes → Bytes) (s : AudioStream)
    (datagram : Bytes) : Handled s (controlTimestamp datagram) (s.onControl cbc datagram).1
      (s.onControl cbc datagram).2 := by
  unfold onControl controlTimestamp
  rcases hsplit : splitRtp datagram with e | ⟨kind, body⟩
  · exact .refused (splitRtp_error hsplit)
  · dsimp only
    by_cases hsync : kind.payloadType = RtpType.sync
    · have hcarried : kind.payloadType ≠ RtpType.resendReply := by
        rw [hsync]
        decide
      rw [if_neg hcarried, if_pos hsync]
      split
      · next e he =>
          refine .refused fun hdup => ?_
          rw [parseSync, hdup] at he
          split at he <;> cases he
      · next sync _ => exact .synced sync (toNat_sub_epoch_le _ _ (ntpAsNanos_le _))
    · rw [if_neg hsync]
      split
      · exact handled_resendReply cbc s datagram
      · exact .refused AudioError.noConfusion

/-! ## Runs -/

end AudioStream

/-- What reaches the stream: datagrams of its two sockets, flushes, and the
video plane asking the origin they share. -/
inductive AudioEvent where
  | audio (datagram : Bytes)
  | control (datagram : Bytes)
  | flush (point : FlushPoint)
  | video (senderNs : UInt64)
  deriving DecidableEq, Repr

def AudioEvent.timestamp : AudioEvent → Option UInt32
  | .audio datagram => AudioStream.audioTimestamp datagram
  | .control datagram => AudioStream.controlTimestamp datagram
  | .flush _ | .video _ => none

namespace AudioStream

def step (cbc : Block → Block → Bytes → Bytes) (s : AudioStream) :
    AudioEvent → AudioStream × Option (Except AudioError AudioOutput)
  | .audio datagram => ((s.onAudio cbc datagram).1, some (s.onAudio cbc datagram).2)
  | .control datagram => ((s.onControl cbc datagram).1, some (s.onControl cbc datagram).2)
  | .flush point => (s.flushTo point, none)
  | .video senderNs =>
    ({ s with origin := s.origin.map fun origin => (origin.pts senderNs).1 }, none)

def next (cbc : Block → Block → Bytes → Bytes) (s : AudioStream) (e : AudioEvent) : AudioStream :=
  (s.step cbc e).1

/-- The ways an event is taken. -/
inductive Stepped (s : AudioStream) :
    AudioEvent → AudioStream → Option (Except AudioError AudioOutput) → Prop where
  | audio (datagram : Bytes) {s' : AudioStream} {result : Except AudioError AudioOutput}
      (hhandled : Handled s (audioTimestamp datagram) s' result) :
      Stepped s (.audio datagram) s' (some result)
  | control (datagram : Bytes) {s' : AudioStream} {result : Except AudioError AudioOutput}
      (hhandled : Handled s (controlTimestamp datagram) s' result) :
      Stepped s (.control datagram) s' (some result)
  | flushed (point : FlushPoint) : Stepped s (.flush point) (s.flushTo point) none
  | video (senderNs : UInt64) :
      Stepped s (.video senderNs)
        { s with origin := s.origin.map fun origin => (origin.pts senderNs).1 } none

theorem stepped (cbc : Block → Block → Bytes → Bytes) (s : AudioStream) (e : AudioEvent) :
    Stepped s e (s.step cbc e).1 (s.step cbc e).2 := by
  cases e with
  | audio datagram => exact .audio datagram (handled_onAudio cbc s datagram)
  | control datagram => exact .control datagram (handled_onControl cbc s datagram)
  | flush point => exact .flushed point
  | video senderNs => exact .video senderNs

end AudioStream

end Castaway.AirPlay
