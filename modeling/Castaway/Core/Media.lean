import Castaway.Lib.Bytes

/-!
# What the decode path is handed

A receiver that gets compressed media makes it into `EncodedFrame`s, whatever
the protocol it came over.
-/

namespace Castaway.Core

/-- Video codecs the decode path understands. -/
inductive VideoCodec where
  | h264
  | hevc
  | vp8
  | vp9
  deriving DecidableEq, Repr

/-- Audio codecs the decode path understands. -/
inductive AudioCodec where
  | alac
  | aac
  | opus
  | pcm
  | sbc
  | aptX
  | aptXHd
  | ldac
  deriving DecidableEq, Repr

/-- The rate and the channels of decoded audio, neither of them zero. -/
structure AudioFormat where
  sampleRate : ℕ
  channels : ℕ
  sampleRate_pos : 0 < sampleRate
  channels_pos : 0 < channels
  deriving DecidableEq, Repr

def AudioFormat.fromHz (sampleRate channels : ℕ) : Option AudioFormat :=
  if h : 0 < sampleRate ∧ 0 < channels then some ⟨sampleRate, channels, h.1, h.2⟩ else none

/-- One compressed frame.  `pts` is in nanoseconds since the start of the
stream. -/
structure EncodedFrame where
  videoCodec : Option VideoCodec
  audioCodec : Option AudioCodec
  pts : ℕ
  keyframe : Bool
  data : Bytes
  deriving DecidableEq, Repr

end Castaway.Core
