import Castaway.Cast.Window
import Castaway.Lib.Runs

/-!
# The reference points of expansion

A frame id arrives in eight bits and is expanded against the highest one seen.
The parser moves that reference on every packet that parses, before the receiver
has looked where the frame lies, and a frame that the receiver then refuses as
too far has moved it too.

## Strategy

What the receiver needs is that the ids of its window are expanded as they were
sent (`Expands`), and they are as long as the reference is at most 129 past the
checkpoint: the window begins one past the checkpoint and a byte reaches 128
back.  `Near` asks of a datagram that it leave the reference there.  The other
side of the byte is never at risk, because every frame that was delivered has
been seen (`Referenced`).
-/

namespace Castaway.Cast

/-- A byte reaches 128 back from the reference and 127 ahead of it. -/
theorem FrameId.expand_bounds (reference : ℤ) (truncated : UInt8) :
    reference - 128 ≤ FrameId.expand reference truncated ∧
      FrameId.expand reference truncated ≤ reference + 127 := by
  have hmodulus : (2 : ℤ) ^ 8 = 256 := by decide
  unfold FrameId.expand Cast.expand
  simp only [hmodulus]
  split <;> omega

/-! ## What the parser makes of the frame id -/

/-- A datagram that parses as a packet of this stream.  Where the reference
points are does not enter into it. -/
def WellFormed (ssrc : UInt32) (datagram : Bytes) : Prop :=
  ∃ result, ({ senderSsrc := ssrc } : CastRtpStream).parse datagram = .ok result

def frameIdByte (datagram : Bytes) : UInt8 := datagram.getD 13 0

/-- Whether the reference can be read does not depend on the frame. -/
theorem parseReference_against {frameId referenced : ℤ} {isKeyFrame hasReference : Bool}
    {rest after : Bytes}
    (h : parseReference frameId isKeyFrame hasReference rest = .ok (referenced, after))
    (other : ℤ) :
    ∃ referenced', parseReference other isKeyFrame hasReference rest = .ok (referenced', after) := by
  unfold parseReference at h ⊢
  cases hasReference with
  | true =>
    cases rest with
    | nil => cases h
    | cons byte rest =>
      cases h
      exact ⟨_, rfl⟩
  | false =>
    cases isKeyFrame with
    | true | false =>
      cases h
      exact ⟨_, rfl⟩

namespace CastRtpStream

variable {stream stream' : CastRtpStream} {datagram : Bytes} {packet : CastRtpPacket}

/-- Only the expansion reads the reference points: with others the same datagram
parses, to a packet that has its frame id expanded against those. -/
theorem parse_against (h : stream.parse datagram = .ok (packet, stream')) (highest last : ℤ) :
    packet.frameId = FrameId.expand stream.highestFrameId (frameIdByte datagram) ∧
      stream'.highestFrameId = max stream.highestFrameId packet.frameId ∧
      stream'.senderSsrc = stream.senderSsrc ∧
      ∃ result, parse ⟨stream.senderSsrc, highest, last⟩ datagram = .ok result := by
  unfold parse at h ⊢
  split at h
  case h_2 => cases h
  case h_1 =>
    dsimp only at h ⊢
    split at h
    · cases h
    rename_i hfirst
    rw [if_neg hfirst]
    split at h
    · cases h
    rename_i htype
    rw [if_neg htype]
    split at h
    · cases h
    rename_i hssrc
    rw [if_neg hssrc]
    split at h
    · cases h
    rename_i maxPacketId hmax
    split at h
    · cases h
    rename_i hrange
    split at h
    · cases h
    rename_i packetId hid
    obtain ⟨⟨referenced, rest⟩, hreference, h⟩ := bind_eq_ok.mp h
    obtain ⟨⟨delay, payload⟩, hextensions, h⟩ := bind_eq_ok.mp h
    cases h
    refine ⟨rfl, rfl, rfl, ?_⟩
    obtain ⟨referenced', hreference'⟩ := parseReference_against hreference
      (FrameId.expand highest _)
    rw [if_neg hrange, hreference', ok_bind]
    dsimp only
    rw [hextensions]
    exact ⟨_, rfl⟩

end CastRtpStream

/-- A packet of the first frame part with this frame id and nothing else in it.
-/
def barePacket (ssrc : UInt32) (frameId : UInt8) : Bytes :=
  [0x80, 96, 0, 0, 0, 0, 0, 0] ++ beBytes 4 ssrc.toNat ++ [0, frameId, 0, 0, 0, 0]

theorem wellFormed_barePacket (ssrc : UInt32) (frameId : UInt8) :
    WellFormed ssrc (barePacket ssrc frameId) := by
  obtain ⟨b₀, b₁, b₂, b₃, hbytes, hnat⟩ := exists_beBytes_four ssrc.toNat_lt
  have hssrc : UInt32.ofNat (beNat [b₀, b₁, b₂, b₃]) = ssrc := by
    rw [hnat]
    exact UInt32.ofNat_toNat
  have hzero : beNat [0, 0] = 0 := rfl
  have hid : PacketId.new 0 = some .zero := rfl
  cases hparse : ({ senderSsrc := ssrc } : CastRtpStream).parse (barePacket ssrc frameId) with
  | ok result => exact ⟨result, hparse⟩
  | error error =>
    exfalso
    simp only [barePacket, hbytes, List.cons_append, List.nil_append, CastRtpStream.parse, hssrc,
      hzero, hid, ne_eq, not_true_eq_false, if_false] at hparse
    cases hparse

theorem frameIdByte_barePacket (ssrc : UInt32) (frameId : UInt8) :
    frameIdByte (barePacket ssrc frameId) = frameId := by
  obtain ⟨b₀, b₁, b₂, b₃, hbytes, -⟩ := exists_beBytes_four ssrc.toNat_lt
  rw [barePacket, hbytes]
  rfl

namespace CastRtpReceiver

variable {receiver : CastRtpReceiver}

/-! ## What a call moves -/

/-- The parser is left alone, the checkpoint does not go back, and the horizon
goes to `frameId` at most. -/
structure Moved (before after : CastRtpReceiver) (frameId : ℤ) : Prop where
  stream : after.stream = before.stream
  checkpoint : before.checkpoint ≤ after.checkpoint
  latestExpected : after.latestExpected ≤ max before.latestExpected frameId

theorem Moved.refl (frameId : ℤ) : Moved receiver receiver frameId :=
  ⟨rfl, le_rfl, le_max_left _ _⟩

theorem Moved.advanceCheckpoint {after : CastRtpReceiver} {frameId newCheckpoint : ℤ}
    (h : Moved receiver after frameId) (hnew : after.checkpoint ≤ newCheckpoint) :
    Moved receiver (after.advanceCheckpoint newCheckpoint) frameId :=
  ⟨h.stream, h.checkpoint.trans (hnew.trans (runOfComplete_spec after.pending newCheckpoint _).1),
    h.latestExpected⟩

theorem moved_accepted {before : CastRtpReceiver} {packet : CastRtpPacket} {frameId : ℤ}
    (h : Moved before receiver frameId) (collector : FrameCollector) :
    Moved before (receiver.accepted packet collector).1 frameId := by
  have hsame {playoutDelayMs : ℕ} {pictureLoss : Bool} {lastKeyFrame : Option ℤ} :
      Moved before { receiver with playoutDelayMs, pictureLoss, lastKeyFrame } frameId :=
    ⟨h.stream, h.checkpoint, h.latestExpected⟩
  have hnext {after : CastRtpReceiver} (h : Moved before after frameId) :
      Moved before (if packet.frameId = FrameId.next after.checkpoint then
        after.advanceCheckpoint packet.frameId else after) frameId := by
    split
    · rename_i hcheckpoint
      refine h.advanceCheckpoint ?_
      rw [hcheckpoint, FrameId.next]
      exact (Int.lt_succ _).le
    · exact h
  unfold accepted
  dsimp only
  split
  · exact hsame
  · refine hnext ?_
    split <;> exact hsame

theorem moved_collectPacket {before : CastRtpReceiver} {frameId : ℤ}
    (h : Moved before receiver frameId) (packet : CastRtpPacket) :
    Moved before (receiver.collectPacket packet).1 frameId := by
  have hpending {pending : Std.TreeMap ℤ FrameCollector} :
      Moved before { receiver with pending } frameId :=
    ⟨h.stream, h.checkpoint, h.latestExpected⟩
  unfold collectPacket
  dsimp only
  split
  · exact h
  · split
    · exact moved_accepted hpending _
    · exact hpending
    · exact hpending

theorem moved_receivePacket (packet : CastRtpPacket) :
    Moved receiver (receiver.receivePacket packet).1 packet.frameId := by
  unfold receivePacket
  dsimp only
  split
  · exact Moved.refl _
  · split
    · split
      · exact Moved.refl _
      · have hextended : Moved receiver (receiver.extendTo packet.frameId) packet.frameId :=
          ⟨rfl, le_rfl, le_max_right _ _⟩
        exact moved_collectPacket hextended packet
    · exact moved_collectPacket (Moved.refl _) packet

theorem moved_nextFrame (policy : Consume) (frameId : ℤ) :
    Moved receiver (receiver.nextFrame policy).1 frameId := by
  have hsame {pending : Std.TreeMap ℤ FrameCollector} {lastDelivered : ℤ} :
      Moved receiver { receiver with pending, lastDelivered } frameId :=
    ⟨rfl, le_rfl, le_max_left _ _⟩
  unfold nextFrame
  split
  · exact Moved.refl _
  · unfold deliver
    dsimp only
    split
    · exact hsame
    · dsimp only
      split
      · rename_i hpast
        exact hsame.advanceCheckpoint (le_of_lt hpast)
      · exact hsame

/-! ## The reference point and the window -/

/-- The ids of the window are expanded as they were sent: a packet that parses,
and whose byte is that of an id past the checkpoint that the receiver would
still take, is expanded to that id. -/
def Expands (receiver : CastRtpReceiver) : Prop :=
  ∀ (id : ℤ) (datagram : Bytes) (packet : CastRtpPacket) (stream : CastRtpStream),
    receiver.checkpoint < id → id ≤ receiver.lastDelivered + maxUnackedFrames →
    frameIdByte datagram = FrameId.lower8Bits id →
    receiver.stream.parse datagram = .ok (packet, stream) → packet.frameId = id

/-- The id of a datagram that parses, as it is expanded now, is at most 129 past
the checkpoint. -/
def Near (receiver : CastRtpReceiver) : Call → Prop
  | .receive datagram => WellFormed receiver.stream.senderSsrc datagram →
      FrameId.expand receiver.stream.highestFrameId (frameIdByte datagram) ≤
        receiver.checkpoint + 129
  | _ => True

def HasRoom (receiver : CastRtpReceiver) (_ : Call) : Prop :=
  receiver.checkpoint < receiver.lastDelivered + maxUnackedFrames

/-- Every frame of the window has been seen by the parser. -/
structure Referenced (receiver : CastRtpReceiver) : Prop where
  window : receiver.WindowInv
  seen : receiver.latestExpected ≤ receiver.stream.highestFrameId

theorem referenced_new (senderSsrc receiverSsrc : UInt32) :
    (new senderSsrc receiverSsrc).Referenced where
  window := windowInv_new senderSsrc receiverSsrc
  seen := show FrameId.leader ≤ FrameId.first by decide

/-- A frame that the receiver takes in is not ahead of the parser's reference.
-/
theorem Referenced.moved {after : CastRtpReceiver} {frameId : ℤ} (h : receiver.Referenced)
    (hwindow : after.WindowInv) (hmoved : Moved receiver after frameId)
    (hframe : frameId ≤ receiver.stream.highestFrameId) : after.Referenced := by
  refine ⟨hwindow, ?_⟩
  rw [hmoved.stream]
  exact hmoved.latestExpected.trans (max_le h.seen hframe)

/-- A byte reaches 128 back from the reference, and the window begins one past
the checkpoint. -/
theorem Referenced.expands_iff (h : receiver.Referenced) : receiver.Expands ↔
    (receiver.checkpoint < receiver.lastDelivered + maxUnackedFrames →
      receiver.stream.highestFrameId ≤ receiver.checkpoint + 129) := by
  have hdelivered : receiver.lastDelivered ≤ receiver.stream.highestFrameId :=
    h.window.lastDelivered_le.trans (h.window.checkpoint_le.trans h.seen)
  constructor
  · intro hexpands hroom
    by_contra hfar
    have hbyte := frameIdByte_barePacket receiver.stream.senderSsrc
      (FrameId.lower8Bits (receiver.checkpoint + 1))
    obtain ⟨⟨_, stream⟩, hformed⟩ := wellFormed_barePacket receiver.stream.senderSsrc
      (FrameId.lower8Bits (receiver.checkpoint + 1))
    obtain ⟨-, -, -, ⟨⟨packet, stream⟩, hparse⟩⟩ := CastRtpStream.parse_against hformed
      receiver.stream.highestFrameId receiver.stream.lastTimestamp
    have hid := hexpands _ _ _ _ (Int.lt_succ _) (Int.add_one_le_of_lt hroom) hbyte hparse
    rw [(CastRtpStream.parse_against hparse 0 0).1, hbyte] at hid
    change FrameId.expand receiver.stream.highestFrameId _ = receiver.checkpoint + 1 at hid
    have hreach := (FrameId.expand_bounds receiver.stream.highestFrameId
      (FrameId.lower8Bits (receiver.checkpoint + 1))).1
    omega
  · intro hnear id datagram packet stream hlow hhigh hbyte hparse
    rw [(CastRtpStream.parse_against hparse 0 0).1, hbyte]
    have hfar := hnear (hlow.trans_le hhigh)
    rw [maxUnackedFrames] at hhigh
    exact FrameId.expand_lower8Bits (by omega) (by omega)

/-- The reference is where the window needs it. -/
structure Settled (receiver : CastRtpReceiver) : Prop where
  referenced : receiver.Referenced
  near : receiver.stream.highestFrameId ≤ receiver.checkpoint + 129

theorem Settled.expands (h : receiver.Settled) : receiver.Expands :=
  h.referenced.expands_iff.mpr fun _ => h.near

theorem settled_new (senderSsrc receiverSsrc : UInt32) : (new senderSsrc receiverSsrc).Settled :=
  ⟨referenced_new senderSsrc receiverSsrc, show FrameId.first ≤ FrameId.leader + 129 by decide⟩

/-! ## One call -/

/-- A call that moves the window on leaves the reference where it was. -/
theorem Settled.moved {after : CastRtpReceiver} (h : receiver.Settled) (hwindow : after.WindowInv)
    (hmoved : Moved receiver after receiver.stream.highestFrameId) : after.Settled := by
  refine ⟨h.referenced.moved hwindow hmoved le_rfl, ?_⟩
  rw [hmoved.stream]
  exact h.near.trans (Int.add_le_add_right hmoved.checkpoint 129)

/-- A datagram whose frame id is near moves the reference no further than that.
-/
theorem Settled.receive (h : receiver.Settled) {datagram : Bytes}
    (hnear : receiver.Near (.receive datagram)) : (receiver.call (.receive datagram)).Settled := by
  have hwindow := h.referenced.window.call (.receive datagram)
  cases hparse : receiver.stream.parse datagram with
  | error error =>
    have hsame : receiver.call (.receive datagram) = receiver := by
      simp only [call, CastRtpReceiver.receive, hparse]
    rw [hsame]
    exact h
  | ok result =>
    obtain ⟨packet, stream⟩ := result
    have hcall : receiver.call (.receive datagram) =
        (({ receiver with stream } : CastRtpReceiver).receivePacket packet).1 := by
      simp only [call, CastRtpReceiver.receive, hparse]
    obtain ⟨hid, hhighest, hssrc, hformed⟩ := CastRtpStream.parse_against hparse FrameId.first 0
    have hfar : packet.frameId ≤ receiver.checkpoint + 129 := by
      rw [hid]
      exact hnear hformed
    have hmoved := @moved_receivePacket { receiver with stream } packet
    rw [hcall] at hwindow ⊢
    have hseen : receiver.latestExpected ≤ stream.highestFrameId := by
      rw [hhighest]
      exact h.referenced.seen.trans (le_max_left _ _)
    refine ⟨⟨hwindow, ?_⟩, ?_⟩
    · rw [hmoved.stream]
      refine hmoved.latestExpected.trans (max_le hseen ?_)
      rw [hhighest]
      exact le_max_right _ _
    · rw [hmoved.stream]
      refine le_trans ?_ (Int.add_le_add_right hmoved.checkpoint 129)
      rw [hhighest]
      exact max_le h.near hfar

theorem Settled.call (h : receiver.Settled) {call : Call} (hnear : receiver.Near call) :
    (receiver.call call).Settled := by
  have hwindow := h.referenced.window.call call
  cases call with
  | receive datagram => exact h.receive hnear
  | nextFrame policy => exact h.moved hwindow (moved_nextFrame policy _)
  | requestKeyFrame =>
    refine h.moved hwindow ?_
    change Moved receiver receiver.requestKeyFrame _
    unfold requestKeyFrame
    split
    · exact ⟨rfl, le_rfl, le_max_left _ _⟩
    · exact Moved.refl _
  | feedback ntpTimestamp => exact h.moved hwindow ⟨rfl, le_rfl, le_max_left _ _⟩

/-- A datagram that is not near is refused as too far, and by then the reference
has moved past what the window needs. -/
theorem Settled.receive_far (h : receiver.Settled) {datagram : Bytes}
    (hroom : receiver.HasRoom (.receive datagram)) (hfar : ¬ receiver.Near (.receive datagram)) :
    ¬ (receiver.call (.receive datagram)).Expands := by
  obtain ⟨⟨⟨_, _⟩, hformed⟩, hfar⟩ := Classical.not_imp.mp hfar
  obtain ⟨-, -, -, ⟨⟨packet, stream⟩, hparse⟩⟩ := CastRtpStream.parse_against hformed
    receiver.stream.highestFrameId receiver.stream.lastTimestamp
  obtain ⟨hid, hhighest, -, -⟩ := CastRtpStream.parse_against hparse 0 0
  change receiver.checkpoint < receiver.lastDelivered + maxUnackedFrames at hroom
  have hwindow := h.referenced.window
  have hlatest := hwindow.latestExpected_le
  have hdelivered := hwindow.lastDelivered_le
  rw [← hid] at hfar
  have hcall : receiver.call (.receive datagram) = { receiver with stream } := by
    have hchecked : ¬ packet.frameId ≤ receiver.checkpoint := by omega
    have hunknown : packet.frameId > receiver.latestExpected := by
      rw [maxUnackedFrames] at hlatest
      omega
    have htoo : packet.frameId > receiver.lastDelivered + maxUnackedFrames := by
      rw [maxUnackedFrames]
      omega
    simp only [CastRtpReceiver.call, CastRtpReceiver.receive, hparse, receivePacket]
    rw [if_neg hchecked, if_pos hunknown, if_pos htoo]
  intro hexpands
  rw [hcall] at hexpands
  have hreferenced : ({ receiver with stream } : CastRtpReceiver).Referenced := by
    refine ⟨hwindow.congr rfl rfl rfl rfl, ?_⟩
    change receiver.latestExpected ≤ stream.highestFrameId
    rw [hhighest]
    exact h.referenced.seen.trans (le_max_left _ _)
  have hbound : stream.highestFrameId ≤ receiver.checkpoint + 129 :=
    hreferenced.expands_iff.mp hexpands hroom
  rw [hhighest] at hbound
  exact hfar ((le_max_right _ _).trans hbound)

/-! ## Every run -/

/-- **Frame ids are expanded as they were sent as long as what parses is near.**
In a run in which no datagram that parses has a frame id more than 129 past the
checkpoint, the ids of the window are expanded right after every call.  And
while the window has room, that is the only way: a run in which they are
expanded right after every call has no such datagram. -/
theorem expands_iff_near (senderSsrc receiverSsrc : UInt32) (calls : List Call) :
    (Along call Near calls (new senderSsrc receiverSsrc) →
      ∀ k ≤ calls.length, ((new senderSsrc receiverSsrc).run (calls.take k)).Expands) ∧
    (Along call HasRoom calls (new senderSsrc receiverSsrc) →
      ((∀ k ≤ calls.length, ((new senderSsrc receiverSsrc).run (calls.take k)).Expands) ↔
        Along call Near calls (new senderSsrc receiverSsrc))) := by
  have hstart := settled_new senderSsrc receiverSsrc
  constructor
  · intro hnear k _
    rw [← List.take_append_drop k calls, along_append] at hnear
    exact (hnear.1.foldl Settled hstart fun _ _ hsettled hcall => hsettled.call hcall).expands
  · intro hroom
    refine along_iff_under Settled Expands hstart hstart.expands hroom ?_
    intro receiver call hsettled _ hroom
    refine ⟨⟨fun hexpands => ?_, fun hnear => (hsettled.call hnear).expands⟩,
      fun hnear => hsettled.call hnear⟩
    by_contra hfar
    cases call with
    | receive datagram => exact hsettled.receive_far hroom hfar hexpands
    | nextFrame policy | requestKeyFrame | feedback ntpTimestamp => exact hfar trivial

def ahead : List Call := [.receive (barePacket 1 127), .receive (barePacket 1 254)]

/-- Both are refused, and the first frame of the stream is then taken for frame
256. -/
theorem not_expands_ahead : ¬ ∀ (senderSsrc receiverSsrc : UInt32) (calls : List Call),
      ((new senderSsrc receiverSsrc).run calls).Expands := by
  intro hexpands
  have hlow : ((new 1 2).run ahead).checkpoint < 0 := by decide +kernel
  have hhigh : 0 ≤ ((new 1 2).run ahead).lastDelivered + maxUnackedFrames := by decide +kernel
  have hfirst : (((new 1 2).run ahead).stream.parse (barePacket 1 0)).map (·.1.frameId) =
      .ok 256 := by decide +kernel
  cases hparse : ((new 1 2).run ahead).stream.parse (barePacket 1 0) with
  | error error =>
    rw [hparse] at hfirst
    cases hfirst
  | ok result =>
    rw [hparse] at hfirst
    have hid : result.1.frameId = 0 :=
      hexpands 1 2 ahead 0 (barePacket 1 0) _ _ hlow hhigh rfl hparse
    cases (Except.ok.inj hfirst).symm.trans hid

end CastRtpReceiver

end Castaway.Cast
