import Castaway.Hci.Packet
import Castaway.Lib.Framing
import Mathlib.Data.List.Forall2

/-!
# HCI packets in a byte stream

`StreamDeframer` holds the tail of the stream between two reads and yields a
packet when its declared length is there.  It reads the header once to know the
length, and `HciPacket::decode` reads it again; `Layout` says what the two
readings agree on.

The deframer is a `Framing`, so how the stream is cut does not matter.  **The
headline result** is `deframe_encoded`.
-/

namespace Castaway.Hci

open List

namespace PacketType

def headerLength : PacketType → ℕ
  | event => 2
  | command | scoData => 3
  | aclData => 4

def payloadLength (kind : PacketType) (head : Bytes) : ℕ :=
  match kind with
  | command | scoData => (head.getD 2 0).toNat
  | event => (head.getD 1 0).toNat
  | aclData => (getU16Le (head.getD 2 0) (head.getD 3 0)).toNat

end PacketType

/-- The bytes that have arrived and belong to no packet yet. -/
structure StreamDeframer where
  buf : Bytes
  deriving DecidableEq

namespace StreamDeframer

def new : StreamDeframer := ⟨[]⟩

def extend (deframer : StreamDeframer) (bytes : Bytes) : StreamDeframer :=
  ⟨deframer.buf ++ bytes⟩

/-- Take the next complete packet, if there is one. -/
def nextPacket (deframer : StreamDeframer) : StreamDeframer × Except HciError (Option HciPacket) :=
  match deframer.buf with
  | [] => (deframer, .ok none)
  | indicator :: rest =>
    match PacketType.fromIndicator indicator with
    | .error e => (deframer, .error e)
    | .ok kind =>
      if rest.length < kind.headerLength then (deframer, .ok none)
      else
        let total := 1 + kind.headerLength + kind.payloadLength (rest.take kind.headerLength)
        if deframer.buf.length < total then (deframer, .ok none)
        else
          (⟨deframer.buf.drop total⟩, (HciPacket.decode (deframer.buf.take total)).map some)

/-- Bytes held waiting for the rest of a packet. -/
def pending (deframer : StreamDeframer) : ℕ := deframer.buf.length

end StreamDeframer

/-! ## The two readings of a header -/

/-- A frame is an indicator, a header and the payload whose length the header
gives. -/
structure Layout (kind : PacketType) (head payload : Bytes) : Prop where
  head_length : head.length = kind.headerLength
  payload_length : payload.length = kind.payloadLength head

def frame (kind : PacketType) (head payload : Bytes) : Bytes :=
  kind.indicator :: (head ++ payload)

variable {kind : PacketType} {head payload : Bytes} {packet : HciPacket}

theorem Layout.length_frame (h : Layout kind head payload) :
    (frame kind head payload).length = 1 + kind.headerLength + kind.payloadLength head := by
  rw [frame, length_cons, length_append, h.head_length, h.payload_length]
  omega

theorem exact_self (payload : Bytes) (what : String) :
    HciPacket.exact payload payload.length what = .ok payload := by
  rw [HciPacket.exact, if_neg (Nat.lt_irrefl _), take_length]

theorem toNat_putLen {len : ℕ} (h : len ≤ 255) : (HciPacket.putLen len).toNat = len := by
  rw [HciPacket.putLen, Nat.min_eq_left h, UInt8.toNat_ofNat']
  omega

theorem toNat_putLen_wide {len : ℕ} (h : len ≤ 65535) :
    (UInt16.ofNat (min len 65535)).toNat = len := by
  rw [Nat.min_eq_left h, UInt16.toNat_ofNat']
  omega

/-- **An encoded packet is a frame that decodes to the packet.** -/
theorem encode_layout {wire : Bytes} (h : packet.encode = .ok wire) :
    ∃ head payload, wire = frame packet.packetType head payload ∧
      Layout packet.packetType head payload ∧ HciPacket.decode wire = .ok packet := by
  cases packet with
  | command opcode params =>
    rw [HciPacket.encode] at h
    split at h
    · cases h
    next hfit =>
      cases h
      have hlen := toNat_putLen (Nat.le_of_not_lt hfit)
      refine ⟨[loByte opcode.raw, hiByte opcode.raw, HciPacket.putLen params.length], params,
        rfl, ⟨rfl, hlen.symm⟩, ?_⟩
      change HciPacket.decodeBody .command (loByte opcode.raw :: hiByte opcode.raw ::
        HciPacket.putLen params.length :: params) = _
      simp only [HciPacket.decodeBody, hlen, exact_self, ok_bind, getU16Le_bytes]
  | event code params =>
    rw [HciPacket.encode] at h
    split at h
    · cases h
    next hfit =>
      cases h
      have hlen := toNat_putLen (Nat.le_of_not_lt hfit)
      refine ⟨[code, HciPacket.putLen params.length], params, rfl, ⟨rfl, hlen.symm⟩, ?_⟩
      change HciPacket.decodeBody .event
        (code :: HciPacket.putLen params.length :: params) = _
      simp only [HciPacket.decodeBody, hlen, exact_self, ok_bind]
  | acl acl =>
    rw [HciPacket.encode] at h
    split at h
    · cases h
    next hfit =>
      cases h
      have hlen := toNat_putLen_wide (Nat.le_of_not_lt hfit)
      refine ⟨[loByte acl.header, hiByte acl.header,
        loByte (.ofNat (min acl.data.length 65535)),
        hiByte (.ofNat (min acl.data.length 65535))], acl.data, rfl, ⟨rfl, ?_⟩, ?_⟩
      · change acl.data.length = (getU16Le (loByte _) (hiByte _)).toNat
        rw [getU16Le_bytes, hlen]
      · change HciPacket.decodeBody .aclData (loByte acl.header :: hiByte acl.header ::
          loByte (.ofNat (min acl.data.length 65535)) ::
          hiByte (.ofNat (min acl.data.length 65535)) :: acl.data) = _
        simp only [HciPacket.decodeBody, getU16Le_bytes, hlen, exact_self, ok_bind,
          acl.header_handle, acl.header_boundary, acl.header_broadcast,
          ConnectionHandle.new_raw]
  | sco handle data =>
    rw [HciPacket.encode] at h
    split at h
    · cases h
    next hfit =>
      cases h
      have hlen := toNat_putLen (Nat.le_of_not_lt hfit)
      refine ⟨[loByte handle.raw, hiByte handle.raw, HciPacket.putLen data.length], data,
        rfl, ⟨rfl, hlen.symm⟩, ?_⟩
      change HciPacket.decodeBody .scoData (loByte handle.raw :: hiByte handle.raw ::
        HciPacket.putLen data.length :: data) = _
      simp only [HciPacket.decodeBody, hlen, exact_self, ok_bind, getU16Le_bytes,
        handle.and_mask, ConnectionHandle.new_raw]

/-- **A frame that decodes is as long as the encoding of its packet.** -/
theorem encode_of_decode (hlayout : Layout kind head payload)
    (h : HciPacket.decode (frame kind head payload) = .ok packet) :
    ∃ wire, packet.encode = .ok wire ∧ wire.length = (frame kind head payload).length := by
  have hbody : HciPacket.decodeBody kind (head ++ payload) = .ok packet := by
    rw [frame, HciPacket.decode, PacketType.fromIndicator_indicator] at h
    exact h
  have hexact (what : String) : HciPacket.exact payload payload.length what = .ok payload :=
    exact_self payload what
  obtain ⟨hhead, hpayload⟩ := hlayout
  cases kind with
  | command =>
    obtain ⟨h₀, h₁, h₂, rfl⟩ : ∃ h₀ h₁ h₂, head = [h₀, h₁, h₂] := length_eq_three.mp hhead
    replace hpayload : payload.length = h₂.toNat := hpayload
    simp only [cons_append, nil_append, HciPacket.decodeBody, ← hpayload, hexact,
      ok_bind] at hbody
    cases hbody
    have hfit : ¬ payload.length > 255 := by have := h₂.toNat_lt; omega
    exact ⟨_, if_neg hfit, by simp [frame]; omega⟩
  | event =>
    obtain ⟨h₀, h₁, rfl⟩ : ∃ h₀ h₁, head = [h₀, h₁] := length_eq_two.mp hhead
    replace hpayload : payload.length = h₁.toNat := hpayload
    simp only [cons_append, nil_append, HciPacket.decodeBody, ← hpayload, hexact,
      ok_bind] at hbody
    cases hbody
    have hfit : ¬ payload.length > 255 := by have := h₁.toNat_lt; omega
    exact ⟨_, if_neg hfit, by simp [frame]⟩
  | aclData =>
    obtain ⟨h₀, tail, rfl⟩ := exists_of_length_succ head hhead
    obtain ⟨h₁, h₂, h₃, rfl⟩ : ∃ h₁ h₂ h₃, tail = [h₁, h₂, h₃] :=
      length_eq_three.mp (Nat.succ.inj hhead)
    replace hpayload : payload.length = (getU16Le h₂ h₃).toNat := hpayload
    simp only [cons_append, nil_append, HciPacket.decodeBody, ← hpayload, hexact] at hbody
    obtain ⟨handle, -, hpacket⟩ := bind_eq_ok.mp hbody
    cases hpacket
    have hfit : ¬ payload.length > AclPacket.maxData := by
      have hlt := (getU16Le h₂ h₃).toNat_lt
      rw [AclPacket.maxData]
      omega
    exact ⟨_, if_neg hfit, by simp [frame]; omega⟩
  | scoData =>
    obtain ⟨h₀, h₁, h₂, rfl⟩ : ∃ h₀ h₁ h₂, head = [h₀, h₁, h₂] := length_eq_three.mp hhead
    replace hpayload : payload.length = h₂.toNat := hpayload
    simp only [cons_append, nil_append, HciPacket.decodeBody, ← hpayload, hexact] at hbody
    obtain ⟨handle, -, hpacket⟩ := bind_eq_ok.mp hbody
    cases hpacket
    have hfit : ¬ payload.length > 255 := by have := h₂.toNat_lt; omega
    exact ⟨_, if_neg hfit, by simp [frame]; omega⟩

/-! ## The deframer as a framing -/

namespace StreamDeframer

theorem nextPacket_frame (hlayout : Layout kind head payload) (more : Bytes) :
    nextPacket ⟨frame kind head payload ++ more⟩ =
      (⟨more⟩, (HciPacket.decode (frame kind head payload)).map some) := by
  have htotal := hlayout.length_frame
  have hhead : (head ++ payload ++ more).take kind.headerLength = head := by
    rw [← hlayout.head_length, append_assoc, take_left]
  have hlong : ¬ (head ++ payload ++ more).length < kind.headerLength := by
    rw [← hlayout.head_length]
    simp only [length_append]
    omega
  have hcons : frame kind head payload ++ more = kind.indicator :: (head ++ payload ++ more) := rfl
  have hwhole : ¬ (kind.indicator :: (head ++ payload ++ more)).length <
      1 + kind.headerLength + kind.payloadLength head := by
    rw [← hcons, length_append, htotal]
    omega
  have hdrop : (kind.indicator :: (head ++ payload ++ more)).drop
      (1 + kind.headerLength + kind.payloadLength head) = more := by
    rw [← hcons, ← htotal, drop_left]
  have htake : (kind.indicator :: (head ++ payload ++ more)).take
      (1 + kind.headerLength + kind.payloadLength head) = frame kind head payload := by
    rw [← hcons, ← htotal, take_left]
  simp only [nextPacket, hcons, PacketType.fromIndicator_indicator, if_neg hlong, hhead,
    if_neg hwhole, hdrop, htake]

/-- The deframer refuses the first byte, waits, or has a whole frame in front.
-/
theorem nextPacket_cases (buf : Bytes) :
    (∃ indicator rest e, buf = indicator :: rest ∧ PacketType.fromIndicator indicator = .error e) ∨
      nextPacket ⟨buf⟩ = (⟨buf⟩, .ok none) ∨
      ∃ kind head payload more, Layout kind head payload ∧ buf = frame kind head payload ++ more := by
  cases buf with
  | nil => exact .inr (.inl rfl)
  | cons indicator rest =>
    cases hkind : PacketType.fromIndicator indicator with
    | error e => exact .inl ⟨indicator, rest, e, rfl, hkind⟩
    | ok kind =>
      refine .inr ?_
      by_cases hshort : rest.length < kind.headerLength
      · refine .inl ?_
        simp only [nextPacket, hkind, if_pos hshort]
      by_cases hpart : (indicator :: rest).length < 1 + kind.headerLength +
          kind.payloadLength (rest.take kind.headerLength)
      · refine .inl ?_
        simp only [nextPacket, hkind, if_neg hshort, if_pos hpart]
      · have hindicator := PacketType.indicator_of_fromIndicator hkind
        rw [length_cons] at hpart
        refine .inr ⟨kind, rest.take kind.headerLength,
          (rest.drop kind.headerLength).take
            (kind.payloadLength (rest.take kind.headerLength)),
          (rest.drop kind.headerLength).drop
            (kind.payloadLength (rest.take kind.headerLength)), ⟨?_, ?_⟩, ?_⟩
        · rw [length_take]
          omega
        · rw [length_take, length_drop]
          omega
        · rw [frame, hindicator, cons_append, append_assoc, take_append_drop,
            take_append_drop]

theorem nextPacket_refuses {indicator : UInt8} {rest : Bytes} {e : HciError}
    (h : PacketType.fromIndicator indicator = .error e) :
    nextPacket ⟨indicator :: rest⟩ = (⟨indicator :: rest⟩, .error e) := by
  simp only [nextPacket, h]

/-- One call of `next_packet`, as a step of a framing. -/
def next (_ : Unit) (buf : Bytes) : Next UInt8 HciPacket Unit HciError :=
  match nextPacket ⟨buf⟩ with
  | (_, .ok none) => .wait
  | (deframer, .ok (some packet)) => .took () [packet] deframer.buf
  | (_, .error e) => .failed e

theorem next_frame (hlayout : Layout kind head payload) (more : Bytes) :
    next () (frame kind head payload ++ more) =
      match HciPacket.decode (frame kind head payload) with
      | .ok packet => .took () [packet] more
      | .error e => .failed e := by
  rw [next, nextPacket_frame hlayout more]
  cases HciPacket.decode (frame kind head payload) <;> rfl

theorem next_took {buf rest : Bytes} {state : Unit} {out : List HciPacket}
    (h : next () buf = .took state out rest) : ∃ kind head payload packet,
      Layout kind head payload ∧ buf = frame kind head payload ++ rest ∧
        HciPacket.decode (frame kind head payload) = .ok packet ∧ out = [packet] := by
  rcases nextPacket_cases buf with ⟨indicator, rest', e, rfl, hrefused⟩ | hwait |
    ⟨kind, head, payload, more, hlayout, rfl⟩
  · rw [next, nextPacket_refuses hrefused] at h
    cases h
  · rw [next, hwait] at h
    cases h
  · rw [next_frame hlayout] at h
    cases hdecode : HciPacket.decode (frame kind head payload) with
    | error e => rw [hdecode] at h; cases h
    | ok packet =>
      rw [hdecode] at h
      cases h
      exact ⟨kind, head, payload, packet, hlayout, rfl, hdecode, rfl⟩

/-- The deframer, fed as its transport feeds it: `extend`, and then
`next_packet` until it has no more. -/
def framing : Framing UInt8 HciPacket Unit HciError where
  next := next
  shrinks := fun {s buf s' out rest} h => by
    obtain ⟨kind, head, payload, packet, hlayout, rfl, -, -⟩ := next_took h
    rw [length_append, hlayout.length_frame]
    omega
  took_append := fun {s buf s' out rest} h more => by
    obtain ⟨kind, head, payload, packet, hlayout, rfl, hdecode, rfl⟩ := next_took h
    rw [append_assoc]
    change next () _ = _
    rw [next_frame hlayout, hdecode]
  failed_append := fun {s buf e} h more => by
    rcases nextPacket_cases buf with ⟨indicator, rest, e', rfl, hrefused⟩ | hwait |
      ⟨kind, head, payload, rest, hlayout, rfl⟩
    · rw [next, nextPacket_refuses hrefused] at h
      cases h
      rw [cons_append, next, nextPacket_refuses hrefused]
    · rw [next, hwait] at h
      cases h
    · change next () _ = _ at h
      change next () _ = _
      rw [next_frame hlayout] at h
      rw [append_assoc, next_frame hlayout]
      cases hdecode : HciPacket.decode (frame kind head payload) with
      | error e' => rw [hdecode] at h; cases h; rfl
      | ok packet => rw [hdecode] at h; cases h

/-- The packets that come out of chunks of the stream, and what is left. -/
def deframe (chunks : List Bytes) : List HciPacket × Stream UInt8 Unit HciError :=
  framing.feedAll (.running () new.buf) chunks

theorem sends_encoded {packets : List HciPacket} {wires : List Bytes}
    (h : List.Forall₂ (fun packet wire => HciPacket.encode packet = .ok wire) packets wires) :
    framing.Sends () wires (packets.map fun packet => [packet]) () := by
  induction h with
  | nil => exact .nil ()
  | cons hencode hrest ih =>
    obtain ⟨head, payload, hwire, hlayout, hdecode⟩ := encode_layout hencode
    refine .cons ?_ ih
    change next () _ = _
    rw [hwire] at hdecode ⊢
    rw [← append_nil (frame _ head payload), next_frame hlayout, hdecode]

/-- **Deframing does not depend on how the stream is cut.**  Chunks that
concatenate to the encodings of some packets yield those packets and leave
nothing pending; each packet is out as soon as the chunks hold its last byte.
And from any buffer, a packet taken removes the length of its encoding. -/
theorem deframe_encoded (packets : List HciPacket) (wires : List Bytes)
    (hwires : List.Forall₂ (fun packet wire => HciPacket.encode packet = .ok wire) packets wires)
    (chunks : List Bytes) (hchunks : chunks.flatten = wires.flatten) :
    deframe chunks = (packets, .running () []) ∧
      (∀ n k, (wires.take n).flatten.length ≤ (chunks.take k).flatten.length →
        packets.take n <+: (deframe (chunks.take k)).1) ∧
      ∀ deframer deframer' packet,
        nextPacket deframer = (deframer', .ok (some packet)) → ∃ wire,
          packet.encode = .ok wire ∧ wire.length ≤ deframer.pending ∧
            deframer'.buf = deframer.buf.drop wire.length := by
  have hsends := sends_encoded hwires
  have hstart : framing.next () [] = .wait := rfl
  refine ⟨?_, fun n k hheld => ?_, fun deframer deframer' packet htaken => ?_⟩
  · have hfed := hsends.feedAll hstart hstart hchunks
    rwa [← flatMap_def, flatMap_singleton'] at hfed
  · have hfed := hsends.feedAll_take hstart hchunks hheld
    rwa [← map_take, ← flatMap_def, flatMap_singleton'] at hfed
  · have hnext : next () deframer.buf = .took () [packet] deframer'.buf := by
      rw [next, htaken]
    obtain ⟨kind, head, payload, packet', hlayout, hbuf, hdecode, hout⟩ := next_took hnext
    obtain rfl : packet = packet' := head_eq_of_cons_eq hout
    obtain ⟨wire, hencode, hlength⟩ := encode_of_decode hlayout hdecode
    refine ⟨wire, hencode, ?_, ?_⟩
    · rw [pending, hbuf, hlength, length_append]
      omega
    · rw [hbuf, hlength, drop_left]

theorem deframe_encoded_sample :
    deframe [[0x04, 0x0E], [0x01, 0x2A, 0x02, 0x0B, 0x20, 0x01], [0x00, 0x55]] =
      ([.event 0x0E [0x2A], .acl ⟨⟨0x0B, by decide⟩, .firstFlushable, .pointToPoint, [0x55]⟩],
        .running () []) :=
  (deframe_encoded
    [.event 0x0E [0x2A], .acl ⟨⟨0x0B, by decide⟩, .firstFlushable, .pointToPoint, [0x55]⟩]
    [[0x04, 0x0E, 0x01, 0x2A], [0x02, 0x0B, 0x20, 0x01, 0x00, 0x55]]
    (.cons rfl (.cons rfl .nil))
    [[0x04, 0x0E], [0x01, 0x2A, 0x02, 0x0B, 0x20, 0x01], [0x00, 0x55]] rfl).1

end StreamDeframer

end Castaway.Hci
