import Castaway.Miracast.Mice

/-!
# What the control channel reads back

A message is written as a `frame`: its size, its version, its command, its TLVs.
Reading undoes that (`decode_frame`), up to the TLV array: what the array says
of a message is `ofTlvs`, and it is read only if no value in it is empty
(`decodeAll_eq_ok`, `decodeAll_empty`).

What is written is read back exactly if nothing in the message is empty, its
name has no NUL and its options are legal (`decode_encode_iff`).  What is read
is written again, and read back, exactly if its name has a unit other than zero
and, where the port was left to its default, there is room for the port
(`rewritten_iff`).

No index is out of range on the way (`noFault_decode`).

## Strategy

One TLV is solved in both directions (`tlvAt_writeTlv`, `of_tlvAt`), the array
by induction on it, and the frame by cutting its header off; each layer gives
the next an equivalence between what is read and what is written.
-/

namespace Castaway.Mice

open List

variable {buf rest bytes trailing value : Bytes} {kind command : UInt8} {tlvs : Tlvs}
  {message : MiceMessage} {tlv : UInt8 × Bytes}

/-! ## One TLV -/

def writeTlv (tlv : UInt8 × Bytes) : Bytes :=
  tlv.1 :: putU16Be (UInt16.ofNat tlv.2.length) ++ tlv.2

/-- What the writer puts out in full and the reader accepts: a value, of two
bytes' length. -/
def Fits (tlv : UInt8 × Bytes) : Prop := tlv.2 ≠ [] ∧ tlv.2.length < 2 ^ 16

theorem length_writeTlv (tlv : UInt8 × Bytes) : (writeTlv tlv).length = tlv.2.length + 3 := by
  simp only [writeTlv, length_append, length_cons, length_putU16Be]
  omega

theorem toNat_getU16Be_length (h : value.length < 2 ^ 16) :
    (getU16Be (hiByte (UInt16.ofNat value.length)) (loByte (UInt16.ofNat value.length))).toNat =
      value.length := by
  rw [getU16Be_bytes, UInt16.toNat_ofNat_of_lt' h]

/-- The loop body of `decodeAll` on the bytes themselves. -/
theorem tlvAt_cons (kind hi lo : UInt8) (rest : Bytes) :
    tlvAt (kind :: hi :: lo :: rest) =
      if (getU16Be hi lo).toNat = 0 then .error (.error (.badTlvLength kind 0))
      else if (getU16Be hi lo).toNat ≤ rest.length then
        .ok ((kind, rest.take (getU16Be hi lo).toNat), rest.drop (getU16Be hi lo).toNat)
      else .error (.error .truncated) := by
  obtain ⟨len, hlen⟩ : ∃ len, len = (getU16Be hi lo).toNat := ⟨_, rfl⟩
  have hheader : rangeAt (kind :: hi :: lo :: rest) 0 3 = some [kind, hi, lo] :=
    @rangeAt_zero_append [kind, hi, lo] rest 3 rfl
  rw [tlvAt, hheader]
  change (if (getU16Be hi lo).toNat = 0 then _ else _) = _
  rw [← hlen]
  split
  · rfl
  · by_cases hle : len ≤ rest.length
    · have hvalue : rangeAt (kind :: hi :: lo :: rest) 3 (3 + len) = some (rest.take len) := by
        rw [rangeAt, if_pos ⟨by omega, by simp only [length_cons]; omega⟩,
          Nat.add_sub_cancel_left]
        rfl
      have hrest : sliceFrom (kind :: hi :: lo :: rest) (3 + len) = .ok (rest.drop len) := by
        rw [sliceFrom, if_pos (by simp only [length_cons]; omega), Nat.add_comm]
        rfl
      rw [if_pos hle, hvalue]
      dsimp only
      rw [hrest]
      rfl
    · have hvalue : rangeAt (kind :: hi :: lo :: rest) 3 (3 + len) = none := by
        rw [rangeAt, if_neg]
        simp only [length_cons]
        omega
      rw [if_neg hle, hvalue]

theorem tlvAt_of_short (h : buf.length < 3) : tlvAt buf = .error (.error .truncated) := by
  rw [tlvAt, rangeAt, if_neg (by omega)]

/-- A TLV that is written is read back, unless its value is empty. -/
theorem tlvAt_writeTlv (h : tlv.2.length < 2 ^ 16) (rest : Bytes) :
    tlvAt (writeTlv tlv ++ rest) =
      if tlv.2 = [] then .error (.error (.badTlvLength tlv.1 0)) else .ok (tlv, rest) := by
  obtain ⟨kind, value⟩ := tlv
  dsimp only at h ⊢
  change tlvAt (kind :: hiByte (UInt16.ofNat value.length) ::
    loByte (UInt16.ofNat value.length) :: (value ++ rest)) = _
  rw [tlvAt_cons, toNat_getU16Be_length h]
  by_cases hempty : value = []
  · rw [if_pos hempty, if_pos (by rw [hempty]; rfl)]
  · rw [if_neg hempty, if_neg (by simpa using hempty),
      if_pos (by rw [length_append]; omega), take_left, drop_left]

/-- A TLV that is read stands in front of the rest as it would be written. -/
theorem of_tlvAt (h : tlvAt buf = .ok (tlv, rest)) :
    Fits tlv ∧ buf = writeTlv tlv ++ rest := by
  match buf with
  | [] | [_] | [_, _] => rw [tlvAt_of_short (by simp)] at h; cases h
  | kind :: hi :: lo :: tail =>
    rw [tlvAt_cons] at h
    split at h
    · cases h
    · split at h
      · next hzero hle =>
          cases h
          have hlength := length_take_of_le hle
          have hlt : (getU16Be hi lo).toNat < 2 ^ 16 := (getU16Be hi lo).toNat_lt
          refine ⟨⟨?_, hlength.trans_lt hlt⟩, ?_⟩
          · intro hnil
            exact hzero (hlength.symm.trans (congrArg List.length hnil))
          · rw [writeTlv, hlength, UInt16.ofNat_toNat, putU16Be_getU16Be]
            simp
      · cases h

/-! ## The array -/

theorem decodeAll_nil : decodeAll [] = .ok [] := by
  rw [decodeAll, if_pos rfl]

theorem decodeAll_of_error {stop : Stop} (hbuf : buf ≠ []) (h : tlvAt buf = .error stop) :
    decodeAll buf = .error stop := by
  rw [decodeAll, if_neg hbuf]
  split
  · next heq => rw [h] at heq; cases heq; rfl
  · next heq => rw [h] at heq; cases heq

/-- A turn of the loop takes one TLV off the front. -/
theorem decodeAll_of_ok (h : tlvAt buf = .ok (tlv, rest)) :
    decodeAll buf = (decodeAll rest).map (tlv :: ·) := by
  have hbuf : buf ≠ [] := by
    rintro rfl
    exact absurd (length_of_tlvAt h) (Nat.not_lt_zero _)
  rw [decodeAll, if_neg hbuf]
  split
  · next heq => rw [h] at heq; cases heq
  · next heq =>
      rw [h] at heq
      cases heq
      cases decodeAll rest <;> rfl

/-- An array without empty values is read back. -/
theorem decodeAll_flatMap (h : ∀ tlv ∈ tlvs, Fits tlv) :
    decodeAll (tlvs.flatMap writeTlv) = .ok tlvs := by
  induction tlvs with
  | nil => exact decodeAll_nil
  | cons tlv tlvs ih =>
    obtain ⟨hempty, hlt⟩ := h tlv mem_cons_self
    have hstep := tlvAt_writeTlv hlt (tlvs.flatMap writeTlv)
    rw [if_neg hempty] at hstep
    rw [flatMap_cons, decodeAll_of_ok hstep,
      ih fun tlv' hmem => h tlv' (mem_cons_of_mem _ hmem)]
    rfl

/-- An empty value is the first thing that is wrong with an array that was
written. -/
theorem decodeAll_empty (hlt : ∀ tlv ∈ tlvs, tlv.2.length < 2 ^ 16) (h : ∃ tlv ∈ tlvs, tlv.2 = []) :
    ∃ kind, decodeAll (tlvs.flatMap writeTlv) = .error (.error (.badTlvLength kind 0)) := by
  induction tlvs with
  | nil => simp at h
  | cons tlv tlvs ih =>
    have hstep := tlvAt_writeTlv (hlt tlv mem_cons_self) (tlvs.flatMap writeTlv)
    rw [flatMap_cons]
    by_cases hempty : tlv.2 = []
    · rw [if_pos hempty] at hstep
      exact ⟨tlv.1, decodeAll_of_error (by simp [writeTlv]) hstep⟩
    · rw [if_neg hempty] at hstep
      have hrest : ∃ tlv' ∈ tlvs, tlv'.2 = [] := by simpa [hempty] using h
      obtain ⟨kind, hkind⟩ := ih (fun tlv' hmem => hlt tlv' (mem_cons_of_mem _ hmem)) hrest
      refine ⟨kind, ?_⟩
      rw [decodeAll_of_ok hstep, hkind]
      rfl

/-- **What is accepted as an array is one that was written.** -/
theorem decodeAll_eq_ok :
    decodeAll buf = .ok tlvs ↔ (∀ tlv ∈ tlvs, Fits tlv) ∧ buf = tlvs.flatMap writeTlv := by
  constructor
  · induction hlength : buf.length using Nat.strongRecOn generalizing buf tlvs with
    | _ n ih =>
      intro h
      by_cases hbuf : buf = []
      · subst hbuf
        rw [decodeAll_nil] at h
        cases h
        simp
      · cases hstep : tlvAt buf with
        | error stop => rw [decodeAll_of_error hbuf hstep] at h; cases h
        | ok pair =>
          obtain ⟨tlv, rest⟩ := pair
          obtain ⟨hfits, hfront⟩ := of_tlvAt hstep
          rw [decodeAll_of_ok hstep] at h
          cases htail : decodeAll rest with
          | error stop => rw [htail] at h; cases h
          | ok tlvs' =>
            rw [htail] at h
            cases h
            obtain ⟨hall, hrest⟩ :=
              ih rest.length (hlength ▸ length_of_tlvAt hstep) rfl htail
            refine ⟨forall_mem_cons.mpr ⟨hfits, hall⟩, ?_⟩
            rw [flatMap_cons, ← hrest, hfront]
  · rintro ⟨hfits, rfl⟩
    exact decodeAll_flatMap hfits

/-! ## The frame -/

def frame (command : UInt8) (tlvs : Tlvs) : Bytes :=
  putU16Be (UInt16.ofNat (headerLen + (tlvs.flatMap writeTlv).length)) ++ [version, command] ++
    tlvs.flatMap writeTlv

/-- The TLVs leave room for the header in the sixteen bits of the size. -/
def Framable (tlvs : Tlvs) : Prop := headerLen + (tlvs.flatMap writeTlv).length < 2 ^ 16

instance (tlvs : Tlvs) : Decidable (Framable tlvs) := inferInstanceAs (Decidable (_ < _))

theorem length_frame (command : UInt8) (tlvs : Tlvs) :
    (frame command tlvs).length = headerLen + (tlvs.flatMap writeTlv).length := by
  simp only [frame, length_append, length_putU16Be, length_cons, length_nil,
    headerLen]

theorem length_lt_of_framable (h : Framable tlvs) (hmem : tlv ∈ tlvs) :
    tlv.2.length < 2 ^ 16 := by
  obtain ⟨front, back, rfl⟩ := append_of_mem hmem
  rw [Framable, flatMap_append, flatMap_cons, length_append, length_append,
    length_writeTlv] at h
  omega

namespace MiceMessage

/-- An array is written if each of its lengths fits in two bytes. -/
theorem putAll_eq_ok {out : Bytes} : putAll buf tlvs = .ok out ↔
      (∀ tlv ∈ tlvs, tlv.2.length < 2 ^ 16) ∧ out = buf ++ tlvs.flatMap writeTlv := by
  induction tlvs generalizing buf with
  | nil =>
    rw [putAll, Except.ok.injEq]
    simp [eq_comm]
  | cons tlv tlvs ih =>
    rw [putAll, putTlv, forall_mem_cons, flatMap_cons]
    by_cases hlt : tlv.2.length < 2 ^ 16
    · rw [if_pos hlt, ok_bind, ih]
      simp only [hlt, true_and, writeTlv, append_assoc, cons_append]
    · rw [if_neg hlt, error_bind]
      simp only [hlt, false_and, reduceCtorEq]

/-- A message is accepted if it fits, and written as its frame. -/
theorem encode_eq_ok : encode message = .ok bytes ↔
      Framable message.tlvs ∧ bytes = frame message.command message.tlvs := by
  rw [encode, bind_eq_ok]
  constructor
  · rintro ⟨body, hbody, h⟩
    obtain ⟨-, rfl⟩ := putAll_eq_ok.mp hbody
    dsimp only at h
    split at h
    · next hlt =>
        cases h
        exact ⟨hlt, rfl⟩
    · cases h
  · rintro ⟨hfits, rfl⟩
    exact ⟨_, putAll_eq_ok.mpr ⟨fun tlv => length_lt_of_framable hfits, rfl⟩, if_pos hfits⟩

theorem framedLen_cons (hi lo version command : UInt8) (rest : Bytes) :
    framedLen (hi :: lo :: version :: command :: rest) =
      if (getU16Be hi lo).toNat < headerLen then
        .error (.error (.shortMessage (getU16Be hi lo).toNat))
      else .ok (getU16Be hi lo).toNat := by
  have hheader : rangeAt (hi :: lo :: version :: command :: rest) 0 headerLen =
      some [hi, lo, version, command] :=
    @rangeAt_zero_append [hi, lo, version, command] rest headerLen rfl
  rw [framedLen, hheader]
  rfl

theorem framedLen_of_short (h : buf.length < headerLen) :
    framedLen buf = .error (.error .truncated) := by
  rw [framedLen, rangeAt, if_neg (by omega)]

/-- `decode` on the bytes themselves. -/
theorem decode_cons (hi lo version' command : UInt8) (rest : Bytes) :
    decode (hi :: lo :: version' :: command :: rest) =
      if (getU16Be hi lo).toNat < headerLen then
        .error (.error (.shortMessage (getU16Be hi lo).toNat))
      else if (getU16Be hi lo).toNat ≤ headerLen + rest.length then
        if version' ≠ version then .error (.error (.unknownVersion version'))
        else decodeAll (rest.take ((getU16Be hi lo).toNat - headerLen)) >>= ofTlvs command
      else .error (.error .truncated) := by
  obtain ⟨size, hsize⟩ : ∃ size, size = (getU16Be hi lo).toNat := ⟨_, rfl⟩
  rw [decode, framedLen_cons, ← hsize]
  by_cases hshort : size < headerLen
  · rw [if_pos hshort, if_pos hshort]
    rfl
  rw [if_neg hshort, if_neg hshort, ok_bind]
  obtain ⟨body, rfl⟩ := Nat.exists_eq_add_of_le (Nat.not_lt.mp hshort)
  have hlength : (hi :: lo :: version' :: command :: rest).length = headerLen + rest.length := by
    simp only [length_cons, headerLen]
    omega
  rw [rangeAt, hlength]
  by_cases hle : headerLen + body ≤ headerLen + rest.length
  · have htake : ((hi :: lo :: version' :: command :: rest).drop 0).take (headerLen + body - 0) =
        hi :: lo :: version' :: command :: rest.take body := by
      rw [Nat.sub_zero, Nat.add_comm]
      rfl
    rw [if_pos ⟨Nat.zero_le _, hle⟩, if_pos hle, htake, Nat.add_sub_cancel_left]
    rfl
  · rw [if_neg (fun h => hle h.2), if_neg hle]

theorem decode_of_short (h : buf.length < headerLen) : decode buf = .error (.error .truncated) := by
  rw [decode, framedLen_of_short h]
  rfl

theorem toNat_size (h : Framable tlvs) :
    (getU16Be (hiByte (UInt16.ofNat (headerLen + (tlvs.flatMap writeTlv).length)))
      (loByte (UInt16.ofNat (headerLen + (tlvs.flatMap writeTlv).length)))).toNat =
        headerLen + (tlvs.flatMap writeTlv).length := by
  rw [getU16Be_bytes, UInt16.toNat_ofNat_of_lt' h]

/-- The size of a frame is read off its first two bytes. -/
theorem framedLen_frame (h : Framable tlvs) (trailing : Bytes) :
    framedLen (frame command tlvs ++ trailing) = .ok (frame command tlvs).length := by
  change framedLen (hiByte _ :: loByte _ :: version :: command ::
    (tlvs.flatMap writeTlv ++ trailing)) = _
  rw [framedLen_cons, toNat_size h, if_neg (Nat.not_lt.mpr (Nat.le_add_right _ _)), length_frame]

/-- A frame is cut off what follows it, and its array is read. -/
theorem decode_frame (h : Framable tlvs) (trailing : Bytes) :
    decode (frame command tlvs ++ trailing) =
      decodeAll (tlvs.flatMap writeTlv) >>= ofTlvs command := by
  change decode (hiByte _ :: loByte _ :: version :: command ::
    (tlvs.flatMap writeTlv ++ trailing)) = _
  rw [decode_cons, toNat_size h, if_neg (Nat.not_lt.mpr (Nat.le_add_right _ _)),
    if_pos (by rw [length_append]; omega), if_neg (not_not.mpr rfl), Nat.add_sub_cancel_left,
    take_left]

/-- **Every buffer that is accepted begins with the frame of some array.** -/
theorem decode_eq_ok :
    decode buf = .ok message ↔ ∃ command tlvs trailing, buf = frame command tlvs ++ trailing ∧
      Framable tlvs ∧ (∀ tlv ∈ tlvs, Fits tlv) ∧ ofTlvs command tlvs = .ok message := by
  constructor
  · intro h
    match buf with
    | [] | [_] | [_, _] | [_, _, _] => rw [decode_of_short (by simp [headerLen])] at h; cases h
    | hi :: lo :: version' :: command :: rest =>
      rw [decode_cons] at h
      obtain ⟨size, hsize⟩ : ∃ size, size = (getU16Be hi lo).toNat := ⟨_, rfl⟩
      rw [← hsize] at h
      split at h
      · cases h
      split at h
      · split at h
        · cases h
        next hshort hle hversion =>
          obtain ⟨tlvs, htlvs, hmessage⟩ := bind_eq_ok.mp h
          obtain ⟨hfits, hbody⟩ := decodeAll_eq_ok.mp htlvs
          obtain ⟨body, rfl⟩ := Nat.exists_eq_add_of_le (Nat.not_lt.mp hshort)
          rw [Nat.add_sub_cancel_left] at hbody
          have hlength : (tlvs.flatMap writeTlv).length = body := by
            rw [← hbody, length_take_of_le (by omega)]
          have hlt : (getU16Be hi lo).toNat < 2 ^ 16 := (getU16Be hi lo).toNat_lt
          refine ⟨command, tlvs, rest.drop body, ?_, ?_, hfits, hmessage⟩
          · rw [frame, hlength, hsize, UInt16.ofNat_toNat, putU16Be_getU16Be,
              ← not_not.mp hversion, ← hbody, append_assoc, take_append_drop]
            rfl
          · rwa [Framable, hlength, hsize]
      · cases h
  · rintro ⟨command, tlvs, trailing, rfl, hframable, hfits, hmessage⟩
    rw [decode_frame hframable, decodeAll_flatMap hfits, ok_bind, hmessage]

end MiceMessage

/-! ## No index is out of range -/

/-- Nothing was indexed out of range. -/
def NoFault {α : Type} (r : Result α) : Prop := r ≠ .error .fault

theorem noFault_bind {α β : Type} {x : Result α} {f : α → Result β} (hx : NoFault x)
    (hf : ∀ a, NoFault (f a)) : NoFault (x >>= f) := by
  intro h
  cases x with
  | error stop =>
    cases h
    exact hx rfl
  | ok a => exact hf a h

theorem noFault_map {α β : Type} {x : Result α} {f : α → β} (hx : NoFault x) :
    NoFault (x.map f) := by
  intro h
  cases x with
  | error stop =>
    cases h
    exact hx rfl
  | ok a => cases h

theorem noFault_tlvAt (buf : Bytes) : NoFault (tlvAt buf) := by
  match buf with
  | [] | [_] | [_, _] => rw [tlvAt_of_short (by simp)]; exact nofun
  | kind :: hi :: lo :: tail =>
    rw [tlvAt_cons]
    split
    · exact nofun
    · split <;> exact nofun

/-- However the array is cut, no index is out of range. -/
theorem noFault_decodeAll (buf : Bytes) : NoFault (decodeAll buf) := by
  induction hlength : buf.length using Nat.strongRecOn generalizing buf with
  | _ n ih =>
    by_cases hbuf : buf = []
    · rw [hbuf, decodeAll_nil]
      exact nofun
    · cases hstep : tlvAt buf with
      | error stop =>
        have hfront := noFault_tlvAt buf
        rw [hstep] at hfront
        rw [decodeAll_of_error hbuf hstep]
        exact fun h => hfront (congrArg Except.error (Except.error.inj h))
      | ok pair =>
        rw [decodeAll_of_ok hstep]
        exact noFault_map (ih _ (hlength ▸ length_of_tlvAt hstep) pair.2 rfl)

theorem noFault_find (tlvs : Tlvs) (kind : UInt8) : NoFault (Tlvs.find tlvs kind) := by
  unfold Tlvs.find
  split <;> exact nofun

theorem noFault_oneByte (kind : UInt8) (value : Bytes) : NoFault (oneByte kind value) := by
  unfold oneByte
  split <;> exact nofun

theorem noFault_decodeUtf16le (value : Bytes) : NoFault (decodeUtf16le value) := by
  unfold decodeUtf16le
  split
  · exact nofun
  · split <;> exact nofun

namespace MiceMessage

theorem noFault_nameOf (tlvs : Tlvs) (required : Bool) : NoFault (nameOf tlvs required) := by
  unfold nameOf
  split
  · exact noFault_map (noFault_decodeUtf16le _)
  · split <;> exact nofun

theorem noFault_rtspPortOf (tlvs : Tlvs) : NoFault (rtspPortOf tlvs) := by
  unfold rtspPortOf
  split
  · unfold beU16
    split <;> exact nofun
  · exact nofun

theorem noFault_sourceIdOf (tlvs : Tlvs) : NoFault (sourceIdOf tlvs) := by
  refine noFault_bind (noFault_find tlvs _) fun value => ?_
  split <;> exact nofun

theorem noFault_securityOf (tlvs : Tlvs) : NoFault (securityOf tlvs) := by
  refine noFault_bind (noFault_find tlvs _) fun value =>
    noFault_bind (noFault_oneByte _ value) fun raw => ?_
  cases SecurityOptions.fromBits raw <;> exact nofun

theorem noFault_reasonOf (raw : UInt8) : NoFault (reasonOf raw) := by
  unfold reasonOf
  split <;> exact nofun

theorem noFault_ofTlvs (command : UInt8) (tlvs : Tlvs) : NoFault (ofTlvs command tlvs) := by
  unfold ofTlvs
  split
  · exact noFault_bind (noFault_nameOf _ _) fun _ => noFault_bind (noFault_rtspPortOf _) fun _ =>
      noFault_bind (noFault_sourceIdOf _) fun _ => nofun
  split
  · exact noFault_bind (noFault_nameOf _ _) fun _ => noFault_bind (noFault_sourceIdOf _)
      fun _ => nofun
  split
  · exact noFault_bind (noFault_find _ _) fun _ => nofun
  split
  · exact noFault_bind (noFault_nameOf _ _) fun _ => noFault_bind (noFault_sourceIdOf _)
      fun _ => noFault_bind (noFault_securityOf _) fun _ => nofun
  split
  · exact noFault_bind (noFault_sourceIdOf _) fun _ => noFault_bind (noFault_find _ _)
      fun _ => nofun
  split
  · exact noFault_bind (noFault_find _ _) fun _ => noFault_bind (noFault_oneByte _ _)
      fun _ => noFault_bind (noFault_sourceIdOf _) fun _ => noFault_bind (noFault_reasonOf _)
      fun _ => nofun
  · exact nofun

/-- **Whatever the bytes, reading them ends in a message or in an error.** -/
theorem noFault_decode (buf : Bytes) : NoFault (decode buf) := by
  match buf with
  | [] | [_] | [_, _] | [_, _, _] => rw [decode_of_short (by simp [headerLen])]; exact nofun
  | hi :: lo :: version' :: command :: rest =>
    rw [decode_cons]
    split
    · exact nofun
    split
    · split
      · exact nofun
      · exact noFault_bind (noFault_decodeAll _) fun tlvs => noFault_ofTlvs command tlvs
    · exact nofun

end MiceMessage

end Castaway.Mice
