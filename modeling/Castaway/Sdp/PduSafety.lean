import Castaway.Sdp.ElementSafety
import Castaway.Sdp.Pdu

/-!
# What decoding a PDU can stop at

The parameters of a request begin with a search pattern, which is one element,
or hold none.  So a request faults exactly where its pattern does, and a
response, which holds no element, never faults.

## Strategy

Each reader gets one lemma that it does not fault where its caller uses it, and
one that says how far it read, since the next slice starts there.
-/

namespace Castaway.Sdp

open List

/-! ## Numbers and slices -/

variable {buf rest body params : Bytes} {first last i : ℕ}

theorem noFault_slice (hfirst : first ≤ last)
    (hlast : last ≤ buf.length) : NoFault (slice buf first last) := by
  rw [slice_eq hfirst hlast]
  exact noFault_ok _

theorem noFault_sliceFrom (h : first ≤ buf.length) :
    NoFault (sliceFrom buf first) := by
  rw [sliceFrom_eq h]
  exact noFault_ok _

theorem sliceFrom_ok (h : sliceFrom buf first = .ok rest) :
    first ≤ buf.length ∧ rest = buf.drop first := by
  unfold sliceFrom at h
  split at h
  · rename_i hle
    cases h
    exact ⟨hle, rfl⟩
  · cases h

theorem length_of_slice (h : slice buf first last = .ok body) :
    body.length = last - first := by
  unfold slice at h
  split at h
  · rename_i hbounds
    cases h
    rw [length_take, length_drop]
    omega
  · cases h

theorem noFault_u16At (h : i + 1 < buf.length) : NoFault (u16At buf i) :=
  noFault_bind (noFault_index (by omega)) fun _ _ =>
    noFault_bind (noFault_index h) fun _ _ => noFault_ok _

theorem noFault_u32At (h : i + 3 < buf.length) : NoFault (u32At buf i) :=
  noFault_bind (noFault_index (by omega)) fun _ _ =>
    noFault_bind (noFault_index (by omega)) fun _ _ =>
      noFault_bind (noFault_index (by omega)) fun _ _ =>
        noFault_bind (noFault_index h) fun _ _ => noFault_ok _

theorem noFault_beU16 (buf : Bytes) (what : String) : NoFault (beU16 buf what) := by
  unfold beU16
  split
  · exact noFault_error _
  · exact noFault_u16At (by omega)

theorem beU16_ok {what : String} {v : ℕ} (h : beU16 buf what = .ok v) :
    2 ≤ buf.length := by
  unfold beU16 at h
  split at h
  · cases h
  · omega

theorem noFault_continuation (buf : Bytes) : NoFault (Continuation.decode buf) := by
  obtain _ | ⟨b, rest⟩ := buf
  · exact noFault_error _
  · unfold Continuation.decode
    dsimp only
    split
    · exact noFault_error _
    · split
      · exact noFault_error _
      · exact noFault_bind (noFault_slice (Nat.le_add_right _ _) (by omega)) fun _ _ => noFault_ok _

theorem noFault_mapM {α β : Type} {f : α → Result β} {items : List α}
    (h : ∀ item ∈ items, NoFault (f item)) : NoFault (items.mapM f) := by
  induction items with
  | nil => exact noFault_ok _
  | cons item items ih =>
    obtain ⟨hitem, hitems⟩ := forall_mem_cons.mp h
    rw [mapM_cons]
    exact noFault_bind hitem fun _ _ => noFault_bind (ih hitems) fun _ _ => noFault_ok _

/-! ## Attribute id lists -/

theorem noFault_attributeEntry {width : ℕ} (h : body.length = width) :
    NoFault (attributeEntry body width) := by
  unfold attributeEntry
  split
  · exact noFault_bind (noFault_u16At (by omega)) fun _ _ => noFault_ok _
  · split
    · exact noFault_bind (noFault_u16At (by omega)) fun _ _ =>
        noFault_bind (noFault_u16At (by omega)) fun _ _ => noFault_ok _
    · exact noFault_ok _

theorem noFault_decodeEntries {turns : ℕ} (hturns : rest.length ≤ turns) :
    NoFault (decodeEntries turns rest) := by
  induction turns generalizing rest with
  | zero =>
    rw [eq_nil_of_length_eq_zero (Nat.le_zero.mp hturns)]
    exact noFault_ok _
  | succ turns ih =>
    obtain _ | ⟨b, rest⟩ := rest
    · exact noFault_ok _
    · refine noFault_bind (noFault_splitHeader _) fun header hheader => ?_
      obtain ⟨kind, hl, bl⟩ := header
      have hpos := (splitHeader_bounds hheader).1
      dsimp only
      split
      · exact noFault_error _
      · rename_i hlength
        refine noFault_bind (noFault_slice (Nat.le_add_right _ _) (by omega)) fun body hbody => ?_
        have hwidth := length_of_slice hbody
        rw [Nat.add_sub_cancel_left] at hwidth
        refine noFault_bind (noFault_attributeEntry hwidth) fun _ _ => ?_
        refine noFault_bind (noFault_sliceFrom (by omega)) fun rest' hrest' => ?_
        refine noFault_bind (ih ?_) fun _ _ => noFault_ok _
        rw [(sliceFrom_ok hrest').2, length_drop]
        omega

theorem noFault_decodeAttributeList (buf : Bytes) : NoFault (decodeAttributeList buf) := by
  refine noFault_bind (noFault_splitHeader _) fun header _ => ?_
  obtain ⟨kind, headerLen, bodyLen⟩ := header
  dsimp only
  split
  · exact noFault_error _
  · exact noFault_bind (noFault_slice (Nat.le_add_right _ _) (by omega)) fun _ _ =>
      noFault_bind (noFault_decodeEntries le_rfl) fun _ _ => noFault_ok _

theorem decodeAttributeList_le {entries : List AttributeRange} {used : ℕ}
    (h : decodeAttributeList buf = .ok (entries, used)) : used ≤ buf.length := by
  obtain ⟨⟨kind, headerLen, bodyLen⟩, -, h⟩ := bind_eq_ok.mp h
  dsimp only at h
  split at h
  · cases h
  · obtain ⟨body, -, h⟩ := bind_eq_ok.mp h
    obtain ⟨entries', -, h⟩ := bind_eq_ok.mp h
    cases h
    omega

/-! ## Framing -/

theorem noFault_unframe (buf : Bytes) : NoFault (unframe buf) := by
  unfold unframe
  split
  · exact noFault_error _
  · refine noFault_bind (noFault_index (by omega)) fun _ _ =>
      noFault_bind (noFault_u16At (by omega)) fun _ _ =>
        noFault_bind (noFault_u16At (by omega)) fun _ _ => ?_
    split
    · exact noFault_error _
    · exact noFault_bind (noFault_slice (Nat.le_add_right _ _) (by omega)) fun _ _ => noFault_ok _

/-- How a PDU whose header is there is taken apart. -/
theorem unframe_cons (id t₀ t₁ l₀ l₁ : UInt8) (rest : Bytes) :
    unframe (id :: t₀ :: t₁ :: l₀ :: l₁ :: rest) =
      if rest.length < beNat [l₀, l₁] then
        .error (.error (.truncated "sdp pdu body" (5 + beNat [l₀, l₁]) (rest.length + 5)))
      else .ok (id, UInt16.ofNat (beNat [t₀, t₁]), rest.take (beNat [l₀, l₁])) := by
  have hid : index (id :: t₀ :: t₁ :: l₀ :: l₁ :: rest) 0 = .ok id := rfl
  have htid : u16At (id :: t₀ :: t₁ :: l₀ :: l₁ :: rest) 1 = .ok (beNat [t₀, t₁]) := rfl
  have hlen : u16At (id :: t₀ :: t₁ :: l₀ :: l₁ :: rest) 3 = .ok (beNat [l₀, l₁]) := rfl
  have hlength : (id :: t₀ :: t₁ :: l₀ :: l₁ :: rest).length = rest.length + 5 := rfl
  rw [unframe, hlength, if_neg (by omega), hid, ok_bind, htid, ok_bind, hlen, ok_bind]
  by_cases hshort : rest.length < beNat [l₀, l₁]
  · rw [if_pos hshort, if_pos (by omega)]
  · rw [if_neg hshort, if_neg (by omega), slice_eq (Nat.le_add_right _ _) (by rw [hlength]; omega),
      ok_bind, Nat.add_sub_cancel_left]
    rfl

/-- A PDU that is all there is taken apart. -/
theorem unframe_eq {id t₀ t₁ l₀ l₁ : UInt8} {tail : Bytes} (h : params.length = beNat [l₀, l₁]) :
    unframe (id :: t₀ :: t₁ :: l₀ :: l₁ :: (params ++ tail)) =
      .ok (id, UInt16.ofNat (beNat [t₀, t₁]), params) := by
  rw [unframe_cons, if_neg (by rw [length_append]; omega), ← h, take_left]

theorem unframe_ok {id : UInt8} {tid : UInt16} (h : unframe buf = .ok (id, tid, params)) :
    ∃ t₀ t₁ l₀ l₁ tail, buf = id :: t₀ :: t₁ :: l₀ :: l₁ :: (params ++ tail) ∧
      params.length = beNat [l₀, l₁] := by
  by_cases hlength : buf.length < 5
  · rw [unframe, if_pos hlength] at h
    cases h
  · obtain ⟨id', t₀, t₁, l₀, l₁, rest, rfl⟩ :
        ∃ id' t₀ t₁ l₀ l₁ rest, buf = id' :: t₀ :: t₁ :: l₀ :: l₁ :: rest := by
      obtain _ | ⟨id', _ | ⟨t₀, _ | ⟨t₁, _ | ⟨l₀, _ | ⟨l₁, rest⟩⟩⟩⟩⟩ := buf
      · exact absurd (by decide) hlength
      · exact absurd (by simp) hlength
      · exact absurd (by simp) hlength
      · exact absurd (by simp) hlength
      · exact absurd (by simp) hlength
      · exact ⟨id', t₀, t₁, l₀, l₁, rest, rfl⟩
    rw [unframe_cons] at h
    by_cases hshort : rest.length < beNat [l₀, l₁]
    · rw [if_pos hshort] at h
      cases h
    · rw [if_neg hshort] at h
      cases h
      refine ⟨t₀, t₁, l₀, l₁, rest.drop (beNat [l₀, l₁]), ?_, ?_⟩
      · rw [take_append_drop]
      · exact length_take_of_le (Nat.le_of_not_lt hshort)

/-! ## Responses -/

theorem noFault_handleAt {n : ℕ} (hi : i < n) (h : 4 + n * 4 ≤ params.length) :
    NoFault (SdpResponse.handleAt params i) :=
  noFault_bind (noFault_u32At (by omega)) fun _ _ => noFault_ok _

/-- **Decoding a response never faults.** -/
theorem SdpResponse.noFault_decode (buf : Bytes) : NoFault (SdpResponse.decode buf) := by
  refine noFault_bind (noFault_unframe _) fun pdu _ => ?_
  obtain ⟨id, tid, params⟩ := pdu
  dsimp only
  split
  · exact noFault_bind (noFault_beU16 _ _) fun _ _ => noFault_ok _
  · split
    · refine noFault_bind (noFault_beU16 _ _) fun total htotal => ?_
      have htwo := beU16_ok htotal
      refine noFault_bind (noFault_sliceFrom htwo) fun counted _ => ?_
      refine noFault_bind (noFault_beU16 _ _) fun n _ => ?_
      split
      · exact noFault_error _
      · rename_i hlength
        refine noFault_bind (noFault_mapM ?_) fun handles _ => ?_
        · intro i hi
          exact noFault_handleAt (mem_range.mp hi) (by omega)
        · exact noFault_bind (noFault_sliceFrom (by omega)) fun _ _ =>
            noFault_bind (noFault_continuation _) fun _ _ => noFault_ok _
    · split
      · refine noFault_bind (noFault_beU16 _ _) fun count _ => ?_
        split
        · exact noFault_error _
        · refine noFault_bind (noFault_slice (Nat.le_add_right _ _) (by omega)) fun _ _ =>
            noFault_bind (noFault_sliceFrom (by omega)) fun _ _ =>
              noFault_bind (noFault_continuation _) fun _ _ => ?_
          split
          · exact noFault_ok _
          · exact noFault_ok _
      · exact noFault_error _

/-! ## Requests -/

/-- The search pattern of a request reaches a signed integer of no bytes. -/
def PatternReachesEmptyInt (buf : Bytes) : Prop :=
  ∃ id t₀ t₁ l₀ l₁ params tail, buf = id :: t₀ :: t₁ :: l₀ :: l₁ :: (params ++ tail) ∧
    params.length = beNat [l₀, l₁] ∧ (id = 0x02 ∨ id = 0x06) ∧ ReachesEmptyInt 0 params

/-- An element that does not reach such an integer is decoded without a fault,
and what it takes is no more than there is. -/
theorem noFault_decode (h : ¬ ReachesEmptyInt 0 buf) :
    NoFault (DataElement.decode buf) :=
  fun _ hfault => h (reads_decode.faults hfault).2

namespace SdpRequest

theorem noFault_decode {buf : Bytes} (h : ¬ PatternReachesEmptyInt buf) :
    NoFault (SdpRequest.decode buf) := by
  refine noFault_bind (noFault_unframe _) fun pdu hpdu => ?_
  obtain ⟨id, tid, params⟩ := pdu
  obtain ⟨t₀, t₁, l₀, l₁, tail, hbuf, hlength⟩ := unframe_ok hpdu
  have hpattern (hid : id = 0x02 ∨ id = 0x06) : NoFault (DataElement.decode params) :=
    Sdp.noFault_decode fun hreaches =>
      h ⟨id, t₀, t₁, l₀, l₁, params, tail, hbuf, hlength, hid, hreaches⟩
  dsimp only
  split
  · rename_i hid
    refine noFault_bind (hpattern (.inl hid)) fun pattern hread => ?_
    obtain ⟨pattern, used⟩ := pattern
    have hused := (reads_decode.taken hread).2.1
    refine noFault_bind (noFault_sliceFrom hused) fun rest _ => ?_
    refine noFault_bind (noFault_beU16 _ _) fun maxRecords hmax => ?_
    exact noFault_bind (noFault_sliceFrom (beU16_ok hmax)) fun _ _ =>
      noFault_bind (noFault_continuation _) fun _ _ => noFault_ok _
  · split
    · split
      · exact noFault_error _
      · refine noFault_bind (noFault_u32At (by omega)) fun _ _ =>
          noFault_bind (noFault_u16At (by omega)) fun _ _ =>
            noFault_bind (noFault_sliceFrom (by omega)) fun rest hrest =>
              noFault_bind (noFault_decodeAttributeList _) fun list hlist => ?_
        obtain ⟨entries, used⟩ := list
        have hused := decodeAttributeList_le hlist
        rw [(sliceFrom_ok hrest).2, length_drop] at hused
        exact noFault_bind (noFault_sliceFrom (by omega)) fun _ _ =>
          noFault_bind (noFault_continuation _) fun _ _ => noFault_ok _
    · split
      · rename_i hid
        refine noFault_bind (hpattern (.inr hid)) fun pattern hread => ?_
        obtain ⟨pattern, used⟩ := pattern
        have hused := (reads_decode.taken hread).2.1
        refine noFault_bind (noFault_sliceFrom hused) fun rest _ => ?_
        refine noFault_bind (noFault_beU16 _ _) fun maxBytes hmax => ?_
        have htwo := beU16_ok hmax
        refine noFault_bind (noFault_sliceFrom htwo) fun list hlist => ?_
        refine noFault_bind (noFault_decodeAttributeList _) fun entries hentries => ?_
        obtain ⟨entries, used₂⟩ := entries
        have hused₂ := decodeAttributeList_le hentries
        rw [(sliceFrom_ok hlist).2, length_drop] at hused₂
        exact noFault_bind (noFault_sliceFrom (by omega)) fun _ _ =>
          noFault_bind (noFault_continuation _) fun _ _ => noFault_ok _
      · exact noFault_error _

theorem decode_of_reaches {buf : Bytes} (h : PatternReachesEmptyInt buf) :
    SdpRequest.decode buf = .error (.fault .underflow) := by
  obtain ⟨id, t₀, t₁, l₀, l₁, params, tail, rfl, hlength, hid, hreaches⟩ := h
  have hpattern := reads_decode.stops hreaches
  rw [SdpRequest.decode, unframe_eq hlength, ok_bind]
  obtain rfl | rfl := hid
  · dsimp only
    rw [if_pos rfl, hpattern, error_bind]
  · dsimp only
    rw [if_neg (by decide), if_neg (by decide), if_pos rfl, hpattern, error_bind]

end SdpRequest

/-! ## Every input -/

/-- Decoding an element does nothing it must not, and takes at least a byte and
no more than there are. -/
def DecodesSafely (buf : Bytes) : Prop :=
  NoFault (DataElement.decode buf) ∧
    ∀ e used, DataElement.decode buf = .ok (e, used) → 1 ≤ used ∧ used ≤ buf.length

/-- **For every byte string**, decoding it as an element is safe exactly where
no signed integer of no bytes is reached, decoding it as a request exactly where
its pattern reaches none, and decoding it as a response always. -/
theorem decode_safe (buf : Bytes) : (DecodesSafely buf ↔ ¬ ReachesEmptyInt 0 buf) ∧
      (NoFault (SdpRequest.decode buf) ↔ ¬ PatternReachesEmptyInt buf) ∧
      NoFault (SdpResponse.decode buf) := by
  refine ⟨⟨?_, ?_⟩, ⟨?_, SdpRequest.noFault_decode⟩, SdpResponse.noFault_decode buf⟩
  · rintro ⟨hsafe, -⟩ hreaches
    exact hsafe .underflow (reads_decode.stops hreaches)
  · intro hreaches
    refine ⟨noFault_decode hreaches, fun e used hread => ?_⟩
    obtain ⟨hpos, hle, -⟩ := reads_decode.taken hread
    exact ⟨hpos, hle⟩
  · intro hsafe hreaches
    exact hsafe .underflow (SdpRequest.decode_of_reaches hreaches)

/-- A signed integer of an explicit length of zero: its sign bit is looked for
at `bits - 1`, of no bits. -/
theorem emptyInt_underflows : DataElement.decode [0x15, 0x00] = .error (.fault .underflow) ∧
      ¬ ∀ buf : Bytes, DecodesSafely buf ∧ NoFault (SdpRequest.decode buf) ∧
        NoFault (SdpResponse.decode buf) := by
  have hfault : DataElement.decode [0x15, 0x00] = .error (.fault .underflow) := rfl
  exact ⟨hfault, fun h => (h [0x15, 0x00]).1.1 .underflow hfault⟩

end Castaway.Sdp
