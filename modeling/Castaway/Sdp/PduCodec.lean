import Castaway.Sdp.ElementCodec
import Castaway.Sdp.PduSafety

/-!
# PDUs survive their encoding

A request or a response whose parameters are within the 16 bits of their length
comes back from its bytes, if its continuation token is within the sixteen bytes
a reader takes.  The token's type does not bound it, and a longer one is written
and then refused (`longToken_refused`).
-/

namespace Castaway.Sdp

open List

/-! ## Parts -/

theorem sliceFrom_append (front rest : Bytes) :
    sliceFrom (front ++ rest) front.length = .ok rest := by
  rw [sliceFrom_eq (by rw [length_append]; exact Nat.le_add_right _ _), drop_left]

theorem index_append (front rest : Bytes) (i : ℕ) :
    index (front ++ rest) (front.length + i) = index rest i := by
  rw [index, getElem?_append_right (Nat.le_add_right _ _), Nat.add_sub_cancel_left]
  rfl

theorem index_append_zero (front rest : Bytes) :
    index (front ++ rest) front.length = index rest 0 :=
  index_append front rest 0

theorem u16At_append (front : Bytes) (v : UInt16) (rest : Bytes) :
    u16At (front ++ (beBytes 2 v.toNat ++ rest)) front.length = .ok v.toNat := by
  obtain ⟨b₀, b₁, hbytes, hnat⟩ := exists_beBytes_two v.toNat_lt
  rw [hbytes, u16At, index_append_zero, index_append, ← hnat]
  rfl

theorem u16At_beBytes (v : UInt16) (rest : Bytes) :
    u16At (beBytes 2 v.toNat ++ rest) 0 = .ok v.toNat :=
  u16At_append [] v rest

theorem beU16_beBytes (v : UInt16) (rest : Bytes) (what : String) :
    beU16 (beBytes 2 v.toNat ++ rest) what = .ok v.toNat := by
  rw [beU16, if_neg (by rw [length_append, length_beBytes]; omega), u16At_beBytes]

theorem u32At_append (front : Bytes) (v : UInt32) (rest : Bytes) :
    u32At (front ++ (beBytes 4 v.toNat ++ rest)) front.length = .ok v.toNat := by
  obtain ⟨b₀, b₁, b₂, b₃, hbytes, hnat⟩ := exists_beBytes_four v.toNat_lt
  rw [hbytes, u32At, index_append_zero, index_append, index_append, index_append, ← hnat]
  rfl

theorem Continuation.decode_encode {c : Continuation} (h : c.token.length ≤ 16) :
    Continuation.decode c.encode = .ok (c, 1 + c.token.length) := by
  have hlen : (UInt8.ofNat c.token.length).toNat = c.token.length := by
    rw [UInt8.toNat_ofNat', Nat.mod_eq_of_lt (by omega)]
  rw [encode, if_pos (by omega), decode, hlen, if_neg (by omega),
    if_neg (by rw [length_cons]; omega),
    slice_eq (Nat.le_add_right _ _) (by rw [length_cons]; omega), ok_bind,
    Nat.add_sub_cancel_left, drop_one, tail_cons, take_length]
  rfl

theorem length_beBytes_flatMap (handles : List UInt32) :
    (handles.flatMap fun h => beBytes 4 h.toNat).length = handles.length * 4 := by
  induction handles with
  | nil => rfl
  | cons handle handles ih =>
    rw [flatMap_cons, length_append, ih, length_beBytes, length_cons]
    omega

/-- A PDU within its length field is taken apart into what it was put together
from. -/
theorem unframe_frame {id : UInt8} {tid : UInt16} {params : Bytes} (h : params.length ≤ 65535) :
    unframe (frame id tid params) = .ok (id, tid, params) := by
  obtain ⟨t₀, t₁, htid, htid'⟩ := exists_beBytes_two tid.toNat_lt
  obtain ⟨l₀, l₁, hlen, hlen'⟩ := exists_beBytes_two (n := params.length) (by omega)
  have hframe : frame id tid params = id :: t₀ :: t₁ :: l₀ :: l₁ :: (params ++ []) := by
    rw [frame, Nat.min_eq_left h, htid, hlen, append_nil]
    rfl
  rw [hframe, unframe_eq hlen'.symm, htid', UInt16.ofNat_toNat]

/-! ## Attribute id lists -/

/-- An entry of a header byte and the two or four bytes that its header stands
for. -/
theorem decodeEntries_append {turns : ℕ} {kind b : UInt8} {body rest : Bytes}
    {entry : AttributeRange} {entries : List AttributeRange}
    (hsplit : ∀ tail, splitHeader (b :: tail) = .ok (kind, 1, body.length))
    (hentry : attributeEntry body body.length = .ok (some entry))
    (hturns : ((b :: body) ++ rest).length ≤ turns)
    (hrest : ∀ left, rest.length ≤ left → decodeEntries left rest = .ok entries) :
    decodeEntries turns ((b :: body) ++ rest) = .ok (entry :: entries) := by
  have hlength : (b :: (body ++ rest)).length = 1 + body.length + rest.length := by
    rw [length_cons, length_append]
    omega
  rw [cons_append, hlength] at hturns
  obtain ⟨turns, rfl⟩ : ∃ turns', turns = turns' + 1 := ⟨turns - 1, by omega⟩
  rw [cons_append, decodeEntries, hsplit, ok_bind]
  dsimp only
  have hbody : ((b :: (body ++ rest)).drop 1).take body.length = body := take_left
  have htail : (b :: (body ++ rest)).drop (1 + body.length) = rest := by
    rw [Nat.add_comm, drop_succ_cons, drop_left]
  rw [if_neg (by omega), slice_eq (Nat.le_add_right _ _) (by omega), Nat.add_sub_cancel_left, hbody,
    ok_bind, hentry, ok_bind, sliceFrom_eq (by omega), htail, ok_bind, hrest turns (by omega),
    ok_bind]
  rfl

theorem attributeEntry_single (id : UInt16) :
    attributeEntry (beBytes 2 id.toNat) 2 = .ok (some (.single id)) := by
  have hid := u16At_beBytes id []
  rw [append_nil] at hid
  rw [attributeEntry, if_pos rfl, hid, ok_bind, UInt16.ofNat_toNat]
  rfl

theorem attributeEntry_range (lo hi : UInt16) :
    attributeEntry (beBytes 2 lo.toNat ++ beBytes 2 hi.toNat) 4 = .ok (some (.range lo hi)) := by
  have hlo := u16At_beBytes lo (beBytes 2 hi.toNat)
  have hhi : u16At (beBytes 2 lo.toNat ++ beBytes 2 hi.toNat) 2 = .ok hi.toNat := by
    have hread := u16At_append (beBytes 2 lo.toNat) hi []
    rw [append_nil] at hread
    exact hread
  rw [attributeEntry, if_neg (by decide), if_pos rfl, hlo, ok_bind, hhi, ok_bind,
    UInt16.ofNat_toNat, UInt16.ofNat_toNat]
  rfl

/-- Entries come back in order, each by its width. -/
theorem decodeEntries_flatMap (ranges : List AttributeRange) {turns : ℕ}
    (hturns : (ranges.flatMap AttributeRange.encode).length ≤ turns) :
    decodeEntries turns (ranges.flatMap AttributeRange.encode) = .ok ranges := by
  induction ranges generalizing turns with
  | nil =>
    cases turns with
    | zero | succ turns => rfl
  | cons range ranges ih =>
    rw [flatMap_cons] at hturns ⊢
    cases range with
    | single id =>
      exact decodeEntries_append (fun _ => rfl) (attributeEntry_single id) hturns
        fun left hleft => ih hleft
    | range lo hi =>
      exact decodeEntries_append (fun _ => rfl) (attributeEntry_range lo hi) hturns
        fun left hleft => ih hleft

/-- An attribute id list comes back from its bytes, whatever follows them. -/
theorem decodeAttributeList_append (ranges : List AttributeRange) (tail : Bytes)
    (h : (ranges.flatMap AttributeRange.encode).length ≤ 65535) :
    decodeAttributeList (attributeList ranges ++ tail) =
      .ok (ranges, (attributeList ranges).length) := by
  obtain ⟨header, hput, hsplit⟩ := @putString_eq typeSequence _ (by decide) h
  have hlength : (header ++ (ranges.flatMap AttributeRange.encode ++ tail)).length =
      header.length + (ranges.flatMap AttributeRange.encode).length + tail.length := by
    rw [length_append, length_append, Nat.add_assoc]
  rw [attributeList, hput, append_assoc, decodeAttributeList, hsplit, ok_bind]
  dsimp only
  rw [if_neg (by omega), slice_eq (Nat.le_add_right _ _) (by omega), Nat.add_sub_cancel_left,
    ok_bind, drop_left, take_left, decodeEntries_flatMap ranges le_rfl, ok_bind,
    length_append]
  rfl

/-! ## Search patterns -/

section

variable (patterns : List Uuid)

theorem canonicalItems_uuid :
    DataElement.canonicalItems (patterns.map .uuid) = patterns.map .uuid := by
  induction patterns with
  | nil => rfl
  | cons u patterns ih =>
    rw [map_cons, DataElement.canonicalItems, ih]
    rfl

theorem nestingItems_uuid :
    DataElement.nestingItems (patterns.map .uuid) ≤ 1 := by
  induction patterns with
  | nil => exact Nat.zero_le 1
  | cons u patterns ih =>
    rw [map_cons, DataElement.nestingItems]
    exact max_le le_rfl ih

theorem fitsItems_uuid : DataElement.FitsItems (patterns.map .uuid) := by
  induction patterns with
  | nil => exact trivial
  | cons u patterns ih => exact ⟨trivial, ih⟩

theorem uuids_pattern : uuids (SdpRequest.pattern patterns) = patterns := by
  change (patterns.map DataElement.uuid).filterMap DataElement.asUuid = patterns
  rw [filterMap_map]
  exact filterMap_some

theorem decode_pattern (tail : Bytes) (h : (SdpRequest.pattern patterns).encode.length ≤ 65535) :
    DataElement.decode ((SdpRequest.pattern patterns).encode ++ tail) =
      .ok (SdpRequest.pattern patterns, (SdpRequest.pattern patterns).encode.length) := by
  have hbody : (DataElement.encodeAll (patterns.map .uuid)).length ≤ 65535 :=
    le_trans (length_le_putString typeSequence _) h
  have hcanonical : (SdpRequest.pattern patterns).canonical = SdpRequest.pattern patterns := by
    rw [SdpRequest.pattern, DataElement.canonical, canonicalItems_uuid]
  have hfits : (SdpRequest.pattern patterns).Fits := ⟨hbody, fitsItems_uuid patterns⟩
  have hnesting : (SdpRequest.pattern patterns).nesting ≤ maxDepth :=
    le_trans (nestingItems_uuid patterns) (by decide)
  rw [decode_encode _ tail hfits hnesting, hcanonical]

end

/-! ## Requests -/

def SdpRequest.cont : SdpRequest → Continuation
  | serviceSearch _ _ _ cont => cont
  | serviceAttribute _ _ _ _ cont => cont
  | serviceSearchAttribute _ _ _ _ cont => cont

theorem decodeAttributeList_of_params {front : Bytes} {attributes : List AttributeRange}
    {cont : Continuation}
    (hparams : (front ++ attributeList attributes ++ cont.encode).length ≤ 65535) :
    decodeAttributeList (attributeList attributes ++ cont.encode) =
      .ok (attributes, (attributeList attributes).length) := by
  rw [length_append, length_append] at hparams
  have hbody := length_le_putString typeSequence (attributes.flatMap AttributeRange.encode)
  exact decodeAttributeList_append attributes cont.encode (le_trans hbody (by
    change (attributeList attributes).length ≤ 65535
    omega))

/-- **A request comes back from its PDU.** -/
theorem SdpRequest.decode_encode (request : SdpRequest) (hparams : request.params.length ≤ 65535)
    (hcont : request.cont.token.length ≤ 16) : SdpRequest.decode request.encode = .ok request := by
  have htoken := Continuation.decode_encode hcont
  rw [encode, SdpRequest.decode, unframe_frame hparams, ok_bind]
  cases request with
  | serviceSearch tid patterns maxRecords cont =>
    have hpattern : (pattern patterns).encode.length ≤ 65535 := by
      rw [params, append_assoc, length_append] at hparams
      omega
    have htwo : sliceFrom (beBytes 2 maxRecords.toNat ++ cont.encode) 2 = .ok cont.encode :=
      sliceFrom_append _ _
    dsimp only [SdpRequest.id, SdpRequest.tid, SdpRequest.cont] at htoken ⊢
    rw [if_pos rfl, params, append_assoc, decode_pattern patterns _ hpattern, ok_bind]
    dsimp only
    rw [sliceFrom_append, ok_bind, beU16_beBytes, ok_bind, htwo, ok_bind, htoken, ok_bind,
      uuids_pattern, UInt16.ofNat_toNat]
    rfl
  | serviceAttribute tid handle maxBytes attributes cont =>
    have hlist := decodeAttributeList_of_params hparams
    have hhandle : u32At (beBytes 4 handle.toNat ++ beBytes 2 maxBytes.toNat ++
        attributeList attributes ++ cont.encode) 0 = .ok handle.toNat := by
      rw [append_assoc, append_assoc]
      exact u32At_append [] handle _
    have hmax : u16At (beBytes 4 handle.toNat ++ beBytes 2 maxBytes.toNat ++
        attributeList attributes ++ cont.encode) 4 = .ok maxBytes.toNat := by
      rw [append_assoc, append_assoc]
      exact u16At_append (beBytes 4 handle.toNat) maxBytes _
    have hsix : sliceFrom (beBytes 4 handle.toNat ++ beBytes 2 maxBytes.toNat ++
        attributeList attributes ++ cont.encode) 6 =
          .ok (attributeList attributes ++ cont.encode) := by
      rw [append_assoc]
      exact sliceFrom_append (beBytes 4 handle.toNat ++ beBytes 2 maxBytes.toNat) _
    have hend : sliceFrom (beBytes 4 handle.toNat ++ beBytes 2 maxBytes.toNat ++
        attributeList attributes ++ cont.encode) (6 + (attributeList attributes).length) =
          .ok cont.encode := by
      have hfront : (beBytes 4 handle.toNat ++ beBytes 2 maxBytes.toNat ++
          attributeList attributes).length = 6 + (attributeList attributes).length := by
        rw [length_append]
        rfl
      rw [← hfront]
      exact sliceFrom_append _ _
    dsimp only [SdpRequest.id, SdpRequest.tid, SdpRequest.cont] at htoken ⊢
    rw [if_neg (by decide), if_pos rfl, params]
    rw [if_neg (by simp only [length_append, length_beBytes]; omega), hhandle, ok_bind, hmax,
      ok_bind, hsix, ok_bind, hlist, ok_bind]
    dsimp only
    rw [hend, ok_bind, htoken, ok_bind, UInt16.ofNat_toNat, UInt32.ofNat_toNat]
    rfl
  | serviceSearchAttribute tid patterns maxBytes attributes cont =>
    have hpattern : (pattern patterns).encode.length ≤ 65535 := by
      rw [params, append_assoc, append_assoc, length_append] at hparams
      omega
    have hlist := decodeAttributeList_of_params hparams
    have htwo : sliceFrom (beBytes 2 maxBytes.toNat ++
        (attributeList attributes ++ cont.encode)) 2 =
          .ok (attributeList attributes ++ cont.encode) :=
      sliceFrom_append _ _
    have hend : sliceFrom (beBytes 2 maxBytes.toNat ++ (attributeList attributes ++ cont.encode))
        (2 + (attributeList attributes).length) = .ok cont.encode := by
      have hfront : (beBytes 2 maxBytes.toNat ++ attributeList attributes).length =
          2 + (attributeList attributes).length := by
        rw [length_append]
        rfl
      rw [← hfront, ← append_assoc]
      exact sliceFrom_append _ _
    dsimp only [SdpRequest.id, SdpRequest.tid, SdpRequest.cont] at htoken ⊢
    rw [if_neg (by decide), if_neg (by decide), if_pos rfl, params, append_assoc,
      append_assoc, decode_pattern patterns _ hpattern, ok_bind]
    dsimp only
    rw [sliceFrom_append, ok_bind, beU16_beBytes, ok_bind, htwo, ok_bind, hlist, ok_bind]
    dsimp only
    rw [hend, ok_bind, htoken, ok_bind, uuids_pattern, UInt16.ofNat_toNat]
    rfl

/-! ## Responses -/

/-- The continuation token of a response is within what a reader takes. -/
def SdpResponse.TokenFits : SdpResponse → Prop
  | error _ _ => True
  | serviceSearch _ _ _ cont => cont.token.length ≤ 16
  | serviceAttribute _ _ cont => cont.token.length ≤ 16
  | serviceSearchAttribute _ _ cont => cont.token.length ≤ 16

/-- The handles of a search response are where the loop looks for them, from
the `k`-th on. -/
theorem mapM_handleAt (handles : List UInt32) {front : Bytes} {k : ℕ}
    (hfront : front.length = 4 + k * 4) (rest : Bytes) :
    (List.range' k handles.length).mapM (SdpResponse.handleAt
      (front ++ ((handles.flatMap fun h => beBytes 4 h.toNat) ++ rest))) = .ok handles := by
  induction handles generalizing front k with
  | nil => rfl
  | cons handle handles ih =>
    have hhandle := u32At_append front handle
      ((handles.flatMap fun h => beBytes 4 h.toNat) ++ rest)
    have hnext : (front ++ beBytes 4 handle.toNat).length = 4 + (k + 1) * 4 := by
      rw [length_append, length_beBytes, hfront]
      omega
    have hrest := ih hnext
    rw [append_assoc] at hrest
    rw [hfront] at hhandle
    rw [length_cons, range'_succ, mapM_cons, flatMap_cons, append_assoc,
      SdpResponse.handleAt, hhandle, ok_bind, hrest, UInt32.ofNat_toNat]
    rfl

/-- A counted body and the token behind it come back. -/
theorem slice_append (front body rest : Bytes) :
    slice (front ++ (body ++ rest)) front.length (front.length + body.length) = .ok body := by
  rw [slice_eq (Nat.le_add_right _ _) (by rw [length_append, length_append]; omega),
    Nat.add_sub_cancel_left, drop_left, take_left]

theorem slice_counted (n : ℕ) (body rest : Bytes) :
    slice (beBytes 2 n ++ (body ++ rest)) 2 (2 + body.length) = .ok body :=
  slice_append (beBytes 2 n) body rest

theorem sliceFrom_counted (n : ℕ) (body rest : Bytes) :
    sliceFrom (beBytes 2 n ++ (body ++ rest)) (2 + body.length) = .ok rest := by
  have hfront : (beBytes 2 n ++ body).length = 2 + body.length := by
    rw [length_append, length_beBytes]
  rw [← append_assoc, ← hfront, sliceFrom_append]

theorem beU16_count {n : ℕ} (hn : n ≤ 65535) (rest : Bytes) (what : String) :
    beU16 (beBytes 2 n ++ rest) what = .ok n := by
  have hcount := beU16_beBytes (UInt16.ofNat n) rest what
  rwa [UInt16.toNat_ofNat', Nat.mod_eq_of_lt (by omega)] at hcount

/-- **A response comes back from its PDU.** -/
theorem SdpResponse.decode_encode (response : SdpResponse)
    (hparams : response.params.length ≤ 65535) (htoken : response.TokenFits) :
    SdpResponse.decode response.encode = .ok response := by
  rw [encode, SdpResponse.decode, unframe_frame hparams, ok_bind]
  cases response with
  | error tid code =>
    have hcode := beU16_beBytes code [] "error code"
    rw [append_nil] at hcode
    dsimp only [SdpResponse.id, SdpResponse.tid]
    rw [if_pos rfl, params, hcode, ok_bind, UInt16.ofNat_toNat]
    rfl
  | serviceSearch tid total handles cont =>
    have hcont := Continuation.decode_encode htoken
    have hcount : handles.length ≤ 65535 := by
      rw [params, length_append, length_append, length_beBytes_flatMap] at hparams
      omega
    rw [params, Nat.min_eq_left hcount, append_assoc, append_assoc] at hparams ⊢
    have htwo : sliceFrom (beBytes 2 total.toNat ++ (beBytes 2 handles.length ++
        ((handles.flatMap fun h => beBytes 4 h.toNat) ++ cont.encode))) 2 =
          .ok (beBytes 2 handles.length ++
            ((handles.flatMap fun h => beBytes 4 h.toNat) ++ cont.encode)) :=
      sliceFrom_append _ _
    dsimp only [SdpResponse.id, SdpResponse.tid]
    rw [if_neg (by decide), if_pos rfl, beU16_beBytes, ok_bind, htwo, ok_bind,
      beU16_count hcount, ok_bind]
    have hlength : (beBytes 2 total.toNat ++ (beBytes 2 handles.length ++
        ((handles.flatMap fun h => beBytes 4 h.toNat) ++ cont.encode))).length =
          4 + handles.length * 4 + cont.encode.length := by
      simp only [length_append, length_beBytes, length_beBytes_flatMap]
      omega
    have hfront : (beBytes 2 total.toNat ++ beBytes 2 handles.length).length = 4 + 0 * 4 := by
      rw [length_append, length_beBytes, length_beBytes]
    have hhandles := mapM_handleAt handles hfront cont.encode
    rw [← range_eq_range', append_assoc] at hhandles
    have hend : sliceFrom (beBytes 2 total.toNat ++ (beBytes 2 handles.length ++
        ((handles.flatMap fun h => beBytes 4 h.toNat) ++ cont.encode)))
          (4 + handles.length * 4) = .ok cont.encode := by
      rw [sliceFrom_eq (by omega), ← append_assoc, ← append_assoc, drop_left']
      rw [length_append, hfront, length_beBytes_flatMap]
    rw [if_neg (by omega), hhandles, ok_bind, hend, ok_bind, hcont, ok_bind, UInt16.ofNat_toNat]
    rfl
  | serviceAttribute tid attributes cont =>
    have hcont := Continuation.decode_encode htoken
    have hcount : attributes.length ≤ 65535 := by
      rw [params, length_append, length_append] at hparams
      omega
    rw [params, Nat.min_eq_left hcount, append_assoc] at hparams ⊢
    dsimp only [SdpResponse.id, SdpResponse.tid]
    rw [if_neg (by decide), if_neg (by decide), if_pos (by decide), beU16_count hcount, ok_bind,
      if_neg (by simp only [length_append, length_beBytes]; omega),
      slice_counted, ok_bind, sliceFrom_counted, ok_bind, hcont, ok_bind]
    rfl
  | serviceSearchAttribute tid lists cont =>
    have hcont := Continuation.decode_encode htoken
    have hcount : lists.length ≤ 65535 := by
      rw [params, length_append, length_append] at hparams
      omega
    rw [params, Nat.min_eq_left hcount, append_assoc] at hparams ⊢
    dsimp only [SdpResponse.id, SdpResponse.tid]
    rw [if_neg (by decide), if_neg (by decide), if_pos (by decide), beU16_count hcount, ok_bind,
      if_neg (by simp only [length_append, length_beBytes]; omega),
      slice_counted, ok_bind, sliceFrom_counted, ok_bind, hcont, ok_bind]
    rfl

/-! ## Every element and every PDU -/

/-- **Round trip.**  Decoding an encoded element takes exactly its bytes and
gives it with its pinned integers made plain; a request or response within its
length field comes back as it was, if its continuation token has at most sixteen
bytes. -/
theorem sdp_roundTrip : (∀ (e : DataElement) (tail : Bytes), e.Fits → e.nesting ≤ maxDepth →
      DataElement.decode (e.encode ++ tail) = .ok (e.canonical, e.encode.length)) ∧
    (∀ request : SdpRequest, request.params.length ≤ 65535 → request.cont.token.length ≤ 16 →
      SdpRequest.decode request.encode = .ok request) ∧
    ∀ response : SdpResponse, response.params.length ≤ 65535 → response.TokenFits →
      SdpResponse.decode response.encode = .ok response :=
  ⟨decode_encode, SdpRequest.decode_encode, SdpResponse.decode_encode⟩

/-- A minus one in a sequence, and a request with a token of two bytes. -/
theorem sdp_roundTrip_sample :
    DataElement.decode [0x35, 0x02, 0x10, 0xFF, 0x00] = .ok (.sequence [.int (-1)], 4) ∧
      SdpRequest.decode (SdpRequest.serviceSearch 1 [Uuid.short 0x110B] 8 ⟨[0, 5]⟩).encode =
        .ok (.serviceSearch 1 [Uuid.short 0x110B] 8 ⟨[0, 5]⟩) :=
  ⟨sdp_roundTrip.1 (.sequence [.int (-1)]) [0x00] ⟨by decide, trivial, trivial⟩ (by decide),
    sdp_roundTrip.2.1 (.serviceSearch 1 [Uuid.short 0x110B] 8 ⟨[0, 5]⟩) (by decide) (by decide)⟩

/-- A response whose token has seventeen bytes, which the length limits allow.
-/
def longToken : SdpResponse := .serviceSearch 0 0 [] ⟨List.replicate 17 0⟩

/-- It is written, and refused when it is read. -/
theorem longToken_refused : longToken.params.length ≤ 65535 ∧
      SdpResponse.decode longToken.encode = .error (.error (.continuationTooLong 17)) ∧
      ¬ ∀ response : SdpResponse, response.params.length ≤ 65535 →
        SdpResponse.decode response.encode = .ok response := by
  have hrefused : SdpResponse.decode longToken.encode =
      .error (.error (.continuationTooLong 17)) := by decide
  refine ⟨by decide, hrefused, fun h => ?_⟩
  have hread := h longToken (by decide)
  rw [hrefused] at hread
  cases hread

end Castaway.Sdp
