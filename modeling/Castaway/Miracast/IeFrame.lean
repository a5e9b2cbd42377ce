import Castaway.Miracast.Ie

/-!
# A split element is put back together

What a turn of either loop takes off the front is exactly what a writer puts
there (`elementAt_eq_ok`, `subelementAt_eq_ok`), so a frame that is parsed is
the elements it is made of, and what is found in it is what their bodies,
joined, are the encoding of (`parseFrame_eq_ok`).  Where the bodies are cut is
in neither: a frame is read the same wherever that was.

## Strategy

A turn is inverted first: what it reads is what a writer would have put in front
of the rest (`elementAt_ok`, `subelementAt_ok`), and what a writer puts there it
reads (`elementAt_append`, `subelementAt_append`).  The loops follow by
induction on the length of the buffer.  `parseFrame_merges` then puts the
elements of one split element among others, and `split_element_restored` says
the same of their bytes.
-/

namespace Castaway.Ie

open List

variable {buf rest : Bytes} {sub : Subelement}

/-! ## One turn -/

/-- A range is read out of the middle of a buffer. -/
theorem rangeOr_append {front mid rest : Bytes} {first last : ℕ} {e : IeError}
    (hfirst : front.length = first) (hlast : first + mid.length = last) :
    rangeOr (front ++ mid ++ rest) first last e = .ok mid := by
  rw [rangeOr, rangeAt_append hfirst hlast]

/-- A range that was read is the middle of the buffer it was read from. -/
theorem rangeOr_split {first last : ℕ} {bytes : Bytes} {e : IeError}
    (h : rangeOr buf first last e = .ok bytes) :
    bytes.length = last - first ∧ buf = buf.take first ++ bytes ++ buf.drop last := by
  obtain ⟨hle, hlast, rfl⟩ := rangeOr_ok h
  have hsplit : buf.drop first = (buf.drop first).take (last - first) ++ buf.drop last := by
    conv_lhs => rw [← take_append_drop (last - first) (buf.drop first), drop_drop]
    rw [Nat.add_sub_cancel' hle]
  constructor
  · rw [length_take, length_drop]
    omega
  · rw [append_assoc, ← hsplit, take_append_drop]

theorem rangeOr_ne_fault (buf : Bytes) (first last : ℕ) (e : IeError) :
    rangeOr buf first last e ≠ .error .fault := by
  unfold rangeOr
  split
  · intro h
    cases h
  · intro h
    cases h

/-- An element as it stands in a frame: id, length, body. -/
def Element.bytes (element : Element) : Bytes :=
  element.id :: UInt8.ofNat element.body.length :: element.body

/-- An element that is written is read back, whatever follows it. -/
theorem elementAt_append {element : Element} (h : element.body.length ≤ 255) :
    elementAt (element.bytes ++ rest) = .ok (element, rest) := by
  have hlen : (UInt8.ofNat element.body.length).toNat = element.body.length := by
    rw [UInt8.toNat_ofNat']
    omega
  let header : Bytes := [element.id, UInt8.ofNat element.body.length]
  have hbytes : element.bytes ++ rest = header ++ element.body ++ rest := rfl
  have hheader : rangeOr (element.bytes ++ rest) 0 2 .truncated = .ok header :=
    @rangeOr_append [] header (element.body ++ rest) 0 2 .truncated rfl rfl
  have hbody : rangeOr (element.bytes ++ rest) 2 (2 + element.body.length) .truncated =
      .ok element.body := by
    rw [hbytes]
    exact rangeOr_append rfl rfl
  have hrest : (element.bytes ++ rest).drop (2 + element.body.length) = rest :=
    drop_left' (by simp [Element.bytes]; omega)
  rw [elementAt, hheader]
  simp only [ok_bind, index, header, getElem?_cons_zero, getElem?_cons_succ, hlen, hbody,
    hrest]

/-- An element that is read is one that could have been written there. -/
theorem elementAt_ok {element : Element} (h : elementAt buf = .ok (element, rest)) :
    element.body.length ≤ 255 ∧ buf = element.bytes ++ rest := by
  obtain ⟨header, hheader, h⟩ := bind_eq_ok.mp h
  obtain ⟨id, hid, h⟩ := bind_eq_ok.mp h
  obtain ⟨len, hlen, h⟩ := bind_eq_ok.mp h
  obtain ⟨body, hbody, h⟩ := bind_eq_ok.mp h
  cases h
  obtain ⟨htwo, hfront⟩ := rangeOr_split hheader
  obtain ⟨hlength, hsplit⟩ := rangeOr_split hbody
  obtain ⟨a, b, rfl⟩ := length_eq_two.mp htwo
  cases hid
  cases hlen
  have htake : buf.take 2 = [id, len] := by
    rw [hfront]
    rfl
  have hbound := len.toNat_lt
  have hwidth : body.length = len.toNat := by omega
  refine ⟨show body.length ≤ 255 by omega, ?_⟩
  rw [htake] at hsplit
  rw [Element.bytes, hwidth, UInt8.ofNat_toNat]
  exact hsplit

/-- No buffer makes the reading of an element index out of bounds. -/
theorem elementAt_ne_fault (buf : Bytes) : elementAt buf ≠ .error .fault := by
  intro h
  unfold elementAt at h
  cases hheader : rangeOr buf 0 2 .truncated with
  | error stop =>
    rw [hheader] at h
    cases h
    exact rangeOr_ne_fault _ _ _ _ hheader
  | ok header =>
    obtain ⟨a, b, rfl⟩ := length_eq_two.mp (rangeOr_split hheader).1
    rw [hheader] at h
    cases hbody : rangeOr buf 2 (2 + b.toNat) .truncated with
    | error stop =>
      simp only [ok_bind, index, getElem?_cons_zero, getElem?_cons_succ, hbody] at h
      cases h
      exact rangeOr_ne_fault _ _ _ _ hbody
    | ok body =>
      simp only [ok_bind, index, getElem?_cons_zero, getElem?_cons_succ, hbody] at h
      cases h

/-- What an encoder can write in full, and a reader would call by the same id.
-/
def Subelement.WellFormed (sub : Subelement) : Prop :=
  sub.id.Canonical ∧ sub.body.length ≤ 65535

theorem Subelement.bytes_eq (h : sub.body.length ≤ 65535) :
    sub.bytes = sub.id.wire :: putU16Be (UInt16.ofNat sub.body.length) ++ sub.body := by
  rw [Subelement.bytes, if_pos (show sub.body.length < 2 ^ 16 by omega)]

theorem SubelementId.canonical_fromWire (raw : UInt8) : (SubelementId.fromWire raw).Canonical := by
  unfold SubelementId.fromWire
  repeat' split
  all_goals simp_all [SubelementId.Canonical]

/-- The same of a subelement, whose length takes two bytes. -/
theorem subelementAt_append (h : sub.WellFormed) :
    subelementAt (sub.bytes ++ rest) = .ok (sub, rest) := by
  have hlen : (UInt16.ofNat sub.body.length).toNat = sub.body.length := by
    rw [UInt16.toNat_ofNat']
    have := h.2
    omega
  let len := UInt16.ofNat sub.body.length
  let header : Bytes := [sub.id.wire, hiByte len, loByte len]
  have hbytes : sub.bytes ++ rest = header ++ sub.body ++ rest := by
    rw [Subelement.bytes_eq h.2]
    rfl
  have hheader : rangeOr (sub.bytes ++ rest) 0 3 .truncated = .ok header := by
    rw [hbytes, append_assoc]
    exact @rangeOr_append [] header (sub.body ++ rest) 0 3 .truncated rfl rfl
  have hbody (e : IeError) : rangeOr (sub.bytes ++ rest) 3 (3 + sub.body.length) e =
      .ok sub.body := by
    rw [hbytes]
    exact rangeOr_append rfl rfl
  have hrest : (sub.bytes ++ rest).drop (3 + sub.body.length) = rest := by
    rw [hbytes]
    exact drop_left' (by simp [header]; omega)
  rw [subelementAt, hheader]
  simp only [ok_bind, index, header, getElem?_cons_zero, getElem?_cons_succ,
    getU16Be_bytes, len, hlen, hbody, hrest, SubelementId.fromWire_wire h.1]

/-- A subelement that is read has an id by its own name, and is in front. -/
theorem subelementAt_ok (h : subelementAt buf = .ok (sub, rest)) :
    sub.WellFormed ∧ buf = sub.bytes ++ rest := by
  obtain ⟨header, hheader, h⟩ := bind_eq_ok.mp h
  obtain ⟨id, hid, h⟩ := bind_eq_ok.mp h
  obtain ⟨hi, hhi, h⟩ := bind_eq_ok.mp h
  obtain ⟨lo, hlo, h⟩ := bind_eq_ok.mp h
  obtain ⟨body, hbody, h⟩ := bind_eq_ok.mp h
  cases h
  obtain ⟨hthree, hfront⟩ := rangeOr_split hheader
  obtain ⟨hlength, hsplit⟩ := rangeOr_split hbody
  obtain ⟨a, b, c, rfl⟩ := length_eq_three.mp hthree
  cases hid
  cases hhi
  cases hlo
  have htake : buf.take 3 = [id, hi, lo] := by
    rw [hfront]
    rfl
  have hbound := (getU16Be hi lo).toNat_lt
  have hwidth : body.length = (getU16Be hi lo).toNat := by omega
  have hshort : body.length ≤ 65535 := by omega
  refine ⟨⟨SubelementId.canonical_fromWire id, hshort⟩, ?_⟩
  rw [htake] at hsplit
  rw [Subelement.bytes_eq hshort, SubelementId.wire_fromWire, hwidth, UInt16.ofNat_toNat,
    putU16Be_getU16Be]
  exact hsplit

theorem subelementAt_ne_fault (buf : Bytes) : subelementAt buf ≠ .error .fault := by
  intro h
  unfold subelementAt at h
  cases hheader : rangeOr buf 0 3 .truncated with
  | error stop =>
    rw [hheader] at h
    cases h
    exact rangeOr_ne_fault _ _ _ _ hheader
  | ok header =>
    obtain ⟨a, b, c, rfl⟩ := length_eq_three.mp (rangeOr_split hheader).1
    rw [hheader] at h
    simp only [ok_bind, index, getElem?_cons_zero, getElem?_cons_succ] at h
    cases hbody : rangeOr buf 3 (3 + (getU16Be b c).toNat)
        (.badSubelementLength a (getU16Be b c).toNat (buf.length - 3)) with
    | error stop =>
      rw [hbody] at h
      cases h
      exact rangeOr_ne_fault _ _ _ _ hbody
    | ok body =>
      rw [hbody] at h
      cases h

/-! ## The loops -/

/-- What a frame's Wi-Fi Display elements carry, one after another. -/
def wfdBodies (frame : List Element) : Bytes :=
  (frame.filter Element.isWfd).flatMap fun element => element.body.drop 4

theorem parseFrom_nil : parseFrom [] = .ok [] := by
  rw [parseFrom, if_pos rfl]

/-- The loop over subelements stops where its first turn does. -/
theorem parseFrom_of_error {stop : Stop} (hbuf : buf ≠ []) (h : subelementAt buf = .error stop) :
    parseFrom buf = .error stop := by
  rw [parseFrom, if_neg hbuf]
  split
  · next hturn =>
      cases h.symm.trans hturn
      rfl
  · next hturn => cases h.symm.trans hturn

/-- A turn of the loop takes one subelement off the front. -/
theorem parseFrom_of_ok (h : subelementAt buf = .ok (sub, rest)) :
    parseFrom buf = (parseFrom rest).map (sub :: ·) := by
  have hbuf : buf ≠ [] := by
    rintro rfl
    cases h
  rw [parseFrom, if_neg hbuf]
  split
  · next hturn => cases h.symm.trans hturn
  · next sub' rest' hturn =>
      cases h.symm.trans hturn
      cases parseFrom rest <;> rfl

theorem joinFrom_nil (joined : Bytes) : joinFrom joined [] = .ok joined := by
  rw [joinFrom, if_pos rfl]

theorem joinFrom_of_error {joined : Bytes} {stop : Stop} (hbuf : buf ≠ [])
    (h : elementAt buf = .error stop) : joinFrom joined buf = .error stop := by
  rw [joinFrom, if_neg hbuf]
  split
  · next hturn =>
      cases h.symm.trans hturn
      rfl
  · next hturn => cases h.symm.trans hturn

/-- A turn over a frame appends the body of one element, if it is a WFD one. -/
theorem joinFrom_of_ok {joined : Bytes} {element : Element}
    (h : elementAt buf = .ok (element, rest)) :
    joinFrom joined buf = joinFrom (joined ++ wfdBodies [element]) rest := by
  have hbuf : buf ≠ [] := by
    rintro rfl
    cases h
  rw [joinFrom, if_neg hbuf]
  split
  · next hturn => cases h.symm.trans hturn
  · next element' rest' hturn =>
      cases h.symm.trans hturn
      by_cases hwfd : element.isWfd
      · simp [wfdBodies, hwfd]
      · simp [wfdBodies, hwfd]

/-- The bodies are joined in the order of the elements. -/
theorem wfdBodies_cons (element : Element) (frame : List Element) :
    wfdBodies (element :: frame) = wfdBodies [element] ++ wfdBodies frame := by
  by_cases hwfd : element.isWfd
  · simp [wfdBodies, hwfd]
  · simp [wfdBodies, hwfd]

/-- **The subelements** of a body that is read are the ones written there. -/
theorem parseFrom_eq_ok {subs : List Subelement} : parseFrom buf = .ok subs ↔
      (∀ sub ∈ subs, sub.WellFormed) ∧ buf = subs.flatMap Subelement.bytes := by
  constructor
  · intro h
    induction hlength : buf.length using Nat.strong_induction_on generalizing buf subs with
    | _ n ih =>
      by_cases hbuf : buf = []
      · subst hbuf
        rw [parseFrom_nil] at h
        cases h
        exact ⟨forall_mem_nil _, rfl⟩
      · cases hturn : subelementAt buf with
        | error stop =>
          rw [parseFrom_of_error hbuf hturn] at h
          cases h
        | ok pair =>
          obtain ⟨sub, rest⟩ := pair
          rw [parseFrom_of_ok hturn] at h
          cases hrest : parseFrom rest with
          | error stop =>
            rw [hrest] at h
            cases h
          | ok others =>
            rw [hrest] at h
            cases h
            obtain ⟨hsub, hsplit⟩ := subelementAt_ok hturn
            have hshorter := rest_of_subelementAt hturn
            obtain ⟨hall, hothers⟩ := ih rest.length (hlength ▸ hshorter) hrest rfl
            refine ⟨forall_mem_cons.mpr ⟨hsub, hall⟩, ?_⟩
            rw [flatMap_cons, ← hothers]
            exact hsplit
  · rintro ⟨hall, rfl⟩
    induction subs with
    | nil => exact parseFrom_nil
    | cons sub subs ih =>
      rw [forall_mem_cons] at hall
      rw [flatMap_cons, parseFrom_of_ok (subelementAt_append hall.1), ih hall.2]
      rfl

/-- **A frame that is read** is a row of elements; what is joined are their
bodies. -/
theorem joinFrom_eq_ok {joined out : Bytes} : joinFrom joined buf = .ok out ↔
      ∃ frame : List Element, (∀ element ∈ frame, element.body.length ≤ 255) ∧
        buf = frame.flatMap Element.bytes ∧ out = joined ++ wfdBodies frame := by
  constructor
  · intro h
    induction hlength : buf.length using Nat.strong_induction_on generalizing buf joined with
    | _ n ih =>
      by_cases hbuf : buf = []
      · subst hbuf
        rw [joinFrom_nil] at h
        cases h
        exact ⟨[], forall_mem_nil _, rfl, (append_nil _).symm⟩
      · cases hturn : elementAt buf with
        | error stop =>
          rw [joinFrom_of_error hbuf hturn] at h
          cases h
        | ok pair =>
          obtain ⟨element, rest⟩ := pair
          rw [joinFrom_of_ok hturn] at h
          obtain ⟨helement, hsplit⟩ := elementAt_ok hturn
          have hshorter := rest_of_elementAt hturn
          obtain ⟨frame, hall, hframe, hout⟩ := ih rest.length (hlength ▸ hshorter) h rfl
          refine ⟨element :: frame, forall_mem_cons.mpr ⟨helement, hall⟩, ?_, ?_⟩
          · rw [flatMap_cons, ← hframe]
            exact hsplit
          · rw [hout, append_assoc, ← wfdBodies_cons]
  · rintro ⟨frame, hall, rfl, rfl⟩
    induction frame generalizing joined with
    | nil =>
      rw [flatMap_nil, joinFrom_nil]
      exact congrArg Except.ok (append_nil _).symm
    | cons element frame ih =>
      rw [forall_mem_cons] at hall
      rw [flatMap_cons, joinFrom_of_ok (elementAt_append hall.1), ih hall.2,
        append_assoc, ← wfdBodies_cons]

theorem parseFrom_ne_fault (buf : Bytes) : parseFrom buf ≠ .error .fault := by
  induction hlength : buf.length using Nat.strong_induction_on generalizing buf with
  | _ n ih =>
    intro h
    by_cases hbuf : buf = []
    · rw [hbuf, parseFrom_nil] at h
      cases h
    · cases hturn : subelementAt buf with
      | error stop =>
        rw [parseFrom_of_error hbuf hturn] at h
        cases h
        exact subelementAt_ne_fault _ hturn
      | ok pair =>
        rw [parseFrom_of_ok hturn] at h
        have hshorter := rest_of_subelementAt hturn
        cases hrest : parseFrom pair.2 with
        | error stop =>
          rw [hrest] at h
          cases h
          exact ih _ (hlength ▸ hshorter) _ rfl hrest
        | ok subs =>
          rw [hrest] at h
          cases h

theorem joinFrom_ne_fault (joined buf : Bytes) : joinFrom joined buf ≠ .error .fault := by
  induction hlength : buf.length using Nat.strong_induction_on generalizing buf joined with
  | _ n ih =>
    intro h
    by_cases hbuf : buf = []
    · rw [hbuf, joinFrom_nil] at h
      cases h
    · cases hturn : elementAt buf with
      | error stop =>
        rw [joinFrom_of_error hbuf hturn] at h
        cases h
        exact elementAt_ne_fault _ hturn
      | ok pair =>
        rw [joinFrom_of_ok hturn] at h
        exact ih _ (hlength ▸ rest_of_elementAt hturn) _ _ rfl h

/-! ## A frame -/

namespace WfdInformationElement

variable {ie : WfdInformationElement}

/-- The subelements found are those whose encoding the frame's elements carry
between them. -/
theorem parseFrame_eq_ok : parseFrame buf = .ok ie ↔
      ∃ frame : List Element, (∀ element ∈ frame, element.body.length ≤ 255) ∧
        buf = frame.flatMap Element.bytes ∧ wfdBodies frame ≠ [] ∧
        wfdBodies frame = ie.toSubelements ∧ ∀ sub ∈ ie.subelements, sub.WellFormed := by
  unfold parseFrame
  rw [bind_eq_ok]
  constructor
  · rintro ⟨joined, hjoin, h⟩
    obtain ⟨frame, hall, hbuf, rfl⟩ := joinFrom_eq_ok.mp hjoin
    rw [nil_append] at h
    split at h
    · cases h
    · next hne =>
        obtain ⟨subs, hsubs, h⟩ := bind_eq_ok.mp h
        cases h
        obtain ⟨hformed, hbodies⟩ := parseFrom_eq_ok.mp hsubs
        exact ⟨frame, hall, hbuf, hne, hbodies, hformed⟩
  · rintro ⟨frame, hall, hbuf, hne, hbodies, hformed⟩
    refine ⟨wfdBodies frame, joinFrom_eq_ok.mpr ⟨frame, hall, hbuf, rfl⟩, ?_⟩
    rw [if_neg hne, parseSubelements, parseFrom_eq_ok.mpr ⟨hformed, hbodies⟩]
    rfl

/-- No frame faults, however it is cut or garbled. -/
theorem parseFrame_ne_fault (buf : Bytes) : parseFrame buf ≠ .error .fault := by
  intro h
  unfold parseFrame at h
  cases hjoin : joinFrom [] buf with
  | error stop =>
    rw [hjoin] at h
    cases h
    exact joinFrom_ne_fault _ _ hjoin
  | ok joined =>
    rw [hjoin, ok_bind] at h
    split at h
    · cases h
    · unfold parseSubelements at h
      cases hsubs : parseFrom joined with
      | error stop =>
        rw [hsubs] at h
        cases h
        exact parseFrom_ne_fault _ hsubs
      | ok subs =>
        rw [hsubs] at h
        cases h

/-! ## The elements that are written -/

/-- The element that carries a chunk behind the OUI and its type. -/
def wfdElement (chunk : Bytes) : Element := ⟨elementId, ouiWfa ++ ouiTypeWfd :: chunk⟩

/-- A chunk that fits is written as that element. -/
theorem elementOf_eq {chunk : Bytes} (h : chunk.length ≤ maxSubelementsPerIe) :
    elementOf chunk = (wfdElement chunk).bytes := by
  have hlt : chunk.length + 4 < 2 ^ 8 := by
    unfold maxSubelementsPerIe at h
    omega
  have hlength : (wfdElement chunk).body.length = chunk.length + 4 := rfl
  rw [elementOf, if_pos hlt, Element.bytes, hlength]
  rfl

theorem isWfd_wfdElement (chunk : Bytes) : (wfdElement chunk).isWfd := by
  simp [Element.isWfd, wfdElement, rangeAt, ouiWfa]

/-- The elements of `to_elements`, before they are written. -/
def wfdElements (ie : WfdInformationElement) : List Element :=
  (chunksOf maxSubelementsPerIe ie.toSubelements).map wfdElement

/-- What the encoder writes is a row of such elements. -/
theorem elements_eq (ie : WfdInformationElement) :
    ie.elements = ie.wfdElements.map Element.bytes := by
  rw [elements, wfdElements, map_map]
  apply map_congr_left
  intro chunk hchunk
  exact elementOf_eq (length_le_of_mem_chunksOf hchunk)

theorem length_body_le {element : Element} (h : element ∈ ie.wfdElements) :
    element.body.length ≤ 255 := by
  obtain ⟨chunk, hchunk, rfl⟩ := mem_map.mp h
  have hlength := length_le_of_mem_chunksOf hchunk
  unfold maxSubelementsPerIe at hlength
  have hbody : (wfdElement chunk).body.length = chunk.length + 4 := rfl
  omega

theorem toSubelements_ne_nil (h : ie.subelements ≠ []) : ie.toSubelements ≠ [] := by
  unfold toSubelements
  cases hsubs : ie.subelements with
  | nil => exact absurd hsubs h
  | cons sub subs =>
    rw [flatMap_cons, Subelement.bytes]
    exact cons_ne_nil _ _

/-- The bodies of the elements written are the subelements again. -/
theorem wfdBodies_wfdElements (ie : WfdInformationElement) :
    ie.wfdElements.flatMap (fun element => element.body.drop 4) = ie.toSubelements := by
  rw [wfdElements, flatMap_map]
  conv_rhs => rw [← @flatten_chunksOf _ maxSubelementsPerIe (by decide) ie.toSubelements]
  exact flatMap_id'

/-- An element set among others in a frame is read back, wherever it was cut. -/
theorem parseFrame_merges {others frame : List Element} (hne : ie.subelements ≠ [])
    (hformed : ∀ sub ∈ ie.subelements, sub.WellFormed)
    (hothers : ∀ element ∈ others, element.isWfd = false ∧ element.body.length ≤ 255)
    (hframe : Merges others ie.wfdElements frame) :
    parseFrame (frame.flatMap Element.bytes) = .ok ie := by
  have hours (element : Element) (h : element ∈ ie.wfdElements) : element.isWfd := by
    obtain ⟨chunk, -, rfl⟩ := mem_map.mp h
    exact isWfd_wfdElement chunk
  have hfilter : frame.filter Element.isWfd = ie.wfdElements :=
    hframe.filter_eq (fun element h => (hothers element h).1) hours
  have hbodies : wfdBodies frame = ie.toSubelements := by
    rw [wfdBodies, hfilter, wfdBodies_wfdElements]
  refine parseFrame_eq_ok.mpr ⟨frame, ?_, rfl, ?_, hbodies, hformed⟩
  · exact hframe.forall_mem (fun element h => (hothers element h).2) fun _ => length_body_le
  · rw [hbodies]
    exact toSubelements_ne_nil hne

end WfdInformationElement

open WfdInformationElement in
/-- A set of subelements that is cut into elements and put among others in a
frame is read back exactly.  Each element says its length, and what is read from
any bytes at all is what the Wi-Fi Display elements among them carry. -/
theorem split_element_restored {ie : WfdInformationElement} {others : List Element}
    {frame : List Bytes} (hne : ie.subelements ≠ [])
    (hformed : ∀ sub ∈ ie.subelements, sub.id.Canonical ∧ sub.body.length ≤ 65535)
    (hothers : ∀ element ∈ others, element.isWfd = false ∧ element.body.length ≤ 255)
    (hframe : Merges (others.map Element.bytes) ie.elements frame) :
    parseFrame frame.flatten = .ok ie ∧
      ie.toElements = ie.elements.flatten ∧
      (∀ element ∈ ie.elements, ∃ body : Bytes, body.length ≤ 255 ∧
        element = elementId :: UInt8.ofNat body.length :: body) ∧
      ∀ bytes : Bytes, parseFrame bytes ≠ .error .fault ∧
        ∀ found, parseFrame bytes = .ok found →
          ∃ elements : List Element, (∀ element ∈ elements, element.body.length ≤ 255) ∧
            bytes = elements.flatMap Element.bytes ∧
            found.toSubelements = wfdBodies elements := by
  rw [elements_eq] at hframe ⊢
  obtain ⟨whole, hwhole, rfl⟩ := hframe.of_map
  refine ⟨parseFrame_merges hne hformed hothers hwhole, ?_, ?_, fun bytes => ⟨?_, ?_⟩⟩
  · rw [toElements, elements_eq]
  · intro element helement
    obtain ⟨source, hsource, rfl⟩ := mem_map.mp helement
    obtain ⟨chunk, -, rfl⟩ := mem_map.mp hsource
    exact ⟨_, length_body_le hsource, rfl⟩
  · exact parseFrame_ne_fault bytes
  · intro found hfound
    obtain ⟨elements, hall, hbytes, -, hbodies, -⟩ := parseFrame_eq_ok.mp hfound
    exact ⟨elements, hall, hbytes, hbodies.symm⟩

/-- A device information of six bytes and a body of 300, around Wi-Fi Direct's
element. -/
theorem split_element_restored_long :
    let ie : WfdInformationElement :=
      ⟨[⟨.deviceInformation, [0, 0x51, 0x1C, 0x44, 0, 200]⟩, ⟨.other 2, List.replicate 300 7⟩]⟩
    let other : Element := ⟨0xDD, [0x50, 0x6F, 0x9A, 0x09, 1]⟩
    ∃ first last : Bytes, ie.elements = [first, last] ∧
      WfdInformationElement.parseFrame (first ++ other.bytes ++ last) = .ok ie := by
  intro ie other
  have htwo : ie.elements.length = 2 := by decide +kernel
  obtain ⟨first, last, hsplit⟩ := length_eq_two.mp htwo
  refine ⟨first, last, hsplit, ?_⟩
  have hformed : ∀ sub ∈ ie.subelements, sub.id.Canonical ∧ sub.body.length ≤ 65535 := by
    intro sub hsub
    rcases mem_cons.mp hsub with rfl | hsub
    · exact ⟨trivial, by decide⟩
    · obtain rfl := mem_singleton.mp hsub
      refine ⟨show (2 : UInt8) ∉ [0, 1, 6, 7, 8, 9, 10, 11] by decide, ?_⟩
      rw [length_replicate]
      decide
  have hothers : ∀ element ∈ [other], element.isWfd = false ∧ element.body.length ≤ 255 := by
    simp [other, Element.isWfd, rangeAt, ouiWfa, ouiTypeWfd]
  have hframe : Merges ([other].map Element.bytes) ie.elements [first, other.bytes, last] := by
    rw [hsplit]
    exact .right _ (.left _ (.right _ .nil))
  have h := (split_element_restored (cons_ne_nil _ _) hformed hothers hframe).1
  have hflat : [first, other.bytes, last].flatten = first ++ other.bytes ++ last := by simp
  rwa [hflat] at h

end Castaway.Ie
