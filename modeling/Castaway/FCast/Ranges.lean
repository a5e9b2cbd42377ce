import Castaway.FCast.Windows

/-!
# Ranges of a companion resource

What the route answers, by what is known of the size and what the header asks
(`route_unsatisfiable`, `route_sized`, `route_unsized`), and with it the whole
of a request: `companionRoute_serves_iff` says when the body is the bytes that
were asked for, and its length what the headers say.
-/

namespace Castaway.FCast

open Castaway.AirPlay (Text)

variable {content : Bytes} {info : CompanionInfo} {range : Option Text}
  {requested : Option (ℕ × Option ℕ)} {start : ℕ} {end_ : Option ℕ}

/-! ## The header -/

theorem unsigned_lt {bits n : ℕ} {t : Text} (h : Text.unsigned bits t = some n) : n < 2 ^ bits := by
  unfold Text.unsigned at h
  dsimp only at h
  split at h
  · cases h
  · split at h
    · next hlt =>
        cases h
        exact hlt
    · cases h

/-- What a range is: 64-bit positions, and not inverted. -/
theorem parseByteRange_bounds {header : Text} (h : parseByteRange header = some (start, end_)) :
    start < 2 ^ 64 ∧ ∀ e, end_ = some e → start ≤ e ∧ e < 2 ^ 64 := by
  unfold parseByteRange at h
  dsimp only at h
  obtain ⟨spec, -, h⟩ := Option.bind_eq_some_iff.mp h
  obtain ⟨⟨from_, to_⟩, -, h⟩ := Option.bind_eq_some_iff.mp h
  obtain ⟨first, hfirst, h⟩ := Option.bind_eq_some_iff.mp h
  dsimp only at h
  split at h
  · cases h
    exact ⟨unsigned_lt hfirst, fun e he => by cases he⟩
  · obtain ⟨last, hlast, h⟩ := Option.bind_eq_some_iff.mp h
    split at h
    · cases h
    · next hle =>
        cases h
        refine ⟨unsigned_lt hfirst, fun e he => ?_⟩
        cases he
        exact ⟨not_lt.mp hle, unsigned_lt hlast⟩

/-! ## The route -/

/-- The headers of a body, when its length is a 64-bit number. -/
def headOf (info : CompanionInfo) (requested : Option (ℕ × Option ℕ)) (start : ℕ)
    (end_ : Option ℕ) : Head where
  partialContent := requested.isSome
  contentType := headerValue info.contentType
  contentLength := end_.map fun e => e - start + 1
  contentRange := end_.bind fun e =>
    if requested.isSome then
      some ("bytes " ++ toString start ++ "-" ++ toString e ++ "/" ++
        (info.size.map fun size => toString size.toNat).getD "*")
    else none

theorem head_eq (hlength : ∀ e, end_ = some e → e - start + 1 < 2 ^ 64) :
    head info requested start end_ = .ok (headOf info requested start end_) := by
  cases end_ with
  | none => rfl
  | some e =>
    rw [head, checkedAdd_of_lt (hlength e rfl)]
    rfl

def respond (info : CompanionInfo) (requested : Option (ℕ × Option ℕ)) : Except Overflow Served :=
  match info.size.map UInt64.toNat with
  | some size =>
    if requested.isSome ∧ size ≤ (requested.map Prod.fst).getD 0 then
      pure (.notSatisfiable ("bytes */" ++ toString size))
    else do
      let end_ ← lastByte requested (some size)
      let head ← head info requested ((requested.map Prod.fst).getD 0) end_
      pure (.body head ((requested.map Prod.fst).getD 0) end_)
  | none => do
      let end_ ← lastByte requested none
      let head ← head info requested ((requested.map Prod.fst).getD 0) end_
      pure (.body head ((requested.map Prod.fst).getD 0) end_)

theorem companionRoute_ok (info : CompanionInfo) (range : Option Text) :
    companionRoute (.ok info) range = respond info (range.bind parseByteRange) := rfl

theorem respond_unsatisfiable {size : UInt64} (hsize : info.size = some size)
    (hrequested : requested = some (start, end_)) (hpast : size.toNat ≤ start) :
    respond info requested = .ok (.notSatisfiable ("bytes */" ++ toString size.toNat)) := by
  subst hrequested
  rw [respond, hsize]
  exact if_pos ⟨rfl, hpast⟩

theorem lastByte_sized {size : ℕ} (hsome : 0 < size) (requested : Option (ℕ × Option ℕ)) :
    lastByte requested (some size) =
      .ok (some (capped (requested.bind Prod.snd) (size - 1))) := by
  unfold lastByte
  cases requested.bind Prod.snd with
  | none | some e =>
    dsimp only
    rw [checkedSub_of_le hsome]
    rfl

/-- A range of a resource whose size is known. -/
theorem respond_sized {size : UInt64} (hsize : info.size = some size)
    (hin : (requested.map Prod.fst).getD 0 < size.toNat) : respond info requested =
      .ok (.body
        (headOf info requested ((requested.map Prod.fst).getD 0)
          (some (capped (requested.bind Prod.snd) (size.toNat - 1))))
        ((requested.map Prod.fst).getD 0)
        (some (capped (requested.bind Prod.snd) (size.toNat - 1)))) := by
  have hsome : 0 < size.toNat := Nat.zero_lt_of_lt hin
  have hlt := size.toNat_lt
  have hcapped := capped_le (requested.bind Prod.snd) (size.toNat - 1)
  rw [respond, hsize, Option.map_some]
  dsimp only
  rw [if_neg (fun h => absurd h.2 (not_le.mpr hin)), lastByte_sized hsome, ok_bind, head_eq]
  · rfl
  · intro e he
    cases he
    omega

theorem respond_empty (hsize : info.size = some 0) : respond info none = .error .overflow := by
  rw [respond, hsize]
  rfl

theorem respond_unsized (hsize : info.size = none)
    (hlength : ∀ e, requested.bind Prod.snd = some e →
      e - (requested.map Prod.fst).getD 0 + 1 < 2 ^ 64) : respond info requested =
      .ok (.body
        (headOf info requested ((requested.map Prod.fst).getD 0) (requested.bind Prod.snd))
        ((requested.map Prod.fst).getD 0) (requested.bind Prod.snd)) := by
  have hlast : lastByte requested none = .ok (requested.bind Prod.snd) := by
    unfold lastByte
    cases requested.bind Prod.snd <;> rfl
  rw [respond, hsize, Option.map_none]
  dsimp only
  rw [hlast, ok_bind, head_eq hlength]
  rfl

theorem respond_longest (hsize : info.size = none) :
    respond info (some (0, some (2 ^ 64 - 1))) = .error .overflow := by
  have hlast : lastByte (some (0, some (2 ^ 64 - 1))) none = .ok (some (2 ^ 64 - 1)) := rfl
  rw [respond, hsize, Option.map_none]
  dsimp only
  rw [hlast, ok_bind, head, checkedAdd_of_le]
  · rfl
  · decide

/-! ## The whole request -/

def asked (content : Bytes) : Option (ℕ × Option ℕ) → Bytes
  | some (start, end_) => rest content start end_
  | none => content

inductive Serves (content : Bytes) (info : CompanionInfo) (requested : Option (ℕ × Option ℕ))
    (read : ℕ → ℕ → Answer) : Except Overflow Served → Prop where
  | notSatisfiable {start : ℕ} {end_ : Option ℕ} (hsize : info.size.isSome)
      (hrequested : requested = some (start, end_)) (hpast : content.length ≤ start) :
      Serves content info requested read
        (.ok (.notSatisfiable ("bytes */" ++ toString content.length)))
  | body {head : Head} {start : ℕ} {end_ : Option ℕ} {polls : ℕ} {chunks : List Bytes}
      (hstream : resourceStream read end_ polls (some start) = .ok (chunks.map .ok, none))
      (hbytes : chunks.flatten = asked content requested)
      (hshort : chunks.flatten.length ≤ content.length)
      (hlength : info.size.isSome → head.contentLength = some chunks.flatten.length)
      (hrange : info.size.isSome → head.contentRange =
        if requested.isSome then
          some ("bytes " ++ toString start ++ "-" ++
            toString (start + chunks.flatten.length - 1) ++ "/" ++ toString content.length)
        else none) :
      Serves content info requested read (.ok (.body head start end_))

/-- No sum or difference of the request leaves 64 bits. -/
structure Servable (content : Bytes) (size : Option UInt64) (requested : Option (ℕ × Option ℕ)) :
    Prop where
  /-- All of an empty resource is not asked for. -/
  nonempty : size = some 0 → requested ≠ none
  /-- All that 64 bits can number is not asked for. -/
  counted : size = none → requested ≠ some (0, some (2 ^ 64 - 1))
  /-- Every window that the request and the resource reach ends below `2 ^ 64`.
  -/
  roomy : ∀ k at_, at_ = (requested.map Prod.fst).getD 0 + k * readWindow →
    (k = 0 ∨ at_ ≤ content.length) →
    (∀ e, requested.bind Prod.snd = some e → at_ ≤ e) →
    (size.isSome → at_ < content.length) → at_ + readWindow < 2 ^ 64

/-- Without a known size, the windows go to the end that is asked for. -/
theorem roomy_unsized : Roomy content (requested.bind Prod.snd) ((requested.map Prod.fst).getD 0) ↔
    ∀ k at_, at_ = (requested.map Prod.fst).getD 0 + k * readWindow →
      (k = 0 ∨ at_ ≤ content.length) →
      (∀ e, requested.bind Prod.snd = some e → at_ ≤ e) →
      ((none : Option UInt64).isSome → at_ < content.length) → at_ + readWindow < 2 ^ 64 := by
  constructor
  · rintro h k _ rfl hk hend -
    exact h k hk hend
  · intro h k hk hend
    exact h k _ rfl hk hend (fun hsome => by cases hsome)

/-- With a known size, they also stay inside the resource. -/
theorem roomy_sized (size : UInt64) (hsome : 0 < content.length) :
    Roomy content (some (capped (requested.bind Prod.snd) (content.length - 1)))
        ((requested.map Prod.fst).getD 0) ↔
      ∀ k at_, at_ = (requested.map Prod.fst).getD 0 + k * readWindow →
        (k = 0 ∨ at_ ≤ content.length) →
        (∀ e, requested.bind Prod.snd = some e → at_ ≤ e) →
        ((some size).isSome → at_ < content.length) → at_ + readWindow < 2 ^ 64 := by
  constructor
  · rintro h k _ rfl hk hend hin
    refine h k hk fun e he => ?_
    cases he
    have := hin rfl
    exact le_capped hend (by omega)
  · intro h k hk hend
    have hle := hend _ rfl
    have hcapped := capped_le (requested.bind Prod.snd) (content.length - 1)
    exact h k _ rfl hk (fun e he => hle.trans (capped_le_end he)) (fun _ => by omega)

theorem asked_eq (content : Bytes) (requested : Option (ℕ × Option ℕ)) : asked content requested =
      rest content ((requested.map Prod.fst).getD 0) (requested.bind Prod.snd) := by
  cases requested with
  | none | some range => rfl

theorem rest_capped (hsome : 0 < content.length) (start : ℕ) (end_ : Option ℕ) :
    rest content start (some (capped end_ (content.length - 1))) = rest content start end_ := by
  cases end_ with
  | none =>
    change window content start (content.length - 1) = content.drop start
    rw [window, List.take_of_length_le]
    rw [List.length_drop]
    omega
  | some e =>
    change window content start (min e (content.length - 1)) = window content start e
    rw [window, window, List.take_eq_take_iff, List.length_drop]
    omega

theorem length_rest_le (content : Bytes) (start : ℕ) (end_ : Option ℕ) :
    (rest content start end_).length ≤ content.length := by
  cases end_ with
  | none =>
    rw [rest, List.length_drop]
    omega
  | some e =>
    rw [rest, length_window]
    omega

variable {read : ℕ → ℕ → Answer}

theorem serves_unsized_iff (hread : ∀ at_ last, read at_ last = .data (window content at_ last))
    (hinfo : info.size = none) (hbounds : ∀ start end_, requested = some (start, end_) →
      start < 2 ^ 64 ∧ ∀ e, end_ = some e → start ≤ e ∧ e < 2 ^ 64) :
    Serves content info requested read (respond info requested) ↔
      Servable content none requested := by
  by_cases hlongest : requested = some (0, some (2 ^ 64 - 1))
  · subst hlongest
    rw [respond_longest hinfo]
    constructor
    · intro h
      cases h
    · intro h
      exact absurd rfl (h.counted rfl)
  have hlength : ∀ e, requested.bind Prod.snd = some e →
      e - (requested.map Prod.fst).getD 0 + 1 < 2 ^ 64 := fun e he => by
    obtain ⟨⟨start, end_⟩, hrequested, hend⟩ := Option.bind_eq_some_iff.mp he
    obtain ⟨-, hlast⟩ := hbounds start end_ hrequested
    obtain ⟨hle, hlt⟩ := hlast e hend
    subst hrequested hend
    change e - start + 1 < 2 ^ 64
    by_contra hlong
    obtain ⟨rfl, rfl⟩ : start = 0 ∧ e = 2 ^ 64 - 1 := by omega
    exact hlongest rfl
  rw [respond_unsized hinfo hlength]
  constructor
  · intro h
    cases h with
    | body hstream =>
      refine ⟨fun hzero => ?_, fun _ => hlongest,
        roomy_unsized.mp (roomy_of_stream hread hstream)⟩
      cases hzero
  · intro h
    obtain ⟨polls, chunks, hstream, hflat⟩ := exists_stream hread (roomy_unsized.mpr h.roomy)
    refine .body hstream (hflat.trans (asked_eq content requested).symm) ?_ ?_ ?_
    · rw [hflat]
      exact length_rest_le _ _ _
    · rw [hinfo]
      exact fun h => by cases h
    · rw [hinfo]
      exact fun h => by cases h

theorem serves_sized_iff (hread : ∀ at_ last, read at_ last = .data (window content at_ last))
    {size : UInt64} (hinfo : info.size = some size) (hsize : size.toNat = content.length)
    (hbounds : ∀ start end_, requested = some (start, end_) →
      start < 2 ^ 64 ∧ ∀ e, end_ = some e → start ≤ e ∧ e < 2 ^ 64) :
    Serves content info requested read (respond info requested) ↔
      Servable content (some size) requested := by
  by_cases hin : (requested.map Prod.fst).getD 0 < content.length
  · have hsome : 0 < content.length := Nat.zero_lt_of_lt hin
    rw [respond_sized hinfo (hsize ▸ hin), hsize]
    constructor
    · intro h
      cases h with
      | body hstream =>
        refine ⟨fun hzero => ?_, fun hnone => ?_,
          (roomy_sized size hsome).mp (roomy_of_stream hread hstream)⟩
        · cases hzero
          rw [← hsize] at hsome
          exact absurd hsome (lt_irrefl 0)
        · cases hnone
    · intro h
      obtain ⟨polls, chunks, hstream, hflat⟩ :=
        exists_stream hread ((roomy_sized size hsome).mpr h.roomy)
      have hfirst : (requested.map Prod.fst).getD 0 ≤
          capped (requested.bind Prod.snd) (content.length - 1) := by
        refine le_capped (fun e he => ?_) (by omega)
        obtain ⟨⟨start, end_⟩, hrequested, hend⟩ := Option.bind_eq_some_iff.mp he
        rw [hrequested]
        exact ((hbounds start end_ hrequested).2 e hend).1
      have hlast := capped_le (requested.bind Prod.snd) (content.length - 1)
      have hlength : chunks.flatten.length =
          capped (requested.bind Prod.snd) (content.length - 1) -
            (requested.map Prod.fst).getD 0 + 1 := by
        rw [hflat, rest, length_window]
        omega
      refine .body hstream ?_ ?_ ?_ ?_
      · rw [hflat, rest_capped hsome, asked_eq]
      · rw [hflat]
        exact length_rest_le _ _ _
      · intro _
        rw [hlength]
        rfl
      · intro _
        have hend : (requested.map Prod.fst).getD 0 + chunks.flatten.length - 1 =
            capped (requested.bind Prod.snd) (content.length - 1) := by omega
        rw [hend, headOf, hinfo, ← hsize]
        rfl
  · -- a range that starts past the end, or all of nothing
    cases requested with
    | none =>
      have hempty : size = 0 := by
        rw [← UInt64.toNat_inj, hsize]
        exact Nat.eq_zero_of_not_pos hin
      subst hempty
      rw [respond_empty hinfo]
      constructor
      · intro h
        cases h
      · intro h
        exact absurd rfl (h.nonempty rfl)
    | some range =>
      obtain ⟨start, end_⟩ := range
      have hpast : content.length ≤ start := not_lt.mp hin
      rw [respond_unsatisfiable hinfo rfl (hsize ▸ hpast), hsize]
      refine iff_of_true (.notSatisfiable ?_ rfl hpast) ⟨fun _ => ?_, fun hnone => ?_, ?_⟩
      · rw [hinfo]
        rfl
      · exact Option.some_ne_none _
      · cases hnone
      · intro k at_ hat _ _ hinside
        have hle : start ≤ at_ := hat ▸ Nat.le_add_right start _
        have := hinside rfl
        omega

/-- A request that is answered right: 416, or a stream that is the bytes asked
for. -/
theorem companionRoute_serves_iff (sender : Sender content) (url : CompanionUrl)
    (requestId : ℕ → ℕ → UInt32) (info : CompanionInfo)
    (hsize : ∀ size, info.size = some size → size.toNat = content.length) (range : Option Text) :
    Serves content info (range.bind parseByteRange) (sender.answer url requestId)
        (companionRoute (.ok info) range) ↔
      Servable content info.size (range.bind parseByteRange) := by
  have hread := sender.answer_eq url requestId
  have hbounds : ∀ start end_, range.bind parseByteRange = some (start, end_) →
      start < 2 ^ 64 ∧ ∀ e, end_ = some e → start ≤ e ∧ e < 2 ^ 64 := fun start end_ h => by
    obtain ⟨header, -, hparse⟩ := Option.bind_eq_some_iff.mp h
    exact parseByteRange_bounds hparse
  rw [companionRoute_ok]
  generalize range.bind parseByteRange = requested at hbounds ⊢
  cases hinfo : info.size with
  | none => exact serves_unsized_iff hread hinfo hbounds
  | some size => exact serves_sized_iff hread hinfo (hsize size hinfo) hbounds

theorem companionRoute_serves_seek :
    Serves [10, 20, 30] ⟨"video/mp4", some 3⟩ ((some "bytes=1-".toList).bind parseByteRange)
      ((Sender.inOnePart [10, 20, 30]).answer ⟨1, 7⟩ fun _ _ => 0)
      (companionRoute (.ok ⟨"video/mp4", some 3⟩) (some "bytes=1-".toList)) :=
  (companionRoute_serves_iff (Sender.inOnePart [10, 20, 30]) ⟨1, 7⟩ (fun _ _ => 0)
    ⟨"video/mp4", some 3⟩ (fun size h => by cases h; rfl) (some "bytes=1-".toList)).mpr
    { nonempty := by decide
      counted := by decide
      roomy := fun k at_ _ _ _ hin => by
        have hlow : at_ < 3 := hin rfl
        have hwindow : readWindow = 262144 := rfl
        omega }

/-- All of an empty resource ends in an underflow. -/
theorem emptyResource_overflows :
    companionRoute (.ok ⟨"video/mp4", some 0⟩) none = .error .overflow := by
  rw [companionRoute_ok]
  exact respond_empty rfl

end Castaway.FCast
