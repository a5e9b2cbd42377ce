import Castaway.FCast.CompanionRoute

/-!
# What a companion resource is served as

A sender answers each window with the bytes it has, in parts (`Sender`), and the
parts come back together (`gather_parts`).  One window takes what it asked for
(`nextWindow_ok`), so the stream serves the resource from its start as long as
no position is within a window of `2 ^ 64` (`exists_stream`), and otherwise it
does not finish (`roomy_of_stream`).
-/

namespace Castaway.FCast

open List

/-! ## The sender -/

/-- The bytes of `content` from `at_` to `last`. -/
def window (content : Bytes) (at_ last : ℕ) : Bytes := (content.drop at_).take (last + 1 - at_)

/-- A sender that answers with the bytes it has, in at most 255 parts. -/
structure Sender (content : Bytes) where
  chunks : ℕ → ℕ → List Bytes
  some_part : ∀ at_ last, chunks at_ last ≠ []
  counted : ∀ at_ last, (chunks at_ last).length ≤ 255
  has : ∀ at_ last, (chunks at_ last).flatten = window content at_ last

namespace Sender

variable {content : Bytes}

def inOnePart (content : Bytes) : Sender content where
  chunks := fun at_ last => [window content at_ last]
  some_part := fun _ _ => cons_ne_nil _ _
  counted := fun _ _ => Nat.le_add_left 1 254
  has := fun _ _ => flatten_singleton

/-- The parts of an answer, from the one numbered `next` on. -/
def numbered (requestId : UInt32) (total next : ℕ) : List Bytes → List ResourcePart
  | [] => []
  | chunk :: chunks =>
    ⟨requestId, UInt8.ofNat next, UInt8.ofNat total, .data chunk⟩ ::
      numbered requestId total (next + 1) chunks

def answer (sender : Sender content) (url : CompanionUrl) (requestId : ℕ → ℕ → UInt32)
    (at_ last : ℕ) : Answer :=
  gather url ResourceRead.new
    (numbered (requestId at_ last) (sender.chunks at_ last).length 0 (sender.chunks at_ last))

theorem ofNat_inj {a b : ℕ} (ha : a ≤ 255) (hb : b ≤ 255) :
    UInt8.ofNat a = UInt8.ofNat b ↔ a = b := by
  rw [← UInt8.toNat_inj, UInt8.toNat_ofNat', UInt8.toNat_ofNat']
  omega

theorem push_part {requestId : UInt32} {total next : ℕ} (htotal : total ≤ 255)
    (hnext : next < total) (read : ResourceRead) (hread : read.next = UInt8.ofNat next)
    (hcount : read.total = none ∨ read.total = some (UInt8.ofNat total)) (chunk : Bytes) :
    read.push ⟨requestId, UInt8.ofNat next, UInt8.ofNat total, .data chunk⟩ =
      if next + 1 = total then
        .ok (⟨some (UInt8.ofNat total), UInt8.ofNat (next + 1), []⟩,
          .complete (read.data ++ chunk))
      else
        .ok (⟨some (UInt8.ofNat total), UInt8.ofNat (next + 1), read.data ++ chunk⟩, .more) := by
  have hzero : UInt8.ofNat total ≠ 0 := by
    rw [ne_eq, show (0 : UInt8) = UInt8.ofNat 0 from rfl, ofNat_inj htotal (by omega)]
    omega
  have hcheck : read.checkTotal ⟨requestId, UInt8.ofNat next, UInt8.ofNat total, .data chunk⟩ =
      .ok (UInt8.ofNat total) := by
    rcases hcount with h | h
    · rw [ResourceRead.checkTotal, h]
    · rw [ResourceRead.checkTotal, h]
      exact if_neg (not_not.mpr rfl)
  have hroom : UInt8.ofNat next ≠ 255 := by
    rw [ne_eq, show (255 : UInt8) = UInt8.ofNat 255 from rfl, ofNat_inj (by omega) (by omega)]
    omega
  have hlast : (if read.next = 255 then 255 else read.next + 1) = UInt8.ofNat (next + 1) := by
    rw [hread, if_neg hroom, UInt8.ofNat_add]
    rfl
  rw [ResourceRead.push]
  dsimp only
  rw [if_neg hzero, hcheck]
  dsimp only
  rw [hread, if_neg (not_not.mpr rfl), ← hread, hlast]
  by_cases hend : next + 1 = total
  · rw [if_pos hend, if_pos (congrArg UInt8.ofNat hend)]
  · rw [if_neg hend, if_neg (mt (ofNat_inj (by omega) htotal).mp hend)]

theorem gather_numbered (url : CompanionUrl) (requestId : UInt32) {total : ℕ}
    (htotal : total ≤ 255) (chunks : List Bytes) (read : ResourceRead) {next : ℕ}
    (hnext : read.next = UInt8.ofNat next) (hleft : next + chunks.length = total)
    (hsome : chunks ≠ []) (hcount : read.total = none ∨ read.total = some (UInt8.ofNat total)) :
    gather url read (numbered requestId total next chunks) =
      .data (read.data ++ chunks.flatten) := by
  induction chunks generalizing read next with
  | nil => exact absurd rfl hsome
  | cons chunk chunks ih =>
    rw [length_cons] at hleft
    rw [numbered, gather, push_part htotal (by omega) read hnext hcount]
    by_cases hlast : next + 1 = total
    · have hnil : chunks = [] := eq_nil_of_length_eq_zero (by omega)
      rw [if_pos hlast, hnil, flatten_cons, flatten_nil, append_nil]
    · have hmore : chunks ≠ [] := by
        rintro rfl
        exact hlast (by simpa using hleft)
      rw [if_neg hlast]
      dsimp only
      rw [ih _ rfl (by omega) hmore (.inr rfl), flatten_cons, append_assoc]

/-- The parts come back together. -/
@[simp] theorem answer_eq (sender : Sender content) (url : CompanionUrl)
    (requestId : ℕ → ℕ → UInt32) (at_ last : ℕ) :
    sender.answer url requestId at_ last = .data (window content at_ last) := by
  rw [answer, gather_numbered url (requestId at_ last) (sender.counted at_ last) _ _ rfl
    (Nat.zero_add _) (sender.some_part at_ last) (.inl rfl), sender.has]
  rfl

end Sender

/-! ## One window -/

variable {content : Bytes} {read : ℕ → ℕ → Answer} {end_ : Option ℕ} {at_ : ℕ}

/-- The last byte a read asks for that would go to `full`. -/
def capped (end_ : Option ℕ) (full : ℕ) : ℕ := (end_.map (min · full)).getD full

theorem capped_le (end_ : Option ℕ) (full : ℕ) : capped end_ full ≤ full := by
  cases end_ with
  | none => exact le_refl _
  | some e => exact min_le_right _ _

theorem capped_le_end {e full : ℕ} (h : end_ = some e) : capped end_ full ≤ e := by
  subst h
  exact min_le_left _ _

theorem le_capped {full : ℕ} (h : ∀ e, end_ = some e → at_ ≤ e) (hfull : at_ ≤ full) :
    at_ ≤ capped end_ full := by
  cases end_ with
  | none => exact hfull
  | some e => exact le_min (h e rfl) hfull

theorem capped_eq (end_ : Option ℕ) (full : ℕ) :
    capped end_ full = full ∨ end_ = some (capped end_ full) := by
  cases end_ with
  | none => exact .inl rfl
  | some e =>
    rcases min_choice e full with h | h
    · exact .inr (congrArg some h.symm)
    · exact .inl h

/-- The last byte that the window at `at_` asks for. -/
def lastOf (end_ : Option ℕ) (at_ : ℕ) : ℕ := capped end_ (at_ + readWindow - 1)

theorem readWindow_pos : 0 < readWindow := by decide

theorem lastOf_le (end_ : Option ℕ) (at_ : ℕ) : lastOf end_ at_ ≤ at_ + readWindow - 1 :=
  capped_le end_ _

theorem le_lastOf (h : ∀ e, end_ = some e → at_ ≤ e) : at_ ≤ lastOf end_ at_ := by
  have hwindow := readWindow_pos
  apply le_capped h
  omega

/-- What a poll at `at_` comes to. -/
inductive Polled (content : Bytes) (end_ : Option ℕ) (at_ : ℕ) :
    Except Overflow (Option Window) → Prop where
  | past {e : ℕ} (hend : end_ = some e) (hpast : e < at_) : Polled content end_ at_ (.ok none)
  | overflow (hin : ∀ e, end_ = some e → at_ ≤ e) (hfar : 2 ^ 64 ≤ at_ + readWindow) :
      Polled content end_ at_ (.error .overflow)
  | empty (hroom : at_ + readWindow < 2 ^ 64) (hover : content.length ≤ at_) :
      Polled content end_ at_ (.ok none)
  | short (hroom : at_ + readWindow < 2 ^ 64) (hin : at_ ≤ lastOf end_ at_)
      (hover : content.length ≤ lastOf end_ at_) :
      Polled content end_ at_ (.ok (some (.ok (content.drop at_), none)))
  | full (hroom : at_ + readWindow < 2 ^ 64) (hin : at_ ≤ lastOf end_ at_)
      (hmore : lastOf end_ at_ < content.length) :
      Polled content end_ at_
        (.ok (some (.ok (window content at_ (lastOf end_ at_)), some (lastOf end_ at_ + 1))))

theorem length_window (content : Bytes) (at_ last : ℕ) :
    (window content at_ last).length = min (last + 1 - at_) (content.length - at_) := by
  rw [window, length_take, length_drop]

theorem polled (hread : ∀ at_ last, read at_ last = .data (window content at_ last))
    (end_ : Option ℕ) (at_ : ℕ) : Polled content end_ at_ (nextWindow read end_ at_) := by
  have hwindow := readWindow_pos
  unfold nextWindow
  by_cases hpast : end_.any (· < at_)
  · obtain ⟨e, hend, hlt⟩ := (Option.any_eq_true _ _).mp hpast
    rw [if_pos hpast]
    exact .past hend (of_decide_eq_true hlt)
  rw [if_neg hpast]
  have hin : ∀ e, end_ = some e → at_ ≤ e := fun e hend => by
    rw [hend] at hpast
    simpa using hpast
  by_cases hroom : at_ + readWindow < 2 ^ 64
  · have hfirst := le_lastOf hin
    have hlast := lastOf_le end_ at_
    have hfold : (end_.map (min · (at_ + readWindow - 1))).getD (at_ + readWindow - 1) =
        lastOf end_ at_ := rfl
    rw [checkedAdd_of_lt hroom, ok_bind, checkedSub_of_le (by omega), ok_bind]
    dsimp only
    rw [hfold]
    have hlength := length_window content at_ (lastOf end_ at_)
    have hwant : lastOf end_ at_ - at_ + 1 < 2 ^ 64 := by omega
    have hnext : at_ + (window content at_ (lastOf end_ at_)).length < 2 ^ 64 := by omega
    rw [checkedSub_of_le hfirst, ok_bind, checkedAdd_of_lt hwant, ok_bind, hread]
    dsimp only
    by_cases hempty : (window content at_ (lastOf end_ at_)).isEmpty
    · rw [if_pos hempty]
      rw [isEmpty_iff_length_eq_zero, hlength] at hempty
      exact .empty hroom (by omega)
    · rw [if_neg hempty, checkedAdd_of_lt hnext, ok_bind, hlength]
      by_cases hmore : lastOf end_ at_ < content.length
      · have hsum : at_ + min (lastOf end_ at_ + 1 - at_) (content.length - at_) =
            lastOf end_ at_ + 1 := by omega
        rw [if_pos (by omega), hsum]
        exact .full hroom hfirst hmore
      · have hrest : window content at_ (lastOf end_ at_) = content.drop at_ := by
          rw [window, take_of_length_le]
          rw [length_drop]
          omega
        rw [if_neg (by omega), hrest]
        exact .short hroom hfirst (not_lt.mp hmore)
  · rw [checkedAdd_of_le (not_lt.mp hroom)]
    exact .overflow hin (not_lt.mp hroom)

/-! ## The stream -/

/-- The bytes from `at_` to the end that is asked for, or to the end of the
resource. -/
def rest (content : Bytes) (at_ : ℕ) : Option ℕ → Bytes
  | some e => window content at_ e
  | none => content.drop at_

/-- Every window from `at_` on that the resource has bytes up to starts a window
short of `2 ^ 64`. -/
def Roomy (content : Bytes) (end_ : Option ℕ) (at_ : ℕ) : Prop :=
  ∀ k, (k = 0 ∨ at_ + k * readWindow ≤ content.length) →
    (∀ e, end_ = some e → at_ + k * readWindow ≤ e) →
    at_ + k * readWindow + readWindow < 2 ^ 64

/-- After a window, the rest of the resource follows. -/
theorem window_append_rest (hin : at_ ≤ lastOf end_ at_) :
    window content at_ (lastOf end_ at_) ++ rest content (lastOf end_ at_ + 1) end_ =
      rest content at_ end_ := by
  have hdrop : content.drop (lastOf end_ at_ + 1) =
      (content.drop at_).drop (lastOf end_ at_ + 1 - at_) := by
    rw [drop_drop]
    congr 1
    omega
  cases end_ with
  | none => rw [rest, rest, window, hdrop, take_append_drop]
  | some e =>
    have hle : lastOf (some e) at_ ≤ e := capped_le_end rfl
    have hwidth : e + 1 - at_ =
        (lastOf (some e) at_ + 1 - at_) + (e + 1 - (lastOf (some e) at_ + 1)) := by omega
    rw [rest, rest, window, window, window, hdrop, hwidth, take_add]

theorem Roomy.next (h : Roomy content end_ at_) (hmore : lastOf end_ at_ < content.length) :
    Roomy content end_ (lastOf end_ at_ + 1) := by
  have hwindow := readWindow_pos
  intro k hk hend
  rcases capped_eq end_ (at_ + readWindow - 1) with hlast | hlast
  · rw [← lastOf] at hlast
    have hshift : lastOf end_ at_ + 1 + k * readWindow = at_ + (k + 1) * readWindow := by
      rw [Nat.succ_mul]
      omega
    rw [hshift] at hk hend ⊢
    refine h (k + 1) (.inr ?_) hend
    rcases hk with rfl | hk
    · omega
    · exact hk
  · rw [← lastOf] at hlast
    have := hend _ hlast
    omega

theorem rest_of_length_le (hover : content.length ≤ at_) (end_ : Option ℕ) :
    rest content at_ end_ = [] := by
  cases end_ with
  | none => exact drop_eq_nil_of_le hover
  | some e => rw [rest, window, drop_eq_nil_of_le hover, take_nil]

theorem exists_stream (hread : ∀ at_ last, read at_ last = .data (window content at_ last))
    (h : Roomy content end_ at_) : ∃ (polls : ℕ) (chunks : List Bytes),
      resourceStream read end_ polls (some at_) = .ok (chunks.map .ok, none) ∧
        chunks.flatten = rest content at_ end_ := by
  -- each full window leaves less of the resource
  induction hleft : content.length - at_ using Nat.strong_induction_on generalizing at_ with
  | _ left ih =>
    have hpolled := polled hread end_ at_
    generalize hnext : nextWindow read end_ at_ = result at hpolled
    cases hpolled with
    | @past e hend hpast =>
      refine ⟨1, [], ?_, ?_⟩
      · rw [resourceStream, hnext]
        rfl
      · have hnone : e + 1 - at_ = 0 := by omega
        rw [hend, rest, window, hnone, take_zero, flatten_nil]
    | overflow hin hfar =>
      have hroom := h 0 (.inl rfl) (by simpa using hin)
      omega
    | empty hroom hover =>
      refine ⟨1, [], ?_, ?_⟩
      · rw [resourceStream, hnext]
        rfl
      · rw [rest_of_length_le hover, flatten_nil]
    | short hroom hin hover =>
      refine ⟨1, [content.drop at_], ?_, ?_⟩
      · rw [resourceStream, hnext]
        rfl
      · have hall := @window_append_rest content _ _ hin
        rw [rest_of_length_le (by omega), append_nil] at hall
        rw [flatten_singleton, ← hall, window, take_of_length_le]
        rw [length_drop]
        omega
    | full hroom hin hmore =>
      obtain ⟨polls, chunks, hstream, hflat⟩ :=
        ih (content.length - (lastOf end_ at_ + 1)) (by omega) (h.next hmore) rfl
      refine ⟨polls + 1, window content at_ (lastOf end_ at_) :: chunks, ?_, ?_⟩
      · rw [resourceStream, hnext, ok_bind]
        dsimp only
        rw [hstream]
        rfl
      · rw [flatten_cons, hflat, window_append_rest hin]

theorem roomy_of_stream (hread : ∀ at_ last, read at_ last = .data (window content at_ last))
    {polls : ℕ} {items : List (Except Answer Bytes)}
    (h : resourceStream read end_ polls (some at_) = .ok (items, none)) :
    Roomy content end_ at_ := by
  have hwindow := readWindow_pos
  induction polls generalizing at_ items with
  | zero => cases h
  | succ polls ih =>
    have hpolled := polled hread end_ at_
    rw [resourceStream] at h
    generalize nextWindow read end_ at_ = result at h hpolled
    intro k hk hend
    have hfirst : at_ ≤ at_ + k * readWindow := Nat.le_add_right _ _
    have hwide : k = 0 ∨
        0 < k ∧ readWindow ≤ k * readWindow ∧ at_ + k * readWindow ≤ content.length := by
      rcases Nat.eq_zero_or_pos k with hzero | hpos
      · exact .inl hzero
      · exact .inr ⟨hpos, Nat.le_mul_of_pos_left _ hpos, hk.resolve_left hpos.ne'⟩
    have hlast := lastOf_le end_ at_
    cases hpolled with
    | past hpast hlt =>
      have := hend _ hpast
      omega
    | overflow hin hfar => cases h
    | empty hroom hover | short hroom hin hover =>
      rcases hwide with rfl | ⟨-, hwide, hk⟩
      · rwa [Nat.zero_mul, Nat.add_zero]
      · omega
    | full hroom hin hmore =>
      obtain ⟨_, hok, h⟩ := bind_eq_ok.mp h
      cases hok
      obtain ⟨⟨items', next⟩, hstream, h⟩ := bind_eq_ok.mp h
      cases h
      have hnext := ih hstream
      rcases hwide with rfl | ⟨hpos, hwide, hk⟩
      · rwa [Nat.zero_mul, Nat.add_zero]
      · obtain ⟨j, rfl⟩ := Nat.exists_eq_succ_of_ne_zero hpos.ne'
        rcases capped_eq end_ (at_ + readWindow - 1) with heq | heq
        · rw [← lastOf] at heq
          have hshift : at_ + j.succ * readWindow = lastOf end_ at_ + 1 + j * readWindow := by
            rw [Nat.succ_mul]
            omega
          rw [hshift] at hk hend ⊢
          exact hnext j (.inr (by omega)) hend
        · rw [← lastOf] at heq
          have := hend _ heq
          omega

end Castaway.FCast
