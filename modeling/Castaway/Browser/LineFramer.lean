import Castaway.Lib.Bytes
import Castaway.Lib.Framing
import Mathlib.Data.List.Forall2
import Mathlib.Data.List.Induction
import Mathlib.Data.List.ReduceOption
import Mathlib.Data.List.TakeWhile

/-!
# Lines from the browser

The browser's messages come over a socket, one to a line.  `LineFramer` holds
what has come of the line that is not ended yet, and gives it up, as an error,
when it has grown past `maxLine`.

## Strategy

While no line is longer than that, how the stream was cut does not matter: the
framer is a `Framing` that is never cleared (`feed_eq`).  A longer line has no
such meaning: it is decoded like any other if it comes in one piece, and given
up if it does not, and what comes of it after that is a line of its own.
-/

namespace Castaway.Browser

open List

/-- How much unframed input to tolerate. -/
def maxLine : ℕ := 2 ^ 20

def newline : UInt8 := 10

def carriageReturn : UInt8 := 13

/-- The decoder's complaint with the start of the line, or the number of bytes
given up. -/
inductive FramerError where
  | decode (detail : String) (line : Bytes)
  | lineTooLong (bytes : ℕ)
  deriving DecidableEq

variable {μ : Type*} (decode : Bytes → Except String μ)

/-- `line.strip_suffix(b"\\r").unwrap_or(line)` -/
def stripReturn (line : Bytes) : Bytes :=
  if line.getLast? = some carriageReturn then line.dropLast else line

def decodeLine (line : Bytes) : Option (Except FramerError μ) :=
  if stripReturn line = [] then none
  else some (match decode (stripReturn line) with
    | .ok message => .ok message
    | .error detail => .error (.decode detail ((stripReturn line).take 200)))

/-- One turn of the loop of `push`: the buffer up to its first newline. -/
def nextLine (buffer : Bytes) : Next UInt8 (Except FramerError μ) Unit Empty :=
  match buffer.dropWhile (· ≠ newline) with
  | [] => .wait
  | _ :: rest => .took () (decodeLine decode (buffer.takeWhile (· ≠ newline))).toList rest

theorem nextLine_of_notMem {buffer : Bytes} (h : newline ∉ buffer) :
    nextLine decode buffer = .wait := by
  have hnone : buffer.dropWhile (· ≠ newline) = [] := by
    rw [dropWhile_eq_nil_iff]
    intro b hb
    simpa using fun heq : b = newline => h (heq ▸ hb)
  rw [nextLine, hnone]

theorem nextLine_append {line : Bytes} (h : newline ∉ line) (rest : Bytes) :
    nextLine decode (line ++ newline :: rest) = .took () (decodeLine decode line).toList rest := by
  have hall : ∀ b ∈ line, decide (b ≠ newline) = true := fun b hb => by
    simpa using fun heq : b = newline => h (heq ▸ hb)
  have htake : (line ++ newline :: rest).takeWhile (· ≠ newline) = line := by
    rw [takeWhile_append_of_pos hall]
    simp
  have hdrop : (line ++ newline :: rest).dropWhile (· ≠ newline) = newline :: rest := by
    rw [dropWhile_append_of_pos hall]
    simp
  rw [nextLine, hdrop, htake]

theorem exists_line (buffer : Bytes) :
    newline ∉ buffer ∨ ∃ line rest, newline ∉ line ∧ buffer = line ++ newline :: rest := by
  by_cases h : newline ∈ buffer
  · obtain ⟨line, rest, hsplit, hline⟩ := eq_append_cons_of_mem h
    exact Or.inr ⟨line, rest, hline, hsplit⟩
  · exact Or.inl h

/-- The loop of `push`. -/
def lineFraming : Framing UInt8 (Except FramerError μ) Unit Empty where
  next := fun _ => nextLine decode
  shrinks := by
    intro _ buffer _ _ rest h
    rcases exists_line buffer with hnone | ⟨line, more, hline, rfl⟩
    · rw [nextLine_of_notMem decode hnone] at h
      cases h
    · rw [nextLine_append decode hline] at h
      cases h
      simp only [length_append, length_cons]
      omega
  took_append := by
    intro _ buffer _ out rest h more
    rcases exists_line buffer with hnone | ⟨line, more', hline, rfl⟩
    · rw [nextLine_of_notMem decode hnone] at h
      cases h
    · rw [nextLine_append decode hline] at h
      cases h
      rw [append_assoc, cons_append, nextLine_append decode hline]
  failed_append := fun {_ _ e} _ _ => e.elim

/-- What has come of the line that is not ended. -/
structure LineFramer where
  buffer : Bytes
  deriving DecidableEq

namespace LineFramer

/-- Feed a chunk; returns each complete message it completed. -/
def push (framer : LineFramer) (chunk : Bytes) : List (Except FramerError μ) × LineFramer :=
  match (lineFraming decode).drain () (framer.buffer ++ chunk) with
  | (_, .broken e) => e.elim
  | (out, .running _ buffer) =>
    if buffer.length > maxLine then (out ++ [.error (.lineTooLong buffer.length)], ⟨[]⟩)
    else (out, ⟨buffer⟩)

def feed (framer : LineFramer) : List Bytes → List (Except FramerError μ) × LineFramer
  | [] => ([], framer)
  | chunk :: chunks =>
    let pushed := framer.push decode chunk
    let rest := feed pushed.2 chunks
    (pushed.1 ++ rest.1, rest.2)

end LineFramer

/-! ## What should come of a list of lines -/

def terminated (lines : List Bytes) : Bytes := lines.flatMap (· ++ [newline])

/-- What a line should come to: if it is too long, exactly one error. -/
def Outcome (line : Bytes) (result : Option (Except FramerError μ)) : Prop :=
  if line.length ≤ maxLine then result = decodeLine decode line
  else ∃ e, result = some (.error e)

/-- Each line comes to its result, in order, none later than its newline and
whatever the cut, and no more than `maxLine` bytes are kept between two chunks.
-/
def Survives (lines : List Bytes) : Prop :=
  ∃ results, List.Forall₂ (Outcome decode) lines results ∧
    ∀ chunks : List Bytes, chunks.flatten = terminated lines →
      (LineFramer.feed decode ⟨[]⟩ chunks).1 = results.reduceOption ∧
      ∀ k, (results.take ((chunks.take k).flatten.count newline)).reduceOption <+:
          (LineFramer.feed decode ⟨[]⟩ (chunks.take k)).1 ∧
        (LineFramer.feed decode ⟨[]⟩ (chunks.take k)).2.buffer.length ≤ maxLine

/-! ## The loop -/

section Loop

variable {decode} {lines done : List Bytes}

theorem terminated_append (xs ys : List Bytes) :
    terminated (xs ++ ys) = terminated xs ++ terminated ys :=
  flatMap_append

/-- The loop takes all lines and leaves what follows them. -/
theorem drain_terminated (hlines : ∀ line ∈ lines, newline ∉ line)
    {tail : Bytes} (htail : newline ∉ tail) :
    (lineFraming decode).drain () (terminated lines ++ tail) =
      ((lines.map (decodeLine decode)).reduceOption, .running () tail) := by
  induction lines with
  | nil => exact Framing.drain_of_wait (nextLine_of_notMem decode htail)
  | cons line lines ih =>
    have hline := hlines line mem_cons_self
    have hnext : (lineFraming decode).next () (terminated (line :: lines) ++ tail) =
        .took () (decodeLine decode line).toList (terminated lines ++ tail) := by
      have hsplit : terminated (line :: lines) ++ tail =
          line ++ newline :: (terminated lines ++ tail) := by simp [terminated]
      rw [hsplit]
      exact nextLine_append decode hline _
    rw [Framing.drain_of_took hnext, ih fun l hl => hlines l (mem_cons_of_mem _ hl)]
    cases hdecode : decodeLine decode line with
    | none => simp [hdecode, reduceOption_cons_of_none]
    | some result => simp [hdecode, reduceOption_cons_of_some]

/-- Every buffer is some lines and a line that is not ended. -/
theorem exists_lines (buffer : Bytes) : ∃ lines tail, buffer = terminated lines ++ tail ∧
    (∀ line ∈ lines, newline ∉ line) ∧ newline ∉ tail := by
  induction hlength : buffer.length using Nat.strongRecOn generalizing buffer with
  | _ n ih =>
    rcases exists_line buffer with hnone | ⟨line, rest, hline, rfl⟩
    · exact ⟨[], buffer, rfl, by simp, hnone⟩
    · have hshort : rest.length < n := by
        simp only [length_append, length_cons] at hlength
        omega
      obtain ⟨lines, tail, hrest, hlines, htail⟩ := ih _ hshort rest rfl
      refine ⟨line :: lines, tail, ?_, ?_, htail⟩
      · rw [hrest]
        simp [terminated]
      · intro l hl
        rcases mem_cons.mp hl with rfl | hl
        · exact hline
        · exact hlines l hl

theorem line_inj {line line' rest rest' : Bytes} (hline : newline ∉ line) (hline' : newline ∉ line')
    (h : line ++ newline :: rest = line' ++ newline :: rest') : line = line' ∧ rest = rest' := by
  rcases append_eq_append_iff.mp h with ⟨middle, hmiddle, hrest⟩ | ⟨middle, hmiddle, hrest⟩
  · cases middle with
    | nil => exact ⟨by simpa using hmiddle.symm, (cons.inj hrest).2⟩
    | cons b middle =>
      obtain rfl : newline = b := (cons.inj hrest).1
      exact absurd (hmiddle ▸ mem_append_right _ mem_cons_self) hline'
  · cases middle with
    | nil => exact ⟨by simpa using hmiddle, (cons.inj hrest).2.symm⟩
    | cons b middle =>
      obtain rfl : newline = b := (cons.inj hrest).1
      exact absurd (hmiddle ▸ mem_append_right _ mem_cons_self) hline

section

variable (hdone : ∀ line ∈ done, newline ∉ line)
include hdone

/-- Lines and a line not ended, which begin a list of lines, are the first of
them. -/
theorem lines_of_begins {tail : Bytes} (htail : newline ∉ tail)
    (hlines : ∀ line ∈ lines, newline ∉ line) (h : terminated done ++ tail <+: terminated lines) :
    ∃ rest, lines = done ++ rest ∧ ∀ line ∈ rest.head?, tail <+: line := by
  induction done generalizing lines with
  | nil =>
    refine ⟨lines, rfl, fun line hline => ?_⟩
    cases lines with
    | nil => cases hline
    | cons l lines =>
      obtain rfl : l = line := by simpa using hline
      have hline : l ++ [newline] <+: terminated (l :: lines) :=
        ⟨terminated lines, by simp [terminated]⟩
      rcases Nat.lt_or_ge l.length tail.length with hlt | hle
      · have hall : l ++ [newline] <+: tail :=
          prefix_of_prefix_length_le hline h (by simpa using Nat.succ_le_of_lt hlt)
        exact absurd (hall.subset (by simp)) htail
      · exact prefix_of_prefix_length_le h ((prefix_append l _).trans hline) hle
  | cons d done ih =>
    obtain ⟨more, hmore⟩ := h
    cases lines with
    | nil => simp [terminated] at hmore
    | cons l lines =>
      have hd := hdone d mem_cons_self
      have hl := hlines l mem_cons_self
      have hsplit : d ++ newline :: (terminated done ++ tail ++ more) =
          l ++ newline :: terminated lines := by simpa [terminated] using hmore
      obtain ⟨rfl, hrest⟩ := line_inj hd hl hsplit
      obtain ⟨rest, hlines', hhead⟩ := ih
        (fun line hline => hdone line (mem_cons_of_mem _ hline))
        (fun line hline => hlines line (mem_cons_of_mem _ hline)) ⟨more, hrest⟩
      exact ⟨rest, by rw [hlines', cons_append], hhead⟩

/-- A buffer is lines and a line not ended in one way only. -/
theorem split_inj {done' : List Bytes} {tail tail' : Bytes}
    (hdone' : ∀ line ∈ done', newline ∉ line)
    (htail : newline ∉ tail) (htail' : newline ∉ tail')
    (h : terminated done ++ tail = terminated done' ++ tail') : done = done' ∧ tail = tail' := by
  induction done generalizing done' with
  | nil =>
    cases done' with
    | nil => exact ⟨rfl, h⟩
    | cons d done' =>
      have hall : tail = terminated (d :: done') ++ tail' := h
      rw [hall] at htail
      simp [terminated] at htail
  | cons d done ih =>
    cases done' with
    | nil =>
      have hall : terminated (d :: done) ++ tail = tail' := h
      rw [← hall] at htail'
      simp [terminated] at htail'
    | cons d' done' =>
      have hsplit : d ++ newline :: (terminated done ++ tail) =
          d' ++ newline :: (terminated done' ++ tail') := by simpa [terminated] using h
      obtain ⟨rfl, hrest⟩ :=
        line_inj (hdone d mem_cons_self) (hdone' d' mem_cons_self) hsplit
      obtain ⟨rfl, rfl⟩ := ih (fun line hline => hdone line (mem_cons_of_mem _ hline))
        (fun line hline => hdone' line (mem_cons_of_mem _ hline)) hrest
      exact ⟨rfl, rfl⟩

/-- What is left of a list of lines is no longer than one of them. -/
theorem length_tail_le {tail : Bytes} (htail : newline ∉ tail)
    (hlines : ∀ line ∈ lines, newline ∉ line) (hshort : ∀ line ∈ lines, line.length ≤ maxLine)
    (h : terminated done ++ tail <+: terminated lines) : tail.length ≤ maxLine := by
  obtain ⟨rest, rfl, hhead⟩ := lines_of_begins hdone htail hlines h
  cases rest with
  | nil =>
    have hlength := h.length_le
    rw [append_nil, length_append] at hlength
    exact (show tail.length ≤ 0 by omega).trans (Nat.zero_le _)
  | cons line rest => exact (hhead line rfl).length_le.trans (hshort line (by simp))

end

/-! ## The framer -/

/-- A push whose last line is not too long. -/
theorem push_eq {lines : List Bytes} {buffer chunk tail : Bytes}
    (hsplit : buffer ++ chunk = terminated lines ++ tail)
    (hlines : ∀ line ∈ lines, newline ∉ line) (htail : newline ∉ tail)
    (hshort : tail.length ≤ maxLine) : LineFramer.push decode ⟨buffer⟩ chunk =
      ((lines.map (decodeLine decode)).reduceOption, ⟨tail⟩) := by
  rw [LineFramer.push, hsplit, drain_terminated hlines htail]
  exact if_neg (by omega)

theorem push_eq_of_long {lines : List Bytes} {buffer chunk tail : Bytes}
    (hsplit : buffer ++ chunk = terminated lines ++ tail)
    (hlines : ∀ line ∈ lines, newline ∉ line) (htail : newline ∉ tail)
    (hlong : maxLine < tail.length) : LineFramer.push decode ⟨buffer⟩ chunk =
      ((lines.map (decodeLine decode)).reduceOption ++ [.error (.lineTooLong tail.length)],
        ⟨[]⟩) := by
  rw [LineFramer.push, hsplit, drain_terminated hlines htail]
  exact if_pos hlong

theorem length_push_le (framer : LineFramer) (chunk : Bytes) :
    (framer.push decode chunk).2.buffer.length ≤ maxLine := by
  obtain ⟨lines, tail, hsplit, hlines, htail⟩ := exists_lines (framer.buffer ++ chunk)
  rcases Nat.lt_or_ge maxLine tail.length with hlong | hshort
  · rw [show framer = ⟨framer.buffer⟩ from rfl, push_eq_of_long hsplit hlines htail hlong]
    exact Nat.zero_le _
  · rw [show framer = ⟨framer.buffer⟩ from rfl, push_eq hsplit hlines htail hshort]
    exact hshort

/-- The buffer is never longer, whatever came. -/
theorem length_feed_le (chunks : List Bytes) {framer : LineFramer}
    (h : framer.buffer.length ≤ maxLine) :
    (framer.feed decode chunks).2.buffer.length ≤ maxLine := by
  induction chunks generalizing framer with
  | nil => exact h
  | cons chunk chunks ih => exact ih (length_push_le framer chunk)

theorem feed_append (framer : LineFramer) (xs ys : List Bytes) : framer.feed decode (xs ++ ys) =
      ((framer.feed decode xs).1 ++ ((framer.feed decode xs).2.feed decode ys).1,
        ((framer.feed decode xs).2.feed decode ys).2) := by
  induction xs generalizing framer with
  | nil => rfl
  | cons x xs ih =>
    rw [cons_append, LineFramer.feed, LineFramer.feed, ih]
    simp

/-- While no line is too long, the framer is nothing but its loop: it has
decoded the lines that have ended, and holds the one that has not. -/
theorem feed_eq {lines done : List Bytes} (hlines : ∀ line ∈ lines, newline ∉ line)
    (hshort : ∀ line ∈ lines, line.length ≤ maxLine) {chunks : List Bytes} {tail : Bytes}
    (hbegins : chunks.flatten <+: terminated lines)
    (hsplit : chunks.flatten = terminated done ++ tail)
    (hdone : ∀ line ∈ done, newline ∉ line) (htail : newline ∉ tail) :
    LineFramer.feed decode ⟨[]⟩ chunks =
      ((done.map (decodeLine decode)).reduceOption, ⟨tail⟩) := by
  induction chunks using List.reverseRecOn generalizing done tail with
  | nil =>
    obtain ⟨rfl, rfl⟩ : done = [] ∧ tail = [] := by
      refine split_inj hdone (by simp) htail (by simp) ?_
      exact hsplit.symm
    rfl
  | append_singleton chunks chunk ih =>
    rw [flatten_concat] at hbegins hsplit
    obtain ⟨before, held, hbefore, hbefore', hheld⟩ := exists_lines chunks.flatten
    obtain ⟨more, tail', hmore, hmore', htail'⟩ := exists_lines (held ++ chunk)
    have hall : ∀ line ∈ before ++ more, newline ∉ line := fun line hline =>
      (mem_append.mp hline).elim (hbefore' line) (hmore' line)
    have hsame : terminated (before ++ more) ++ tail' = terminated done ++ tail := by
      rw [← hsplit, hbefore, terminated_append, append_assoc, append_assoc, hmore]
    obtain ⟨rfl, rfl⟩ := split_inj hall hdone htail' htail hsame
    have hfed := ih ((prefix_append _ _).trans hbegins) hbefore hbefore' hheld
    have hshort' : tail'.length ≤ maxLine :=
      length_tail_le hdone htail' hlines hshort (hsplit ▸ hbegins)
    rw [feed_append, hfed, LineFramer.feed, LineFramer.feed,
      push_eq hmore hmore' htail' hshort']
    simp [reduceOption_append]

theorem count_terminated (hlines : ∀ line ∈ lines, newline ∉ line) :
    (terminated lines).count newline = lines.length := by
  induction lines with
  | nil => rfl
  | cons line lines ih =>
    have hline : line.count newline = 0 :=
      count_eq_zero.mpr (hlines line mem_cons_self)
    have hsplit : terminated (line :: lines) = line ++ [newline] ++ terminated lines := by
      simp [terminated]
    rw [hsplit, count_append, count_append, hline,
      ih fun l hl => hlines l (mem_cons_of_mem _ hl)]
    simp [Nat.add_comm]

end Loop


theorem decodeLine_ne {line : Bytes} {result : Except FramerError μ}
    (h : decodeLine decode line = some result) (n : ℕ) : result ≠ .error (.lineTooLong n) := by
  unfold decodeLine at h
  split at h
  · cases h
  · rintro rfl
    have hmatch := Option.some.inj h
    split at hmatch <;> cases hmatch

/-- In one piece, a line is decoded however long it is. -/
theorem feed_whole {lines : List Bytes} (hlines : ∀ line ∈ lines, newline ∉ line) :
    (LineFramer.feed decode ⟨[]⟩ [terminated lines]).1 =
      (lines.map (decodeLine decode)).reduceOption := by
  rw [LineFramer.feed, LineFramer.feed, append_nil]
  exact congrArg Prod.fst
    (push_eq (by simp) hlines not_mem_nil (Nat.zero_le _))

/-- Cut after too many bytes, it is given up. -/
theorem lineTooLong_mem_feed {before : List Bytes} {line rest : Bytes}
    (hbefore : ∀ l ∈ before, newline ∉ l) (hline : newline ∉ line) (hlong : maxLine < line.length) :
    ∃ n, .error (.lineTooLong n) ∈
      (LineFramer.feed decode ⟨[]⟩ [terminated before ++ line.take (maxLine + 1), rest]).1 := by
  have htake : newline ∉ line.take (maxLine + 1) := fun h => hline (mem_of_mem_take h)
  have hlength : maxLine < (line.take (maxLine + 1)).length := by
    rw [length_take]
    omega
  refine ⟨(line.take (maxLine + 1)).length, ?_⟩
  rw [LineFramer.feed, push_eq_of_long (by rfl) hbefore htake hlength]
  exact mem_append_left _ (mem_append_right _ (mem_singleton_self _))

/-- With a longer line the result depends on the cut. -/
theorem not_survives_of_long {lines : List Bytes} (hlines : ∀ line ∈ lines, newline ∉ line)
    {line : Bytes} (hline : line ∈ lines) (hlong : maxLine < line.length) :
    ¬ Survives decode lines := by
  rintro ⟨results, -, hcuts⟩
  obtain ⟨before, after, rfl⟩ := append_of_mem hline
  -- in one piece the line is decoded; cut after too many bytes it is given up
  have hwhole := (hcuts [terminated (before ++ line :: after)] (by simp)).1
  have hsplit : [terminated before ++ line.take (maxLine + 1),
      line.drop (maxLine + 1) ++ newline :: terminated after].flatten =
        terminated (before ++ line :: after) := by
    simp only [flatten_cons, flatten_nil, append_nil, terminated,
      flatMap_append, flatMap_cons, append_assoc, singleton_append]
    rw [← append_assoc (line.take _), take_append_drop]
  have hcut := (hcuts _ hsplit).1
  obtain ⟨n, hn⟩ := @lineTooLong_mem_feed μ decode before line
    (line.drop (maxLine + 1) ++ newline :: terminated after)
    (fun l hl => hlines l (mem_append_left _ hl)) (hlines line hline) hlong
  rw [hcut, ← hwhole, feed_whole decode hlines, reduceOption_mem_iff] at hn
  obtain ⟨l, -, hl⟩ := mem_map.mp hn
  exact decodeLine_ne decode hl n rfl

/-- Lines survive every cut of the socket exactly if none of them is longer than
`maxLine`. -/
theorem survives_iff {lines : List Bytes} (hlines : ∀ line ∈ lines, newline ∉ line) :
    Survives decode lines ↔ ∀ line ∈ lines, line.length ≤ maxLine := by
  constructor
  · intro hsurvives line hline
    by_contra hlong
    exact not_survives_of_long decode hlines hline (by omega) hsurvives
  · intro hshort
    refine ⟨lines.map (decodeLine decode), ?_, fun chunks hchunks => ⟨?_, fun k => ⟨?_, ?_⟩⟩⟩
    · rw [forall₂_map_right_iff, forall₂_same]
      exact fun line hline => (if_pos (hshort line hline)).mpr rfl
    · have hsplit : chunks.flatten = terminated lines ++ [] := by rw [hchunks, append_nil]
      rw [feed_eq hlines hshort (hchunks ▸ prefix_refl _) hsplit hlines not_mem_nil]
    · obtain ⟨done, tail, hsplit, hdone, htail⟩ := exists_lines (chunks.take k).flatten
      have hbegins : (chunks.take k).flatten <+: terminated lines := by
        rw [← hchunks]
        conv_rhs => rw [← take_append_drop k chunks, flatten_append]
        exact prefix_append _ _
      obtain ⟨rest, hrest, -⟩ := lines_of_begins hdone htail hlines (hsplit ▸ hbegins)
      have htake : (lines.map (decodeLine decode)).take ((chunks.take k).flatten.count newline) =
          done.map (decodeLine decode) := by
        rw [hsplit, count_append, count_eq_zero.mpr htail, Nat.add_zero,
          count_terminated hdone, hrest, map_append, ← length_map (decodeLine decode),
          take_left]
      have hfed := @feed_eq μ decode lines done hlines hshort _ tail hbegins hsplit hdone htail
      exact ⟨[], by rw [htake, hfed, append_nil]⟩
    · exact length_feed_le _ (Nat.zero_le _)

/-- Two messages, the second behind an empty line and a carriage return. -/
theorem survives_two :
    Survives (fun line => .ok line) [[123, 125], [], [123, 125, carriageReturn]] ↔
      ∀ line ∈ [[123, 125], [], [123, 125, carriageReturn]], List.length line ≤ maxLine :=
  survives_iff (fun line => .ok line) (by decide)

/-- A line that is given up, and whose last byte is then decoded as a message.
-/
theorem end_of_long_line_decoded :
    let decode : Bytes → Except String Unit := fun line =>
      if line = [109] then .ok () else .error "no message"
    let line := List.replicate (maxLine + 1) (120 : UInt8) ++ [109]
    (LineFramer.feed decode ⟨[]⟩ [List.replicate (maxLine + 1) 120, [109, newline]]).1 =
        [.error (.lineTooLong (maxLine + 1)), .ok ()] ∧
      ¬ Survives decode [line] := by
  intro decode line
  have hnone : newline ∉ List.replicate (maxLine + 1) (120 : UInt8) := fun h =>
    absurd (eq_of_mem_replicate h) (by decide)
  have hline : newline ∉ line := by
    intro h
    rcases mem_append.mp h with h | h
    · exact hnone h
    · exact absurd (mem_singleton.mp h) (by decide)
  have hlength : (List.replicate (maxLine + 1) (120 : UInt8)).length = maxLine + 1 :=
    length_replicate
  constructor
  · have hfirst := @push_eq_of_long Unit decode [] [] (List.replicate (maxLine + 1) 120)
      (List.replicate (maxLine + 1) 120) rfl (by simp) hnone (by rw [hlength]; omega)
    have hsecond := @push_eq Unit decode [[109]] [] [109, newline] [] rfl (by decide) (by decide)
      (Nat.zero_le _)
    rw [LineFramer.feed, LineFramer.feed, LineFramer.feed, hfirst, hsecond, hlength]
    rfl
  · refine not_survives_of_long decode (fun l hl => mem_singleton.mp hl ▸ hline)
      (mem_singleton_self line) ?_
    rw [length_append, hlength]
    exact Nat.lt_succ_of_lt (Nat.lt_succ_self _)

end Castaway.Browser
