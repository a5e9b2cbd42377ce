import Castaway.Dial.Lounge
import Castaway.Dlna.Times

/-!
# The chunks of the Lounge channel

A response of the channel is one chunk after the other: a number of characters,
a line end and a JSON array of commands.  `json` is `serde_json::from_str`.
-/

namespace Castaway.Dial

open Castaway.Json (Value)
open List

inductive ChunkFault where
  | malformed (reason : String)
  /-- The end of a chunk is no `usize`. -/
  | overflow

def parseEntry (entry : Value) : Option LoungeCommand := do
  let arr ← entry.asArray
  let aid ← arr.head?.bind Value.asI64
  let inner ← arr[1]?.bind Value.asArray
  let name ← inner.head?.bind Value.asString
  pure ⟨aid, name, inner[1]?.getD .null⟩

def commands (v : Value) : List LoungeCommand := (v.asArray.getD []).filterMap parseEntry

variable (json : List Char → Option Value) (i : ℕ) (t : List Char)

/-- The chunk at `i`, where `t` begins: where it ends, its commands and what
follows. -/
def parseChunk : Except ChunkFault (ℕ × List LoungeCommand × List Char) :=
  let prefixed := t.takeWhile Char.isDigit
  let len := Nat.ofDigitChars 10 prefixed 0
  if prefixed = [] then .error (.malformed "expected length prefix")
  else if 2 ^ 64 ≤ len then .error (.malformed "bad length")
  else
    match t.dropWhile Char.isDigit with
    | '\n' :: rest =>
      let start := i + prefixed.length + 1
      if 2 ^ 64 ≤ start + len then .error .overflow
      else if rest.length < len then .error (.malformed "chunk truncated")
      else
        match json (rest.take len) with
        | none => .error (.malformed "bad json")
        | some v => .ok (start + len, commands v, rest.drop len)
    | _ => .error (.malformed "length not followed by newline")

def blank (c : Char) : Bool := AirPlay.Text.isWhite c && c != '\n'

variable {json i t} in
theorem length_lt_of_parseChunk {next : ℕ} {cmds : List LoungeCommand} {rest : List Char}
    (h : parseChunk json i t = .ok (next, cmds, rest)) : rest.length < t.length := by
  have hdrop := (dropWhile_suffix (l := t) Char.isDigit).length_le
  unfold parseChunk at h
  dsimp only at h
  split at h
  · cases h
  · split at h
    · cases h
    · split at h
      · rename_i hline
        rw [hline] at hdrop
        split at h
        · cases h
        · split at h
          · cases h
          · split at h
            · cases h
            · cases h
              simp only [length_cons, length_drop] at hdrop ⊢
              omega
      · cases h

/-- The chunks from `i` on, where `t` begins. -/
def parseFrom (i : ℕ) (t : List Char) : Except ChunkFault (List LoungeCommand) :=
  if t.dropWhile blank = [] then .ok []
  else
    match _hchunk : parseChunk json (i + (t.takeWhile blank).length) (t.dropWhile blank) with
    | .error e => .error e
    | .ok (next, cmds, rest) => (parseFrom next rest).map (cmds ++ ·)
termination_by t.length
decreasing_by
  exact (length_lt_of_parseChunk _hchunk).trans_le (dropWhile_suffix _).length_le

def parseChunks : Except ChunkFault (List LoungeCommand) := parseFrom json 0 t

/-- A chunk as the channel sends it. -/
def framed (text : List Char) : List Char := Nat.toDigits 10 text.length ++ '\n' :: text

variable {json i t}

theorem parseChunk_digits {digits : List Char} (rest : List Char)
    (hdigits : ∀ c ∈ digits, c.isDigit) (hrest : ∀ c ∈ rest.head?, c.isDigit = false) :
    (digits ++ rest).takeWhile Char.isDigit = digits ∧
      (digits ++ rest).dropWhile Char.isDigit = rest := by
  rw [takeWhile_append_of_pos hdigits, dropWhile_append_of_pos hdigits]
  cases rest with
  | nil => exact ⟨append_nil _, rfl⟩
  | cons c rest =>
    have hc := hrest c rfl
    simp [hc]

theorem dropWhile_blank {digits : List Char} (rest : List Char)
    (hdigits : ∀ c ∈ digits, c.isDigit) (hne : digits ≠ []) :
    (digits ++ rest).takeWhile blank = [] ∧
      (digits ++ rest).dropWhile blank = digits ++ rest := by
  cases digits with
  | nil => exact absurd rfl hne
  | cons c digits =>
    have hc : blank c = false := by
      rw [blank, Dlna.not_white_of_isDigit (hdigits c mem_cons_self), Bool.false_and]
    simp [hc]

theorem digits_length (text : List Char) : (∀ c ∈ Nat.toDigits 10 text.length, c.isDigit) ∧
    Nat.ofDigitChars 10 (Nat.toDigits 10 text.length) 0 = text.length :=
  ⟨fun _ hc => Nat.isDigit_of_mem_toDigits (by decide) (by decide) hc,
    Nat.ofDigitChars_ten_toDigits⟩

theorem parseFrom_framed {text : List Char} {v : Value} (hjson : json text = some v)
    (rest : List Char) (hsize : i + (framed text).length < 2 ^ 64) :
    parseFrom json i (framed text ++ rest) =
      (parseFrom json (i + (framed text).length) rest).map (commands v ++ ·) := by
  obtain ⟨hdigits, hvalue⟩ := digits_length text
  have hne : Nat.toDigits 10 text.length ≠ [] := Nat.toDigits_ne_nil
  have hframed : framed text ++ rest = Nat.toDigits 10 text.length ++ '\n' :: (text ++ rest) := by
    simp [framed]
  have hlength : (framed text).length = (Nat.toDigits 10 text.length).length + 1 + text.length := by
    simp [framed]
    omega
  obtain ⟨htake, hdrop⟩ := parseChunk_digits ('\n' :: (text ++ rest)) hdigits
    (by rintro _ ⟨⟩; rfl)
  obtain ⟨hnoblank, hblank⟩ := dropWhile_blank ('\n' :: (text ++ rest)) hdigits hne
  have hchunk : parseChunk json i (framed text ++ rest) =
      .ok (i + (framed text).length, commands v, rest) := by
    have hroom : ¬ 2 ^ 64 ≤ i + (Nat.toDigits 10 text.length).length + 1 + text.length := by omega
    have hwhole : ¬ (text ++ rest).length < text.length := by simp
    rw [hframed, parseChunk, htake, hdrop, hvalue, if_neg hne, if_neg (by omega)]
    simp only [if_neg hroom, if_neg hwhole, take_left, hjson, drop_left, hlength]
    simp only [Nat.add_assoc]
  rw [parseFrom]
  rw [hframed, hblank, hnoblank, ← hframed, if_neg (by simp [framed])]
  split
  · rename_i heq
    cases hchunk.symm.trans heq
  · rename_i heq
    cases hchunk.symm.trans heq
    rfl

/-- A chunk that is cut is refused. -/
theorem parseFrom_cut {text cut more : List Char} (h : cut ++ more = framed text) (hcut : cut ≠ [])
    (hmore : more ≠ []) : ∃ e, parseFrom json i cut = .error e := by
  obtain ⟨hdigits, hvalue⟩ := digits_length text
  obtain ⟨digits, rest, rfl, hdigits', hne, hrest⟩ : ∃ digits rest, cut = digits ++ rest ∧
      (∀ c ∈ digits, c.isDigit) ∧ digits ≠ [] ∧ (rest = [] ∨ ∃ read, rest = '\n' :: read ∧
        Nat.ofDigitChars 10 digits 0 = text.length ∧ read.length < text.length) := by
    rcases append_eq_append_iff.mp h with ⟨left, hleft, -⟩ | ⟨read, rfl, hread⟩
    · exact ⟨cut, [], by simp, fun c hc => hdigits c (hleft ▸ mem_append_left _ hc), hcut,
        .inl rfl⟩
    · refine ⟨_, read, rfl, hdigits, Nat.toDigits_ne_nil, ?_⟩
      cases read with
      | nil => exact .inl rfl
      | cons c read =>
        obtain ⟨rfl, rfl⟩ := cons.inj hread
        have hpos := length_pos_iff.mpr hmore
        exact .inr ⟨read, rfl, hvalue, by simp; omega⟩
  obtain ⟨htake, hdrop⟩ := parseChunk_digits rest hdigits'
    (by rcases hrest with rfl | ⟨_, rfl, -⟩ <;> rintro _ ⟨⟩; rfl)
  obtain ⟨hnoblank, hblank⟩ := dropWhile_blank rest hdigits' hne
  have hchunk (i : ℕ) : ∃ e, parseChunk json i (digits ++ rest) = .error e := by
    rw [parseChunk, htake, hdrop, if_neg hne]
    split
    · exact ⟨_, rfl⟩
    · rcases hrest with rfl | ⟨read, rfl, hvalue', hshort⟩
      · exact ⟨_, rfl⟩
      · simp only [hvalue', if_pos hshort]
        split <;> exact ⟨_, rfl⟩
  obtain ⟨e, he⟩ := hchunk (i + 0)
  rw [parseFrom]
  rw [hblank, hnoblank, if_neg (by simp [hne])]
  split
  · exact ⟨_, rfl⟩
  · rename_i heq
    cases he.symm.trans heq

theorem parseFrom_chunks {chunks : List (List Char × Value)}
    (hjson : ∀ chunk ∈ chunks, json chunk.1 = some chunk.2) (rest : List Char)
    (hsize : i + (chunks.flatMap (framed ·.1)).length < 2 ^ 64) :
    ∃ j, parseFrom json i (chunks.flatMap (framed ·.1) ++ rest) =
      (parseFrom json j rest).map (chunks.flatMap (commands ·.2) ++ ·) := by
  induction chunks generalizing i with
  | nil =>
    refine ⟨i, ?_⟩
    change parseFrom json i rest = (parseFrom json i rest).map id
    cases parseFrom json i rest <;> rfl
  | cons chunk chunks ih =>
    rw [flatMap_cons, length_append] at hsize
    obtain ⟨j, hj⟩ := ih (i := i + (framed chunk.1).length)
      (fun c hc => hjson c (mem_cons_of_mem _ hc)) (by omega)
    refine ⟨j, ?_⟩
    rw [flatMap_cons, append_assoc,
      parseFrom_framed (hjson chunk mem_cons_self) _ (by omega), hj]
    cases parseFrom json j rest with
    | error e => rfl
    | ok cmds => simp [Except.map]

/-- **The channel is read to the end of a chunk, or not at all.**  Whole chunks
yield their commands in order, and with part of another behind them there are
none. -/
theorem chunks_read (json : List Char → Option Value) (chunks : List (List Char × Value))
    (hjson : ∀ chunk ∈ chunks, json chunk.1 = some chunk.2)
    (hsize : (chunks.flatMap (framed ·.1)).length < 2 ^ 64) :
    parseChunks json (chunks.flatMap (framed ·.1)) = .ok (chunks.flatMap (commands ·.2)) ∧
      ∀ text cut more, cut ++ more = framed text → cut ≠ [] → more ≠ [] →
        ∃ e, parseChunks json (chunks.flatMap (framed ·.1) ++ cut) = .error e := by
  rw [← Nat.zero_add (List.length _)] at hsize
  refine ⟨?_, fun text cut more h hcut hmore => ?_⟩
  · obtain ⟨j, hj⟩ := parseFrom_chunks hjson [] hsize
    have hend : parseFrom json j [] = .ok [] := by
      rw [parseFrom]
      rfl
    rw [append_nil, hend] at hj
    exact hj.trans (congrArg Except.ok (append_nil _))
  · obtain ⟨j, hj⟩ := parseFrom_chunks hjson cut hsize
    obtain ⟨e, he⟩ := @parseFrom_cut json j text cut more h hcut hmore
    exact ⟨e, by rw [parseChunks, hj, he]; rfl⟩

/-- What binds a session: two commands. -/
def bound : List Char × Value :=
  ("[[0,[\"c\",\"SID\"]],[1,[\"S\",\"GSID\"]]]".toList,
    .array [.array [.integer 0, .array [.string "c", .string "SID"]],
      .array [.integer 1, .array [.string "S", .string "GSID"]]])

def paused : List Char × Value :=
  ("[[2,[\"pause\"]]]".toList, .array [.array [.integer 2, .array [.string "pause"]]])

/-- Three commands come in two chunks, and none of them while a third chunk is
not whole. -/
theorem chunks_read_pause :
    let json := fun text => if text = bound.1 then some bound.2
      else if text = paused.1 then some paused.2 else none
    parseChunks json "34\n[[0,[\"c\",\"SID\"]],[1,[\"S\",\"GSID\"]]]15\n[[2,[\"pause\"]]]".toList =
        .ok [⟨0, "c", .string "SID"⟩, ⟨1, "S", .string "GSID"⟩, ⟨2, "pause", .null⟩] ∧
      ∃ e, parseChunks json
        "34\n[[0,[\"c\",\"SID\"]],[1,[\"S\",\"GSID\"]]]15\n[[2,[\"pause\"]]]15\n[[2,".toList =
          .error e := by
  intro json
  have hframed : [bound, paused].flatMap (framed ·.1) =
      "34\n[[0,[\"c\",\"SID\"]],[1,[\"S\",\"GSID\"]]]15\n[[2,[\"pause\"]]]".toList := by
    decide +kernel
  have hthird : "15\n[[2,".toList ++ "[\"pause\"]]]".toList = framed paused.1 := by decide +kernel
  have hne : paused.1 ≠ bound.1 := by decide +kernel
  obtain ⟨hwhole, hcut⟩ := chunks_read json [bound, paused] (by simp [json, hne])
    (by decide +kernel)
  obtain ⟨e, he⟩ := hcut paused.1 _ _ hthird (by simp) (by simp)
  rw [hframed] at hwhole he
  rw [← String.toList_append] at he
  exact ⟨hwhole, e, he⟩

end Castaway.Dial
