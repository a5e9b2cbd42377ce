import Castaway.Lib.Utf8
import Mathlib.Data.List.Sort

/-!
# JSON texts

A JSON text as the bytes it is written as: strings with their escapes, natural
numbers, and objects without blanks.  A value that is already written is its
bytes, so an object is made of the texts of its members.

How long an object is does not depend on the order of its members
(`length_object`, `length_object_sorted`).
-/

namespace Castaway.Json

open List

/-! ## Writing -/

/-- A character inside a string.  Control characters without an escape of their
own are given by their code. -/
def escape (c : Char) : Bytes :=
  if c = '"' then utf8 "\\\""
  else if c = '\\' then utf8 "\\\\"
  else if c.toNat = 0x08 then utf8 "\\b"
  else if c = '\t' then utf8 "\\t"
  else if c = '\n' then utf8 "\\n"
  else if c.toNat = 0x0C then utf8 "\\f"
  else if c = '\r' then utf8 "\\r"
  else if c.toNat < 0x20 then
    utf8 "\\u00" ++ [c.toNat / 16, c.toNat % 16].map fun d => UInt8.ofNat (Nat.digitChar d).toNat
  else String.utf8EncodeChar c

def string (s : String) : Bytes := utf8 "\"" ++ s.toList.flatMap escape ++ utf8 "\""

def natural (n : ℕ) : Bytes := (Nat.toDigits 10 n).map fun c => UInt8.ofNat c.toNat

abbrev Member := String × Bytes

def member (m : Member) : Bytes := string m.1 ++ utf8 ":" ++ m.2

def object (members : List Member) : Bytes :=
  utf8 "\x7b" ++ List.intercalate (utf8 ",") (members.map member) ++ utf8 "\x7d"

def given (name : String) (value : Option Bytes) : List Member :=
  (value.map fun value => (name, value)).toList

/-- The members as a map keeps them, by their names. -/
def sorted (members : List Member) : List Member :=
  members.insertionSort fun a b => a.1 ≤ b.1

/-! ## Lengths -/

/-- What a member takes up, with a comma or a brace. -/
def memberLength (m : Member) : ℕ := (string m.1).length + m.2.length + 2

theorem length_member (m : Member) : (member m).length + 1 = memberLength m := by
  have hcolon : (utf8 ":").length = 1 := rfl
  rw [member, length_append, length_append, hcolon, memberLength]
  omega

theorem length_members (first : Member) (rest : List Member) :
    (List.intercalate (utf8 ",") ((first :: rest).map member)).length + 1 =
      ((first :: rest).map memberLength).sum := by
  induction rest generalizing first with
  | nil =>
    rw [map_singleton, intercalate_singleton, map_singleton, sum_singleton,
      length_member]
  | cons second rest ih =>
    have hcomma : (utf8 ",").length = 1 := rfl
    have hrest := ih second
    have hfirst := length_member first
    rw [map_cons, map_cons, intercalate_cons_cons, ← map_cons,
      length_append, length_append, hcomma, @map_cons _ _ memberLength,
      sum_cons]
    omega

theorem length_object {members : List Member} (h : members ≠ []) :
    (object members).length = 1 + (members.map memberLength).sum := by
  obtain ⟨first, rest, rfl⟩ := exists_cons_of_ne_nil h
  have hopen : (utf8 "\x7b").length = 1 := rfl
  have hclose : (utf8 "\x7d").length = 1 := rfl
  have hmembers := length_members first rest
  rw [object, length_append, length_append, hopen, hclose]
  omega

/-- The order of its members does not matter to how long an object is. -/
theorem length_object_perm {members members' : List Member} (h : members.Perm members') :
    (object members).length = (object members').length := by
  by_cases hnil : members = []
  · subst hnil
    rw [nil_perm.mp h]
  · have hnil' : members' ≠ [] := fun heq => hnil (perm_nil.mp (heq ▸ h))
    rw [length_object hnil, length_object hnil', (h.map memberLength).sum_nat]

theorem length_object_sorted (members : List Member) :
    (object (sorted members)).length = (object members).length :=
  length_object_perm (perm_insertionSort _ _)

end Castaway.Json
