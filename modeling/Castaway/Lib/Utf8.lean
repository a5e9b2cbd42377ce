import Castaway.Lib.Bytes

/-!
# Text and its bytes

Bytes that need not be UTF-8 are read scalar value by scalar value.  Where none
is well formed, the longest beginning of one is replaced, as the Unicode
standard recommends.  A text read back from its own bytes is the same text
(`fromUtf8Lossy_utf8`).
-/

namespace Castaway

open List

def utf8 (text : String) : Bytes := text.toList.flatMap String.utf8EncodeChar

def isContinuation (byte : UInt8) : Bool := 0x80 ≤ byte && byte ≤ 0xBF

/-- Whether `second` can come behind `first` in a scalar value of three bytes or
four. -/
def follows (first second : UInt8) : Bool :=
  if first = 0xE0 then 0xA0 ≤ second && second ≤ 0xBF
  else if first = 0xED then 0x80 ≤ second && second ≤ 0x9F
  else if first = 0xF0 then 0x90 ≤ second && second ≤ 0xBF
  else if first = 0xF4 then 0x80 ≤ second && second ≤ 0x8F
  else 0xE1 ≤ first && first ≤ 0xF3 && isContinuation second

/-- How many bytes are replaced together where no scalar value is well formed.
-/
def malformedLength (bytes : Bytes) : ℕ :=
  match bytes with
  | first :: second :: third :: _ =>
    if follows first second then
      if 0xF0 ≤ first && isContinuation third then 3 else 2
    else 1
  | [first, second] => if follows first second then 2 else 1
  | _ => 1

theorem malformedLength_pos (bytes : Bytes) : 0 < malformedLength bytes := by
  unfold malformedLength
  split
  · split
    · split <;> decide
    · decide
  · split <;> decide
  · decide

def scalars (bytes : Bytes) : List Char :=
  match bytes with
  | [] => []
  | first :: rest =>
    match (first :: rest).toByteArray.utf8DecodeChar? 0 with
    | some c => c :: scalars ((first :: rest).drop c.utf8Size)
    | none =>
      Char.ofNat 0xFFFD :: scalars ((first :: rest).drop (malformedLength (first :: rest)))
termination_by bytes.length
decreasing_by
  · have := c.utf8Size_pos
    simp only [length_drop, length_cons]
    omega
  · have := malformedLength_pos (first :: rest)
    simp only [length_drop, length_cons]
    omega

/-- Read bytes as text, replacing what is not well formed. -/
def fromUtf8Lossy (bytes : Bytes) : String := String.ofList (scalars bytes)

theorem scalars_flatMap (chars : List Char) :
    scalars (chars.flatMap String.utf8EncodeChar) = chars := by
  induction chars with
  | nil => rw [flatMap_nil, scalars]
  | cons c chars ih =>
    rw [flatMap_cons]
    have hlength : (String.utf8EncodeChar c).length = c.utf8Size := String.length_utf8EncodeChar c
    have hpos := c.utf8Size_pos
    have hdecoded : (String.utf8EncodeChar c ++
        chars.flatMap String.utf8EncodeChar).toByteArray.utf8DecodeChar? 0 = some c := by
      rw [toByteArray_append]
      exact ByteArray.utf8DecodeChar?_utf8EncodeChar_append
    have hdrop : (String.utf8EncodeChar c ++
        chars.flatMap String.utf8EncodeChar).drop c.utf8Size =
          chars.flatMap String.utf8EncodeChar := drop_left' hlength
    generalize hbytes :
      String.utf8EncodeChar c ++ chars.flatMap String.utf8EncodeChar = bytes at *
    cases bytes with
    | nil =>
      have := congrArg List.length hbytes
      rw [length_append, length_nil] at this
      omega
    | cons first rest =>
      rw [scalars, hdecoded]
      dsimp only
      rw [hdrop, ih]

/-- **A text survives as its bytes.** -/
theorem fromUtf8Lossy_utf8 (text : String) : fromUtf8Lossy (utf8 text) = text := by
  rw [fromUtf8Lossy, utf8, scalars_flatMap, String.ofList_toList]

end Castaway
