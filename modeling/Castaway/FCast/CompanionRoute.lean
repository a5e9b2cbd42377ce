import Castaway.AirPlay.Negotiation
import Castaway.FCast.Receiver
import Castaway.Lib.Checked

/-!
# Serving a companion resource over HTTP

The receiver's own host proxies what a sender serves: a range of an HTTP request
becomes a series of windows, each one companion read.  Positions are 64-bit
numbers, and sums and differences that leave 64 bits end the request.

How a window is answered is a parameter, `read`.
-/

namespace Castaway.FCast

open Castaway.AirPlay (Text)

/-- How much of a resource one `CompanionResourceRequest` asks for. -/
def readWindow : ℕ := 256 * 1024

/-- What a sender says one of its resources is. -/
structure CompanionInfo where
  contentType : String
  size : Option UInt64
  deriving DecidableEq, Repr

/-! ## The range of a request -/

/-- The first byte range of a `Range` header, its end inclusive. -/
def parseByteRange (header : Text) : Option (ℕ × Option ℕ) :=
  (Text.after? "bytes=".toList (Text.trim header)).bind fun spec =>
    let first := Text.trim (spec.takeWhile (· != ','))
    (splitOnce '-' first).bind fun (start, end_) =>
      (Text.unsigned 64 (Text.trim start)).bind fun start =>
        if (Text.trim end_).isEmpty then some (start, none)
        else
          (Text.unsigned 64 (Text.trim end_)).bind fun end_ =>
            -- an inverted range is not a range
            if end_ < start then none else some (start, some end_)

example : parseByteRange "bytes=5-, 9-12".toList = some (5, none) := by decide

/-! ## The answer -/

/-- `HeaderValue::from_str`. -/
def headerValue (value : String) : Option String :=
  if value.toList.all fun c => c == '\t' || (32 ≤ c.toNat && c.toNat != 127) then some value
  else none

/-- The status and the headers of a body that is streamed. -/
structure Head where
  /-- Whether the status is 206 and not 200. -/
  partialContent : Bool
  contentType : Option String
  contentLength : Option ℕ
  contentRange : Option String
  deriving DecidableEq, Repr

inductive Served where
  | notFound (e : Answer)
  /-- 416, with the resource's size. -/
  | notSatisfiable (contentRange : String)
  /-- A body from `start` on, to `end_` inclusive if there is one. -/
  | body (head : Head) (start : ℕ) (end_ : Option ℕ)
  deriving DecidableEq, Repr

/-- The last byte that is served, when anybody knows. -/
def lastByte (requested : Option (ℕ × Option ℕ)) (size : Option ℕ) : Except Overflow (Option ℕ) :=
  match requested.bind (·.2), size with
  | some end_, some size => do
      let last ← checkedSub size 1
      pure (some (min end_ last))
  | some end_, none => pure (some end_)
  | none, some size => do
      let last ← checkedSub size 1
      pure (some last)
  | none, none => pure none

def head (info : CompanionInfo) (requested : Option (ℕ × Option ℕ)) (start : ℕ)
    (end_ : Option ℕ) : Except Overflow Head :=
  match end_ with
  | some end_ => do
      -- `saturating_sub`, then a plain sum
      let length ← checkedAdd (end_ - start) 1
      let total := (info.size.map fun size => toString size.toNat).getD "*"
      pure {
        partialContent := requested.isSome
        contentType := headerValue info.contentType
        contentLength := some length
        contentRange :=
          if requested.isSome then
            some ("bytes " ++ toString start ++ "-" ++ toString end_ ++ "/" ++ total)
          else none }
  | none =>
    pure {
      partialContent := requested.isSome
      contentType := headerValue info.contentType
      contentLength := none
      contentRange := none }

/-- Proxy one resource.  `range` is the text of the `Range` header, if there is
one. -/
def companionRoute (info : Except Answer CompanionInfo) (range : Option Text) :
    Except Overflow Served :=
  match info with
  | .error e => pure (.notFound e)
  | .ok info =>
    let requested := range.bind parseByteRange
    let size := info.size.map UInt64.toNat
    let start := (requested.map Prod.fst).getD 0
    match size with
    | some size =>
      -- a range past the end is not a range
      if requested.isSome ∧ size ≤ start then
        pure (.notSatisfiable ("bytes */" ++ toString size))
      else do
        let end_ ← lastByte requested (some size)
        let head ← head info requested start end_
        pure (.body head start end_)
    | none => do
        let end_ ← lastByte requested none
        let head ← head info requested start end_
        pure (.body head start end_)

/-! ## The body -/

/-- One item of the stream and where it goes on, if it does. -/
abbrev Window := Except Answer Bytes × Option ℕ

/-- The window at `at_`, or nothing when the stream is over. -/
def nextWindow (read : ℕ → ℕ → Answer) (end_ : Option ℕ) (at_ : ℕ) :
    Except Overflow (Option Window) :=
  if end_.any (· < at_) then pure none
  else do
    let past ← checkedAdd at_ readWindow
    let full ← checkedSub past 1
    let last := (end_.map (min · full)).getD full
    let span ← checkedSub last at_
    let want ← checkedAdd span 1
    match read at_ last with
    | .data bytes =>
      if bytes.isEmpty then pure none
      else do
        -- the sum is taken also when the stream ends here
        let next ← checkedAdd at_ bytes.length
        pure (some (.ok bytes, if want ≤ bytes.length then some next else none))
    | e => pure (some (.error e, none))

/-- The items of at most `polls` polls of the stream, and where it stands then:
nowhere, once it is over. -/
def resourceStream (read : ℕ → ℕ → Answer) (end_ : Option ℕ) :
    (polls : ℕ) → Option ℕ → Except Overflow (List (Except Answer Bytes) × Option ℕ)
  | _, none => pure ([], none)
  | 0, some at_ => pure ([], some at_)
  | polls + 1, some at_ => do
      match ← nextWindow read end_ at_ with
      | none => pure ([], none)
      | some (item, next) => do
          let (items, rest) ← resourceStream read end_ polls next
          pure (item :: items, rest)

def gather (url : CompanionUrl) (read : ResourceRead) : List ResourcePart → Answer
  | [] => .timedOut url.provider
  | part :: parts =>
    match read.push part with
    | .error detail => .malformed detail
    | .ok (_, .notFound) => .notFound url.toUrl
    | .ok (_, .complete bytes) => .data bytes
    | .ok (read, .more) => gather url read parts

end Castaway.FCast
