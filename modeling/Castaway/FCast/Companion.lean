import Castaway.Lib.Bytes

/-!
# Media served by the sender

A version 4 sender may serve media itself: it says hello, gets a provider id,
and hands out `fcomp://<provider>.fcast/<resource>` URLs.  The receiver proxies
such a URL on a host of its own and reads the resource back over the connection,
in parts.

This module is the grammar of those URLs and the reassembly of one read.
-/

namespace Castaway.FCast

/-! ## Text -/

/-- `strip_prefix`. -/
def stripStart (start s : List Char) : Option (List Char) :=
  if start.isPrefixOf s then some (s.drop start.length) else none

/-- `strip_suffix`. -/
def stripEnd (ending s : List Char) : Option (List Char) :=
  if ending.isSuffixOf s then some (s.take (s.length - ending.length)) else none

/-- `split_once` at a character. -/
def splitOnce (c : Char) (s : List Char) : Option (List Char × List Char) :=
  match s.dropWhile (· != c) with
  | [] => none
  | _ :: rest => some (s.takeWhile (· != c), rest)

/-- Non-empty and all ASCII digits. -/
def decimal (s : List Char) : Bool := !s.isEmpty && s.all Char.isDigit

/-- The value of a string of digits. -/
def decimalValue (s : List Char) : ℕ := s.foldl (fun n c => 10 * n + (c.toNat - 48)) 0

/-- `str::parse` for an unsigned integer below `bound`: digits, perhaps after a
plus. -/
def parseUnsigned (bound : ℕ) (s : List Char) : Option ℕ :=
  let digits := if s.head? = some '+' then s.tail else s
  if decimal digits && decimalValue digits < bound then some (decimalValue digits) else none

/-! ## URLs -/

/-- A resource that one connected sender is offering. -/
structure CompanionUrl where
  provider : UInt16
  resource : UInt32
  deriving DecidableEq, Repr

namespace CompanionUrl

def ofIds? (provider resource : List Char) : Option CompanionUrl :=
  (parseUnsigned 65536 provider).bind fun p =>
    (parseUnsigned 4294967296 resource).map fun r => ⟨.ofNat p, .ofNat r⟩

/-- Parse `fcomp://<provider-id>.fcast/<resource-id>`. -/
def parse (url : String) : Option CompanionUrl :=
  (stripStart "fcomp://".toList url.toList).bind fun rest =>
    (splitOnce '/' rest).bind fun (host, resource) =>
      (stripEnd ".fcast".toList host).bind fun provider =>
        if decimal provider && decimal resource then ofIds? provider resource else none

def toUrl (url : CompanionUrl) : String :=
  "fcomp://" ++ toString url.provider.toNat ++ ".fcast/" ++ toString url.resource.toNat

end CompanionUrl

/-- Where the receiver's own host answers. -/
structure LocalHost where
  base : String
  deriving DecidableEq, Repr

namespace LocalHost

/-- A host serving at `base`, without the slashes at its end. -/
def new (base : String) : LocalHost :=
  ⟨String.ofList (base.toList.reverse.dropWhile (· == '/')).reverse⟩

def companionUrl (host : LocalHost) (url : CompanionUrl) : String :=
  host.base ++ "/fcast/companion" ++ "/" ++ toString url.provider.toNat ++ "/" ++
    toString url.resource.toNat

/-- Which resource one of our own URLs proxies, if it is one. -/
def companionOf (host : LocalHost) (url : String) : Option CompanionUrl :=
  (stripStart host.base.toList url.toList).bind fun rest =>
    (stripStart "/fcast/companion".toList rest).bind fun rest =>
      (stripStart ['/'] rest).bind fun rest =>
        (splitOnce '/' rest).bind fun (provider, resource) =>
          CompanionUrl.ofIds? provider resource

end LocalHost

example : CompanionUrl.parse "fcomp://3.fcast/7" = some ⟨3, 7⟩ := by decide

/-! ## Reads -/

/-- What a sender answered a resource read with. -/
inductive ResourceResult where
  | notFound
  | data (bytes : Bytes)
  deriving DecidableEq, Repr

/-- One decoded `Resource` packet. -/
structure ResourcePart where
  requestId : UInt32
  part : UInt8
  total : UInt8
  result : ResourceResult
  deriving DecidableEq, Repr

/-- The parts of one read so far. -/
structure ResourceRead where
  total : Option UInt8
  next : UInt8
  data : Bytes
  deriving DecidableEq, Repr

/-- What feeding a part to a `ResourceRead` concluded. -/
inductive ReadProgress where
  | more
  | complete (data : Bytes)
  | notFound
  deriving DecidableEq, Repr

namespace ResourceRead

def new : ResourceRead := ⟨none, 0, []⟩

/-- `total` when the part repeats it, or the refusal. -/
def checkTotal (read : ResourceRead) (part : ResourcePart) : Except String UInt8 :=
  match read.total with
  | none => .ok part.total
  | some total =>
    if total ≠ part.total then
      .error ("the answer changed its part count from " ++ toString total ++ " to " ++
        toString part.total)
    else .ok total

/-- Feed one part.  The error is that of a malformed `Resource` packet. -/
def push (read : ResourceRead) (part : ResourcePart) :
    Except String (ResourceRead × ReadProgress) :=
  match part.result with
  | .notFound => .ok (read, .notFound)
  | .data bytes =>
    if part.total = 0 then .error "a Resource answer with zero parts"
    else
      match read.checkTotal part with
      | .error e => .error e
      | .ok total =>
        if part.part ≠ read.next then
          .error ("part " ++ toString part.part ++ " arrived where part " ++
            toString read.next ++ " was expected")
        else
          let data := read.data ++ bytes
          -- `saturating_add`
          let next := if read.next = 255 then 255 else read.next + 1
          if next = part.total then .ok (⟨some total, next, []⟩, .complete data)
          else .ok (⟨some total, next, data⟩, .more)

end ResourceRead

end Castaway.FCast
