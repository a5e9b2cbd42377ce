import Castaway.Lib.Real64

/-!
# JSON values

What a JSON text says, once it is parsed.  A number is an integer where it was
written as one, and a finite double otherwise.
-/

namespace Castaway.Json

inductive Value where
  | null
  | bool (b : Bool)
  | integer (n : ℤ)
  | double (x : ℚ)
  | string (s : String)
  | array (entries : List Value)
  | object (members : List (String × Value))

namespace Value

def asObject : Value → Option (List (String × Value))
  | object members => some members
  | _ => none

def get (v : Value) (key : String) : Option Value :=
  v.asObject.bind fun members => members.lookup key

def asArray : Value → Option (List Value)
  | array entries => some entries
  | _ => none

def asString : Value → Option String
  | string s => some s
  | _ => none

/-- A number, whichever way it was written. -/
def asF64 : Value → Option F64
  | integer n => some (.real n)
  | double x => some (.real x)
  | _ => none

def asI64 : Value → Option ℤ
  | integer n => if -2 ^ 63 ≤ n ∧ n < 2 ^ 63 then some n else none
  | _ => none

end Value

end Castaway.Json
