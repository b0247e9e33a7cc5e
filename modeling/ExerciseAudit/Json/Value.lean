import ExerciseAudit.Decimal.Binary64

/-!
# JSON values

An object is its list of members in order of writing, repeats included: whether a repeat is an error, and
which member counts, is for the reader of the object to say.
-/

namespace ExerciseAudit.Json

/-- A number: an integer where one was written within 64 bits, otherwise a binary floating-point number. -/
inductive Number where
  | integer (value : Int)
  | float (value : Decimal.Signed64)
  deriving DecidableEq, Repr

/-- A JSON value. -/
inductive Value where
  | null
  | bool (value : Bool)
  | number (value : Number)
  | string (value : String)
  | array (items : List Value)
  | object (members : List (String × Value))
  deriving Repr, Inhabited

/-- A whole number that cannot be negative. -/
def Value.ofNat (n : Nat) : Value :=
  .number (.integer n)

end ExerciseAudit.Json
