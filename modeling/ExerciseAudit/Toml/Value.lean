/-!
# TOML values

A document's values with the places where they are written. A table remembers how it came about, because
that decides in which ways it may still grow; of numbers and times only what a reader of settings can tell
apart is kept.
-/

namespace ExerciseAudit.Toml

/-- A stretch of a text, by how many bytes of the text come after its start and after its end. -/
structure Span where
  fromStart : Nat
  fromEnd : Nat
  deriving DecidableEq, Repr

/-- A key with the place where it is written. -/
structure Key where
  text : String
  span : Span
  deriving DecidableEq, Repr

/-- How a table came about. -/
inductive TableKind where
  /-- As a part of the name in the header of another table. -/
  | implied
  /-- As a part of a dotted key. -/
  | dotted
  /-- By a header of its own; the document itself counts as such. -/
  | headed
  /-- Between braces, and therefore complete. -/
  | inline
  deriving DecidableEq, Repr

/-- A value. -/
inductive Value where
  | string (text : String)
  | integer (value : Int)
  /-- A number with a fraction or exponent, and whether it is within range. -/
  | float (inRange : Bool)
  | boolean (value : Bool)
  | datetime
  /-- An array, or, if it is one `ofTables`, the tables that share a doubly bracketed header. -/
  | array (ofTables : Bool) (items : List (Span × Value))
  | table (kind : TableKind) (members : List (Key × Span × Value))
  deriving Repr

/-- A key with its value and the place where the value is written. -/
abbrev Member := Key × Span × Value

/-- The kind of a value, as messages name it. -/
def Value.kindName : Value → String
  | string _ => "string"
  | integer _ => "integer"
  | float _ => "float"
  | boolean _ => "boolean"
  | datetime => "datetime"
  | array .. => "array"
  | table .. => "table"

/-- The member of a name. -/
def member? (name : String) (members : List Member) : Option Member :=
  members.find? (·.1.text = name)

/-- The members with a new value for one of them. -/
def replaceMember (name : String) (span : Span) (value : Value) (members : List Member) : List Member :=
  members.map fun (key, oldSpan, old) =>
    if key.text = name then (key, span, value) else (key, oldSpan, old)

mutual

/-- Whether all numbers of a value pass a test of integers and are within range. -/
def Value.allNumbers (integer : Int → Bool) : Value → Bool
  | .integer value => integer value
  | .float inRange => inRange
  | .array _ items => allItems integer items
  | .table _ members => allMembers integer members
  | _ => true

/-- Whether all numbers of some items pass. -/
def allItems (integer : Int → Bool) : List (Span × Value) → Bool
  | [] => true
  | (_, value) :: rest => value.allNumbers integer && allItems integer rest

/-- Whether all numbers of some members pass. -/
def allMembers (integer : Int → Bool) : List (Key × Span × Value) → Bool
  | [] => true
  | (_, _, value) :: rest => value.allNumbers integer && allMembers integer rest

end

end ExerciseAudit.Toml
