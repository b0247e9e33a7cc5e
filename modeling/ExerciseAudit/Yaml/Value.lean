import ExerciseAudit.Decimal.Shortest
import ExerciseAudit.Yaml.Node

/-!
# YAML values

What a document means: its plain scalars read as null, truth values, numbers or text, its aliases replaced
by what they stand for. A document has a value unless a mapping repeats a key, a scalar is not what its tag
says, or collections or aliases go too far.
-/

namespace ExerciseAudit.Yaml

/-- A number with a fraction or exponent. -/
inductive Real where
  | finite (value : Decimal.Signed64)
  | infinite (negative : Bool)
  | notNumber
  deriving DecidableEq, Repr

/-- How a number is written out: without an exponent. -/
def Real.write : Real → String
  | finite value => value.write ⟨none, none⟩
  | infinite negative => if negative then "-inf" else "inf"
  | notNumber => "NaN"

/-- Whether two numbers count as one key: zeros do, and so do all that are not numbers. -/
def Real.same : Real → Real → Bool
  | finite x, finite y => x = y ∨ (x.magnitude.mantissa = 0 ∧ y.magnitude.mantissa = 0)
  | x, y => x = y

/-- What a scalar means. -/
inductive Meaning where
  | null
  | bool (value : Bool)
  /-- An integer; a `wide` one takes more than 64 bits. -/
  | integer (value : Int) (wide : Bool)
  | real (value : Real)
  | string
  /-- Not what its tag says. -/
  | mistagged
  deriving DecidableEq, Repr

/-- A spelling of null. -/
def isNull (text : String) : Bool :=
  text ∈ ["null", "Null", "NULL", "~"]

/-- A spelling of a truth value. -/
def bool? (text : String) : Option Bool :=
  if text ∈ ["true", "True", "TRUE"] then some true
  else if text ∈ ["false", "False", "FALSE"] then some false
  else none

/-- The number that digits of a base spell. -/
def number? (base : Nat) (digits : List Char) : Option Nat :=
  if digits.isEmpty then none
  else digits.foldlM (fun n c => do
    let digit ← Json.hexValue? c
    if digit < base then pure (n * base + digit) else none) 0

/-- Digits that start with a zero before another digit, with or without a sign: text, not a number. -/
def isPaddedNumber (text : List Char) : Bool :=
  let digits := match text with
    | '-' :: rest => rest
    | '+' :: rest => rest
    | rest => rest
  match digits with
  | '0' :: rest => !rest.isEmpty && rest.all Json.isDigit
  | _ => false

/-- A whole number without its sign, in base ten, or in another that is said in front. -/
def magnitude? : List Char → Option Nat
  | '0' :: 'x' :: digits => number? 16 digits
  | '0' :: 'o' :: digits => number? 8 digits
  | '0' :: 'b' :: digits => number? 2 digits
  | digits => number? 10 digits

/-- A whole number that fits 128 bits, signed if it is negative. -/
def integer? (text : List Char) : Option Int :=
  if isPaddedNumber text then none
  else
    let value : Option Int := match text with
      | '-' :: digits => (magnitude? digits).map fun n => -(n : Int)
      | '+' :: digits => (magnitude? digits).map fun n => (n : Int)
      | digits => (magnitude? digits).map fun n => (n : Int)
    value.filter (fitsWord 128)

/-- A finite number in decimal with a point or an exponent, or neither; one too great is none. -/
def finite? (text : List Char) : Option Decimal.Signed64 := do
  let (negative, digits) := match text with
    | '-' :: rest => (true, rest)
    | '+' :: rest => (false, rest)
    | rest => (false, rest)
  let whole := digits.takeWhile Json.isDigit
  let (fraction, rest) := match digits.dropWhile Json.isDigit with
    | '.' :: rest => (rest.takeWhile Json.isDigit, rest.dropWhile Json.isDigit)
    | rest => ([], rest)
  let significand ← number? 10 (whole ++ fraction)
  let power ← match rest with
    | [] => some (0 : Int)
    | mark :: exponent =>
      if mark = 'e' ∨ mark = 'E' then
        match exponent with
        | '-' :: digits => (number? 10 digits).map fun n => -(n : Int)
        | '+' :: digits => (number? 10 digits).map fun n => (n : Int)
        | digits => (number? 10 digits).map fun n => (n : Int)
      else none
  let value ← Decimal.Binary64.ofDecimal? significand (power - fraction.length)
  pure ⟨negative, value⟩

/-- A number with a fraction or an exponent, or a spelling of what is not finite. -/
def real? (text : List Char) : Option Real :=
  let word := String.ofList text
  let unsigned := match text with
    | '+' :: rest => rest
    | rest => rest
  if text.head? = some '+' ∧ (unsigned.head? = some '+' ∨ unsigned.head? = some '-') then none
  else if String.ofList unsigned ∈ [".inf", ".Inf", ".INF"] then some (.infinite false)
  else if word ∈ ["-.inf", "-.Inf", "-.INF"] then some (.infinite true)
  else if word ∈ [".nan", ".NaN", ".NAN"] then some .notNumber
  else if isPaddedNumber text then none
  else (finite? unsigned).map .finite

/-- An integer with its width. -/
def Meaning.ofInteger (n : Int) : Meaning :=
  .integer n (!fitsWord 64 n)

/-- What a plain scalar without a tag of its own means. -/
def Meaning.ofPlain (text : String) : Meaning :=
  if text = "" ∨ isNull text then .null
  else match bool? text with
    | some value => .bool value
    | none =>
      match integer? text.toList with
      | some n => ofInteger n
      | none => (real? text.toList).elim .string .real

/-- The address of a standard tag. -/
def standardTag (name : String) : String :=
  "tag:yaml.org,2002:" ++ name

/-- The name in a tag that belongs to the application: what follows the exclamation mark, or the mark if
nothing does. -/
def localTag? (tag : Option String) : Option String :=
  match tag.map String.toList with
  | some ['!'] => some "!"
  | some ('!' :: name) => some (String.ofList name)
  | _ => none

/-- What a scalar means, given its tag. -/
def Meaning.ofScalar (tag : Option String) (text : String) (plain : Bool) : Meaning :=
  match tag with
  | some address =>
    if address = standardTag "bool" then (bool? text).elim .mistagged .bool
    else if address = standardTag "int" then (integer? text.toList).elim .mistagged ofInteger
    else if address = standardTag "float" then (real? text.toList).elim .mistagged .real
    else if address = standardTag "null" then if isNull text then .null else .mistagged
    else if (localTag? tag).isSome ∧ plain then ofPlain text
    else .string
  | none => if plain then ofPlain text else .string

/-- A value. -/
inductive Value where
  | null
  | bool (value : Bool)
  | integer (value : Int)
  | real (value : Real)
  | string (text : String)
  | sequence (items : List Value)
  | mapping (members : List (Value × Value))
  | tagged (tag : String) (value : Value)
  deriving Repr

mutual

/-- Whether two values count as one key. The order of a mapping's members does not matter. -/
def Value.same : Value → Value → Bool
  | .null, .null => true
  | .bool x, .bool y => x = y
  | .integer x, .integer y => x = y
  | .real x, .real y => x.same y
  | .string x, .string y => x = y
  | .sequence xs, .sequence ys => sameItems xs ys
  | .mapping xs, .mapping ys => xs.length = ys.length && sameMembers xs ys
  | .tagged s x, .tagged t y => s = t && x.same y
  | _, _ => false

/-- Whether the items of two sequences are the same, one by one. -/
def sameItems : List Value → List Value → Bool
  | [], [] => true
  | x :: xs, y :: ys => x.same y && sameItems xs ys
  | _, _ => false

/-- Whether all members of a mapping are in another. -/
def sameMembers : List (Value × Value) → List (Value × Value) → Bool
  | [], _ => true
  | (key, value) :: rest, others =>
    others.any (fun other => key.same other.1 && value.same other.2) && sameMembers rest others

end

mutual

/-- How many nodes and ends of collections a node comes to. -/
def Node.size : Node → Nat
  | .alias .. => 1
  | .scalar .. => 1
  | .sequence _ items => 2 + sizeItems items
  | .mapping _ members => 2 + sizeMembers members

/-- The size of some items. -/
def sizeItems : List Node → Nat
  | [] => 0
  | item :: rest => item.size + sizeItems rest

/-- The size of some members. -/
def sizeMembers : List (Node × Node) → Nat
  | [] => 0
  | (key, value) :: rest => key.size + value.size + sizeMembers rest

end

mutual

/-- The nodes with an anchor of a number, in the order in which they start. -/
def Node.anchored (number : Nat) : Node → List Node
  | .alias .. => []
  | .scalar properties text plain =>
    if properties.anchor = some number then [.scalar properties text plain] else []
  | .sequence properties items =>
    (if properties.anchor = some number then [.sequence properties items] else []) ++
      anchoredItems number items
  | .mapping properties members =>
    (if properties.anchor = some number then [.mapping properties members] else []) ++
      anchoredMembers number members

/-- The nodes with an anchor of a number among some items. -/
def anchoredItems (number : Nat) : List Node → List Node
  | [] => []
  | item :: rest => item.anchored number ++ anchoredItems number rest

/-- The nodes with an anchor of a number among some members. -/
def anchoredMembers (number : Nat) : List (Node × Node) → List Node
  | [] => []
  | (key, value) :: rest =>
    key.anchored number ++ value.anchored number ++ anchoredMembers number rest

end

/-- The node that an alias of a number stands for: the last that has the anchor. -/
def Node.target? (document : Node) (number : Nat) : Option Node :=
  (document.anchored number).getLast?

/-- How deep collections may nest. -/
def maxDepth : Nat := 128

/-- How often aliases may be followed, for each node of the document. -/
def followsPerNode : Nat := 100

/-- The node that stands for a node, itself or the target of an alias, and how often aliases have been
followed by then. -/
def Node.follow? (document node : Node) (follows : Nat) : Option (Node × Nat) :=
  match node with
  | .alias _ number =>
    if document.size * followsPerNode < follows + 1 then none
    else (document.target? number).map fun target => (target, follows + 1)
  | node => some (node, follows)

/-- Wrap a value in the tag of the application, if its node has one. -/
def Value.withTag (tag : Option String) (value : Value) : Value :=
  (localTag? tag).elim value fun name => .tagged name value

/-- The value of a scalar; one of more than 64 bits is none. -/
def Value.ofScalar? (tag : Option String) (text : String) (plain : Bool) : Option Value :=
  match Meaning.ofScalar tag text plain with
  | .null => some (.null)
  | .bool value => some (.bool value)
  | .integer n wide => if wide then none else some (.integer n)
  | .real value => some (.real value)
  | .string => some (.string text)
  | .mistagged => none

/-- The value of a node that is not an alias, with collections nested at most `depth` deep, and how often
aliases have been followed by then. -/
def Value.ofNode? (document : Node) : (depth : Nat) → Node → Nat → Option (Value × Nat)
  | _, .alias .., _ => none
  | _, .scalar properties text plain, follows => do
    let value ← ofScalar? properties.tag text plain
    pure (value.withTag properties.tag, follows)
  | 0, _, _ => none
  | depth + 1, .sequence properties items, follows => do
    let (values, follows) ← items.foldlM (fun ((values, follows) : List Value × Nat) item => do
      let (node, follows) ← document.follow? item follows
      let (value, follows) ← ofNode? document depth node follows
      pure (value :: values, follows)) ([], follows)
    pure (Value.withTag properties.tag (.sequence values.reverse), follows)
  | depth + 1, .mapping properties members, follows => do
    let (values, follows) ← members.foldlM (fun ((values, follows) : List (Value × Value) × Nat) member => do
      let (key, follows) ← document.follow? member.1 follows
      let (key, follows) ← ofNode? document depth key follows
      guard (!values.any fun (other : Value × Value) => key.same other.1)
      let (value, follows) ← document.follow? member.2 follows
      let (value, follows) ← ofNode? document depth value follows
      pure ((key, value) :: values, follows)) ([], follows)
    pure (Value.withTag properties.tag (.mapping values.reverse), follows)

/-- The value of a document. -/
def Value.ofDocument? (document : Node) : Option Value :=
  (ofNode? document maxDepth document 0).map Prod.fst

end ExerciseAudit.Yaml
