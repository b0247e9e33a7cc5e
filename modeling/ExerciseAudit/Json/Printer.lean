import ExerciseAudit.Decimal.Shortest
import ExerciseAudit.Json.Value

/-!
# Printing JSON

Values are laid out with two blanks of indentation a level, one item or member a line, and nothing between
the brackets of an empty array or object. Only quotes, backslashes and control characters are escaped.
-/

namespace ExerciseAudit.Json

/-- How numbers with a fraction are laid out: positionally from `0.00001` up to sixteen digits. -/
def numberLayout : Decimal.Layout := ⟨some (-5), some 15⟩

/-- The text of a number. -/
def Number.write : Number → String
  | integer value => toString value
  | float value => value.write numberLayout

/-- A lowercase hexadecimal digit. -/
def hexDigit (n : Nat) : Char :=
  if n < 10 then Char.ofNat (0x30 + n) else Char.ofNat (0x57 + n)

/-- How a character stands in a string. -/
def escape (c : Char) : List Char :=
  if c = '"' then ['\\', '"']
  else if c = '\\' then ['\\', '\\']
  else if c = '\n' then ['\\', 'n']
  else if c = '\r' then ['\\', 'r']
  else if c = '\t' then ['\\', 't']
  else if c.toNat = 0x8 then ['\\', 'b']
  else if c.toNat = 0xC then ['\\', 'f']
  else if c.toNat < 0x20 then ['\\', 'u', '0', '0', hexDigit (c.toNat / 16), hexDigit (c.toNat % 16)]
  else [c]

/-- A string between its quotes. -/
def quote (text : String) : List Char :=
  '"' :: text.toList.flatMap escape ++ ['"']

/-- The start of a new line at a level of indentation. -/
def newLine (level : Nat) : List Char :=
  '\n' :: List.replicate (2 * level) ' '

mutual

/-- The text of a value whose brackets close at a level of indentation. -/
def Value.print (level : Nat) : Value → List Char
  | .null => ['n', 'u', 'l', 'l']
  | .bool true => ['t', 'r', 'u', 'e']
  | .bool false => ['f', 'a', 'l', 's', 'e']
  | .number value => value.write.toList
  | .string text => quote text
  | .array [] => ['[', ']']
  | .array (first :: rest) =>
    '[' :: newLine (level + 1) ++ first.print (level + 1) ++ printItems (level + 1) rest ++
      newLine level ++ [']']
  | .object [] => ['\x7b', '\x7d']
  | .object (first :: rest) =>
    '\x7b' :: newLine (level + 1) ++ printMember (level + 1) first ++ printMembers (level + 1) rest ++
      newLine level ++ ['\x7d']

/-- A member at the start of its line. -/
def printMember (level : Nat) : String × Value → List Char
  | (key, value) => quote key ++ ':' :: ' ' :: value.print level

/-- The items after the first, each after a comma and on a line of its own. -/
def printItems (level : Nat) : List Value → List Char
  | [] => []
  | item :: rest => ',' :: newLine level ++ item.print level ++ printItems level rest

/-- The members after the first, each after a comma and on a line of its own. -/
def printMembers (level : Nat) : List (String × Value) → List Char
  | [] => []
  | member :: rest => ',' :: newLine level ++ printMember level member ++ printMembers level rest

end

/-- The text of a value. -/
def Value.pretty (value : Value) : String :=
  String.ofList (value.print 0)

end ExerciseAudit.Json
