import ExerciseAudit.Json.Fault

/-!
# Tokens of JSON

Readers of what a value is made of: blanks, words, strings and numbers. Each takes the rest of a text and
gives what it read with what is left. Strings and numbers are read in two ways, strictly where their value
is wanted and by form alone where they are skipped.
-/

namespace ExerciseAudit.Json

/-- What a reader gives: a result with the rest of the text, or a fault. -/
abbrev Outcome (α : Type) := Except Fault (α × List Char)

/-- A character that may stand between tokens. -/
def isSpace (c : Char) : Bool :=
  c == ' ' || c == '\n' || c == '\t' || c == '\r'

/-- A text without the blanks at its start. -/
def skipSpace (text : List Char) : List Char :=
  text.dropWhile isSpace

/-- A decimal digit. -/
def isDigit (c : Char) : Bool :=
  '0' ≤ c && c ≤ '9'

/-- The value of a decimal digit. -/
def digitValue (c : Char) : Nat :=
  c.toNat - '0'.toNat

/-- The rest of a word whose first letter has been read. -/
def readWord : (expected : List Char) → List Char → Except Fault (List Char)
  | [], rest => .ok rest
  | _ :: _, [] => .error (.before .endInValue [])
  | letter :: letters, c :: rest =>
    if c = letter then readWord letters rest else .error (.behind .expectedWord (c :: rest))

/-- The value of a hexadecimal digit of either case. -/
def hexValue? (c : Char) : Option Nat :=
  if '0' ≤ c ∧ c ≤ '9' then some (c.toNat - '0'.toNat)
  else if 'a' ≤ c ∧ c ≤ 'f' then some (c.toNat - 'a'.toNat + 10)
  else if 'A' ≤ c ∧ c ≤ 'F' then some (c.toNat - 'A'.toNat + 10)
  else none

/-- The sixteen bits that four hexadecimal digits spell. -/
def unit? (a b c d : Char) : Option Nat := do
  let a ← hexValue? a
  let b ← hexValue? b
  let c ← hexValue? c
  let d ← hexValue? d
  pure (((a * 16 + b) * 16 + c) * 16 + d)

/-- The first half of a pair that spells a character above U+FFFF. -/
def isLeadUnit (unit : Nat) : Bool :=
  0xD800 ≤ unit && unit ≤ 0xDBFF

/-- The second half of a pair that spells a character above U+FFFF. -/
def isTrailUnit (unit : Nat) : Bool :=
  0xDC00 ≤ unit && unit ≤ 0xDFFF

/-- The character that a pair of halves spells. -/
def pairChar (lead trail : Nat) : Char :=
  Char.ofNat (0x10000 + (lead - 0xD800) * 0x400 + (trail - 0xDC00))

/-- What a letter behind a backslash stands for. -/
def escaped? (c : Char) : Option Char :=
  if c = '"' ∨ c = '\\' ∨ c = '/' then some c
  else if c = 'b' then some '\x08'
  else if c = 'f' then some '\x0c'
  else if c = 'n' then some '\n'
  else if c = 'r' then some '\r'
  else if c = 't' then some '\t'
  else none

/-- The fault of four bytes that are not four hexadecimal digits, or of fewer than four. -/
def brokenUnit (rest : List Char) : Fault :=
  if Utf8.size rest < 4 then .before .endInString [] else ⟨.invalidEscape, Utf8.size rest - 4⟩

/-- Put a character in front of what was read. -/
def withChar (c : Char) (outcome : Outcome (List Char)) : Outcome (List Char) :=
  outcome.map fun (text, rest) => (c :: text, rest)

/-- The characters of a string whose opening quote has been read, with what follows its closing quote. -/
def readString : List Char → Outcome (List Char)
  | [] => .error (.before .endInString [])
  | c :: rest =>
    if c = '"' then .ok ([], rest)
    else if c = '\\' then
      match rest with
      | [] => .error (.before .endInString [])
      | 'u' :: digits =>
        match digits with
        | a :: b :: c :: d :: rest =>
          match unit? a b c d with
          | none => .error (brokenUnit digits)
          | some unit =>
            if isTrailUnit unit then .error (.before .loneSurrogate rest)
            else if isLeadUnit unit then
              match rest with
              | [] => .error (.before .endInString [])
              | '\\' :: [] => .error (.before .endInString [])
              | '\\' :: 'u' :: digits =>
                match digits with
                | a :: b :: c :: d :: rest =>
                  match unit? a b c d with
                  | none => .error (brokenUnit digits)
                  | some trail =>
                    if isTrailUnit trail then withChar (pairChar unit trail) (readString rest)
                    else .error (.before .loneSurrogate rest)
                | _ => .error (brokenUnit digits)
              | '\\' :: rest => .error (.behind .unexpectedEndOfEscape rest)
              | rest => .error (.behind .unexpectedEndOfEscape rest)
            else withChar (Char.ofNat unit) (readString rest)
        | _ => .error (brokenUnit digits)
      | e :: rest =>
        match escaped? e with
        | some c => withChar c (readString rest)
        | none => .error (.behind .invalidEscape (e :: rest))
    else if c.toNat < 0x20 then .error (.before .controlCharacter rest)
    else withChar c (readString rest)

/-- What follows a string whose opening quote has been read, and of which only the form matters. -/
def skipString : List Char → Except Fault (List Char)
  | [] => .error (.before .endInString [])
  | c :: rest =>
    if c = '"' then .ok rest
    else if c = '\\' then
      match rest with
      | [] => .error (.before .endInString [])
      | 'u' :: digits =>
        match digits with
        | a :: b :: c :: d :: rest =>
          if (unit? a b c d).isSome then skipString rest else .error (brokenUnit digits)
        | _ => .error (brokenUnit digits)
      | e :: rest =>
        if (escaped? e).isSome then skipString rest else .error (.behind .invalidEscape (e :: rest))
    else if c.toNat < 0x20 then .error (.before .controlCharacter (c :: rest))
    else skipString rest

/-- A number as it is written, without its sign. -/
structure Numeral where
  whole : List Char
  /-- The digits behind the point. -/
  fraction : Option (List Char)
  /-- Whether the exponent is negative, and its digits. -/
  exponent : Option (Bool × List Char)
  deriving DecidableEq, Repr

/-- The exponent of a number, if one starts here. The cause is for a text that ends too early. -/
def readExponent (atEnd : Cause) : List Char → Outcome (Option (Bool × List Char))
  | [] => .ok (none, [])
  | e :: rest =>
    if e = 'e' ∨ e = 'E' then
      let (negative, digits) := match rest with
        | '+' :: digits => (false, digits)
        | '-' :: digits => (true, digits)
        | digits => (false, digits)
      match digits with
      | [] => .error (.before atEnd [])
      | c :: _ =>
        if isDigit c then .ok (some (negative, digits.takeWhile isDigit), digits.dropWhile isDigit)
        else .error (.behind .invalidNumber digits)
    else .ok (none, e :: rest)

/-- The fraction of a number, if one starts here. -/
def readFraction (atEnd : Cause) : List Char → Outcome (Option (List Char))
  | '.' :: [] => .error (.before atEnd [])
  | '.' :: c :: rest =>
    if isDigit c then .ok (some ((c :: rest).takeWhile isDigit), (c :: rest).dropWhile isDigit)
    else .error (.behind .invalidNumber (c :: rest))
  | rest => .ok (none, rest)

/-- The digits of a number in front of its fraction. There is no second digit behind a zero. -/
def readWhole (atEnd : Cause) : List Char → Outcome (List Char)
  | [] => .error (.before atEnd [])
  | c :: rest =>
    if c = '0' then
      match rest with
      | [] => .ok ([c], [])
      | d :: rest => if isDigit d then .error (.behind .invalidNumber (d :: rest)) else .ok ([c], d :: rest)
    else if isDigit c then .ok ((c :: rest).takeWhile isDigit, (c :: rest).dropWhile isDigit)
    else .error (.behind .invalidNumber (c :: rest))

/-- A number without its sign. The cause is for a text that ends where a digit has to come. -/
def readNumeral (atEnd : Cause) (text : List Char) : Except Fault (Numeral × List Char) := do
  let (whole, rest) ← readWhole atEnd text
  let (fraction, rest) ← readFraction atEnd rest
  let (exponent, rest) ← readExponent atEnd rest
  pure (⟨whole, fraction, exponent⟩, rest)

end ExerciseAudit.Json
