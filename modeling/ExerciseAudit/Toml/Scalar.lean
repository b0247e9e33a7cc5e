import ExerciseAudit.Decimal.Binary64
import ExerciseAudit.Toml.Text
import ExerciseAudit.Toml.Value

/-!
# Scalars of TOML

What an unquoted word on the right of an equals sign means: a truth value, a number or a point in time.
-/

namespace ExerciseAudit.Toml

/-- Digits without the underscores that may stand between two of them. -/
def digits? (isDigit : Char → Bool) : List Char → Option (List Char)
  | [] => none
  | [c] => if isDigit c then some [c] else none
  | c :: '_' :: rest => if isDigit c then (digits? isDigit rest).map (c :: ·) else none
  | c :: rest => if isDigit c then (digits? isDigit rest).map (c :: ·) else none

/-- The number that digits of a base spell. -/
def valueOf (base : Nat) (digits : List Char) : Nat :=
  digits.foldl (fun n c => n * base + (Json.hexValue? c).getD 0) 0

/-- The digits of a whole number in decimal, which has no zero in front. -/
def whole? (text : List Char) : Option (List Char) :=
  match digits? Json.isDigit text with
  | some ('0' :: _ :: _) => none
  | found => found

/-- A sign, and what follows it. -/
def splitSign : List Char → Bool × List Char
  | '-' :: rest => (true, rest)
  | '+' :: rest => (false, rest)
  | rest => (false, rest)

/-- An integer. -/
def integer? : List Char → Option Int
  | '0' :: 'x' :: rest =>
    (digits? (fun c => (Json.hexValue? c).isSome) rest).map fun digits => (valueOf 16 digits : Int)
  | '0' :: 'o' :: rest =>
    (digits? (fun c => '0' ≤ c && c ≤ '7') rest).map fun digits => (valueOf 8 digits : Int)
  | '0' :: 'b' :: rest =>
    (digits? (fun c => c == '0' || c == '1') rest).map fun digits => (valueOf 2 digits : Int)
  | text =>
    let (negative, digits) := splitSign text
    (whole? digits).map fun digits =>
      if negative then -(valueOf 10 digits : Int) else (valueOf 10 digits : Int)

/-- A number with a fraction or an exponent: whether it is within range. -/
def float? (text : List Char) : Option Bool := do
  let (_, unsigned) := splitSign text
  if unsigned = ['i', 'n', 'f'] ∨ unsigned = ['n', 'a', 'n'] then pure true
  else
    let isMark (c : Char) : Bool := c == 'e' || c == 'E'
    let significand := unsigned.takeWhile (!isMark ·)
    let whole ← whole? (significand.takeWhile (· ≠ '.'))
    let fraction ← match significand.dropWhile (· ≠ '.') with
      | [] => pure []
      | _ :: digits => digits? Json.isDigit digits
    let power ← match unsigned.dropWhile (!isMark ·) with
      | [] => if fraction.isEmpty then none else pure (0 : Int)
      | _ :: exponent =>
        let (negative, digits) := splitSign exponent
        let digits ← digits? Json.isDigit digits
        pure (if negative then -(valueOf 10 digits : Int) else (valueOf 10 digits : Int))
    pure (Decimal.Binary64.ofDecimal? (valueOf 10 (whole ++ fraction)) (power - fraction.length)).isSome

/-- How many days a month has. -/
def daysIn (year month : Nat) : Nat :=
  if month = 2 then
    if year % 4 = 0 ∧ (year % 100 ≠ 0 ∨ year % 400 = 0) then 29 else 28
  else if month = 4 ∨ month = 6 ∨ month = 9 ∨ month = 11 then 30
  else 31

/-- Two digits within bounds, and what follows them. -/
def twoDigits? (low high : Nat) : List Char → Option (Nat × List Char)
  | a :: b :: rest =>
    let n := valueOf 10 [a, b]
    if Json.isDigit a ∧ Json.isDigit b ∧ low ≤ n ∧ n ≤ high then some (n, rest) else none
  | _ => none

/-- What follows a date. -/
def date? : List Char → Option (List Char)
  | a :: b :: c :: d :: '-' :: rest => do
    guard ([a, b, c, d].all Json.isDigit)
    let (month, rest) ← twoDigits? 1 12 rest
    match rest with
    | '-' :: rest =>
      let (_, rest) ← twoDigits? 1 (daysIn (valueOf 10 [a, b, c, d]) month) rest
      pure rest
    | _ => none
  | _ => none

/-- What follows the fraction of a second, if there is one. -/
def secondFraction? : List Char → Option (List Char)
  | '.' :: c :: rest => if Json.isDigit c then some (rest.dropWhile Json.isDigit) else none
  | '.' :: [] => none
  | rest => some rest

/-- What follows a time of day, in which the seconds may be left out. -/
def time? (text : List Char) : Option (List Char) := do
  let (_, rest) ← twoDigits? 0 23 text
  match rest with
  | ':' :: rest =>
    let (_, rest) ← twoDigits? 0 59 rest
    match rest with
    | ':' :: rest =>
      let (_, rest) ← twoDigits? 0 60 rest
      secondFraction? rest
    | rest => pure rest
  | _ => none

/-- Whether a text is the distance of a local time from universal time. -/
def isOffset : List Char → Bool
  | ['Z'] => true
  | ['z'] => true
  | sign :: rest =>
    (sign == '+' || sign == '-') && match twoDigits? 0 23 rest with
      | some (_, ':' :: rest) => (twoDigits? 0 59 rest).any (·.2.isEmpty)
      | _ => false
  | [] => false

/-- Whether a text is a date, a time of day, or both with or without an offset. -/
def isDatetime (text : List Char) : Bool :=
  match date? text with
  | some [] => true
  | some (mark :: rest) =>
    (mark == 'T' || mark == 't' || mark == ' ') && match time? rest with
      | some [] => true
      | some rest => isOffset rest
      | none => false
  | none => time? text == some []

/-- A character of an unquoted word. -/
def isWordChar (c : Char) : Bool :=
  0x21 ≤ c.toNat && c.toNat != 0x7F && c != '#' && c != ',' && c != '[' && c != ']' && c != '=' &&
    c != '\x7b' && c != '\x7d' && c != '"' && c != '\''

/-- The word at the start of a text, and what follows it. A blank between a date and a time of day belongs
to the word. -/
def splitWord (text : List Char) : List Char × List Char :=
  let word := text.takeWhile isWordChar
  match text.dropWhile isWordChar with
  | ' ' :: c :: rest =>
    if date? word = some [] ∧ Json.isDigit c then
      (word ++ ' ' :: (c :: rest).takeWhile isWordChar, (c :: rest).dropWhile isWordChar)
    else (word, ' ' :: c :: rest)
  | rest => (word, rest)

/-- The value of an unquoted word. -/
def wordValue? (word : List Char) : Option Value :=
  if word = ['t', 'r', 'u', 'e'] then some (.boolean true)
  else if word = ['f', 'a', 'l', 's', 'e'] then some (.boolean false)
  else if isDatetime word then some .datetime
  else match integer? word with
    | some value => some (.integer value)
    | none => (float? word).map .float

end ExerciseAudit.Toml
