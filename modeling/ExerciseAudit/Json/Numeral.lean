import ExerciseAudit.Json.Token

/-!
# The value of a number

A number's digits are gathered into a 64-bit significand and a power of ten, and the two are combined in
binary floating point, each step rounded to nearest. Digits that no longer fit the significand are dropped:
in front of the point they still count for the power of ten. A number without fraction and exponent that
fits 64 bits stays an integer.
-/

namespace ExerciseAudit.Json

open Decimal (Binary64 Signed64)

/-- The greatest significand. -/
def maxSignificand : Nat := powerOfTwo 64 - 1

/-- The greatest exponent that is taken at its value. -/
def maxWrittenExponent : Nat := powerOfTwo 31 - 1

/-- The most digits behind a point with which any exponent of a number up to `10 ^ 300` can be taken at its
value. -/
def maxWrittenDecimals : Nat := maxWrittenExponent - 300

/-- Add digits to a number while the result stays within a bound; the digits that were not added are left. -/
def gather (bound : Nat) : Nat → List Char → Nat × List Char
  | n, [] => (n, [])
  | n, c :: rest =>
    if bound < n * 10 + digitValue c then (n, c :: rest) else gather bound (n * 10 + digitValue c) rest

/-- A power of ten up to `10 ^ 308`, rounded. -/
def roundedPower (k : Nat) : Binary64 :=
  (Binary64.ofQuotient? (powerOfTen k) 1).getD .zero

/-- A number divided by a power of ten, by at most `10 ^ 308` at a time. -/
def scaleDown (x : Binary64) (k : Nat) : Binary64 :=
  if k ≤ 308 then (x.div? (roundedPower k)).getD .zero
  else if x.mantissa = 0 then x
  else scaleDown ((x.div? (roundedPower 308)).getD .zero) (k - 308)
termination_by k

/-- A significand times a power of ten, if it is within range. -/
def scale? (significand : Nat) (exponent : Int) : Option Binary64 := do
  let x ← Binary64.ofQuotient? significand 1
  if exponent < 0 then pure (scaleDown x exponent.natAbs)
  else if exponent ≤ 308 then x.mul? (roundedPower exponent.natAbs)
  else if x.mantissa = 0 then pure x
  else none

namespace Numeral

/-- The significand, the power of ten it stands for, and whether all digits of the whole part fit. -/
def significand (numeral : Numeral) : Nat × Int × Bool :=
  let (start, dropped) := gather maxSignificand 0 numeral.whole
  let fraction := numeral.fraction.getD []
  let (significand, unused) := gather maxSignificand start fraction
  (significand, (dropped.length : Int) - (fraction.length - unused.length : Nat), dropped.isEmpty)

/-- The value of a number that is not an integer of 64 bits; `rest` is what follows it. -/
def float (numeral : Numeral) (negative : Bool) (rest : List Char) : Except Fault Number :=
  let (significand, power, _) := numeral.significand
  let finish (x : Option Binary64) : Except Fault Number :=
    match x with
    | some x => .ok (.float ⟨negative, x⟩)
    | none => .error (.before .numberOutOfRange rest)
  match numeral.exponent with
  | none => finish (scale? significand power)
  | some (down, digits) =>
    match gather maxWrittenExponent 0 digits with
    | (exponent, []) => finish (scale? significand (if down then power - exponent else power + exponent))
    | (_, _ :: unread) =>
      if significand ≠ 0 ∧ down = false then .error ⟨.numberOutOfRange, Utf8.size unread + Utf8.size rest⟩
      else finish (some .zero)

/-- The value of a number; `rest` is what follows it. Negative zero is not an integer. -/
def value (numeral : Numeral) (negative : Bool) (rest : List Char) : Except Fault Number :=
  let (significand, _, fits) := numeral.significand
  if numeral.fraction = none ∧ numeral.exponent = none ∧ fits = true then
    if negative = false then .ok (.integer significand)
    else if significand ≠ 0 ∧ significand ≤ powerOfTwo 63 then .ok (.integer (-significand))
    else numeral.float negative rest
  else numeral.float negative rest

end Numeral

/-- A number. -/
def readNumber (text : List Char) : Except Fault (Number × List Char) := do
  let (negative, digits) := match text with
    | '-' :: digits => (true, digits)
    | digits => (false, digits)
  let (numeral, rest) ← readNumeral .endInValue digits
  let value ← numeral.value negative rest
  pure (value, rest)

/-- What follows a number of which only the form matters. -/
def skipNumber (text : List Char) : Except Fault (List Char) := do
  let digits := match text with
    | '-' :: digits => digits
    | digits => digits
  let (_, rest) ← readNumeral .invalidNumber digits
  pure rest

end ExerciseAudit.Json
