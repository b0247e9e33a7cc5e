import ExerciseAudit.Decimal.Binary64

/-!
# Shortest decimals

The decimal with the fewest digits that reads back as a given binary number, and the nearest to it among
those. The candidates of a given number of digits are the two neighbours of the number on the decimal grid
of that many digits.
-/

namespace ExerciseAudit.Decimal

/-- A decimal `digits * 10 ^ exponent`. -/
structure Digits where
  digits : Nat
  exponent : Int
  deriving DecidableEq, Repr

/-- How many decimal digits a number is written with. -/
def digitCount (n : Nat) : Nat :=
  (Nat.toDigits 10 n).length

/-- A decimal as an exact quotient. -/
def Digits.toQuotient (d : Digits) : Nat × Nat :=
  (d.digits * powerOfTen d.exponent.toNat, powerOfTen (-d.exponent).toNat)

/-- Whether one quotient is below another. -/
def quotientLt (x y : Nat × Nat) : Bool :=
  x.1 * y.2 < y.1 * x.2

/-- Whether a decimal lies among the reals that round to a number: between the midpoints to its neighbours,
which belong to it when its mantissa is even. -/
def Digits.readsBack (d : Digits) (x : Binary64) : Bool :=
  let below := if x.mantissa = powerOfTwo 52 ∧ Binary64.minExponent < x.exponent then 1 else 2
  let low := (⟨4 * x.mantissa - below, x.exponent - 2⟩ : Binary64).toQuotient
  let high := (⟨4 * x.mantissa + 2, x.exponent - 2⟩ : Binary64).toQuotient
  if x.mantissa % 2 = 0 then !quotientLt d.toQuotient low && !quotientLt high d.toQuotient
  else quotientLt low d.toQuotient && quotientLt d.toQuotient high

/-- The exponent of ten below a number: `10 ^ k ≤ x < 10 ^ (k + 1)`. -/
def leadingExponent (x : Binary64) : Int :=
  let (num, den) := x.toQuotient
  let guess : Int := (digitCount num : Int) - digitCount den
  if quotientLt (num, den) (Digits.toQuotient ⟨1, guess⟩) then guess - 1 else guess

/-- The best decimal of a given exponent that reads back as a number, of the two that stand around it. -/
def neighbour? (x : Binary64) (exponent : Int) : Option Digits :=
  let (num, den) := x.toQuotient
  let top := num * powerOfTen (-exponent).toNat
  let bottom := den * powerOfTen exponent.toNat
  let down : Digits := ⟨top / bottom, exponent⟩
  let up : Digits := ⟨top / bottom + 1, exponent⟩
  let rest := top % bottom
  let downFirst := 2 * rest < bottom || (2 * rest == bottom && down.digits % 2 == 0)
  match down.readsBack x, up.readsBack x with
  | true, true => some (if downFirst then down else up)
  | true, false => some down
  | false, true => some up
  | false, false => none

/-- A decimal without trailing zeros, given how many digits it may have at most. -/
def Digits.trim : Nat → Digits → Digits
  | 0, d => d
  | n + 1, d => if d.digits % 10 = 0 ∧ d.digits ≠ 0 then trim n ⟨d.digits / 10, d.exponent + 1⟩ else d

/-- The shortest decimal that reads back as a number; zero is `0`. -/
def shortest (x : Binary64) : Digits :=
  if x.mantissa = 0 then ⟨0, 0⟩
  else
    let lead := leadingExponent x
    let found := (List.range 17).findSome? fun (n : Nat) => neighbour? x (lead - n)
    Digits.trim 20 (found.getD ⟨0, 0⟩)

/-- How a decimal is laid out: the exponents of its first digit that are written without an exponent. -/
structure Layout where
  /-- The least exponent written positionally, if there is one. -/
  least : Option Int
  /-- The greatest exponent written positionally, if there is one. -/
  greatest : Option Int

/-- Write a decimal: positionally with at least one digit after the point, or with a signed exponent of at
least two digits. -/
def Layout.write (layout : Layout) (d : Digits) : String :=
  let text := Nat.toDigits 10 d.digits
  let lead := d.exponent + text.length - 1
  if layout.least.all (· ≤ lead) && layout.greatest.all (lead ≤ ·) then
    if 0 ≤ d.exponent then
      String.ofList (text ++ List.replicate d.exponent.toNat '0' ++ ['.', '0'])
    else if 0 ≤ lead then
      String.ofList (text.take (lead.toNat + 1) ++ '.' :: text.drop (lead.toNat + 1))
    else
      String.ofList ('0' :: '.' :: List.replicate (-lead - 1).toNat '0' ++ text)
  else
    let power := Nat.toDigits 10 lead.natAbs
    let padded := if power.length < 2 then '0' :: power else power
    let fraction := match text with
      | [single] => [single]
      | first :: rest => first :: '.' :: rest
      | [] => []
    String.ofList (fraction ++ 'e' :: (if 0 ≤ lead then '+' else '-') :: padded)

/-- Write a signed number with its shortest decimal. -/
def Signed64.write (layout : Layout) (x : Signed64) : String :=
  (if x.negative then "-" else "") ++ layout.write (shortest x.magnitude)

end ExerciseAudit.Decimal
