import ExerciseAudit.Decimal.Power

/-!
# Binary floating-point numbers

The finite numbers of the 64-bit binary format, as exact mantissas and exponents, with rounding of an exact
quotient to the nearest of them (ties to the even mantissa). Products and quotients of such numbers are
rounded the same way, so every result here is a definite natural-number computation.
-/

namespace ExerciseAudit.Decimal

/-- A finite non-negative number of the format: `mantissa * 2 ^ exponent`, with a mantissa below `2 ^ 53`
that is at least `2 ^ 52` unless the exponent is the least one. -/
structure Binary64 where
  mantissa : Nat
  exponent : Int
  deriving DecidableEq, Repr

namespace Binary64

/-- The least exponent of the format. -/
def minExponent : Int := -1074

/-- The greatest exponent of the format. -/
def maxExponent : Int := 971

/-- Zero. -/
def zero : Binary64 := ⟨0, minExponent⟩

/-- A quotient of natural numbers, rounded to the nearest natural number, ties to even. -/
def roundQuotient (num den : Nat) : Nat :=
  let whole := num / den
  let rest := num % den
  if 2 * rest < den then whole
  else if den < 2 * rest then whole + 1
  else whole + whole % 2

/-- The numerator and denominator of a quotient measured in units of `2 ^ exponent`. -/
def inUnits (num den : Nat) (exponent : Int) : Nat × Nat :=
  (num * powerOfTwo (-exponent).toNat, den * powerOfTwo exponent.toNat)

/-- The number nearest to a quotient, or nothing if that is beyond the format's range. -/
def ofQuotient? (num den : Nat) : Option Binary64 :=
  if num = 0 then some zero
  else
    let guess : Int := max minExponent ((num.log2 : Int) - den.log2 - 53)
    let scaled := inUnits num den guess
    let exponent := if powerOfTwo 53 ≤ scaled.1 / scaled.2 then guess + 1 else guess
    let units := inUnits num den exponent
    let mantissa := roundQuotient units.1 units.2
    let rounded : Binary64 :=
      if mantissa = powerOfTwo 53 then ⟨powerOfTwo 52, exponent + 1⟩ else ⟨mantissa, exponent⟩
    if maxExponent < rounded.exponent then none else some rounded

/-- The number nearest to `digits * 10 ^ exponent`, or nothing if that is beyond the range. Decimals far
outside the range are told by the place of their first digit alone. -/
def ofDecimal? (digits : Nat) (exponent : Int) : Option Binary64 :=
  if digits = 0 then some zero
  else
    let lead := exponent + (Nat.toDigits 10 digits).length
    if 310 < lead then none
    else if lead < -330 then some zero
    else ofQuotient? (digits * powerOfTen exponent.toNat) (powerOfTen (-exponent).toNat)

/-- A number of the format as an exact quotient. -/
def toQuotient (x : Binary64) : Nat × Nat :=
  (x.mantissa * powerOfTwo x.exponent.toNat, powerOfTwo (-x.exponent).toNat)

/-- The product of two numbers, if it is within range. -/
def mul? (x y : Binary64) : Option Binary64 :=
  let (a, b) := x.toQuotient
  let (c, d) := y.toQuotient
  ofQuotient? (a * c) (b * d)

/-- The quotient of two numbers, if it is within range. -/
def div? (x y : Binary64) : Option Binary64 :=
  let (a, b) := x.toQuotient
  let (c, d) := y.toQuotient
  ofQuotient? (a * d) (b * c)

end Binary64

/-- A finite number of the format with its sign, which zero has as well. -/
structure Signed64 where
  negative : Bool
  magnitude : Binary64
  deriving DecidableEq, Repr

end ExerciseAudit.Decimal
