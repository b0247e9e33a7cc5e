import ExerciseAudit.Json.Numeral
import Mathlib.Algebra.Order.Field.Power
import Mathlib.Algebra.Order.Ring.Rat
import Mathlib.Data.Nat.Cast.Order.Field
import Mathlib.Data.Nat.Log
import Mathlib.Tactic.FieldSimp
import Mathlib.Tactic.GCongr
import Mathlib.Tactic.Linarith
import Mathlib.Tactic.NormNum
import Mathlib.Tactic.Positivity
import Mathlib.Tactic.Ring

/-!
# How far rounding goes

Rounding to the binary format refuses no quotient up to `2 ^ 1000`, and of a whole number it makes
at most twice the number. So a product that stays well below the greatest number of the format can
be had.
-/

namespace ExerciseAudit.Decimal.Binary64

/-- The number for which a float stands. -/
def value (x : Binary64) : ℚ :=
  x.mantissa * 2 ^ x.exponent

theorem value_nonneg (x : Binary64) : 0 ≤ x.value := by
  unfold value
  positivity

/-- A power of two with an integer exponent as a quotient of two with natural ones. -/
theorem two_zpow_eq (exponent : Int) :
    (2 : ℚ) ^ exponent = 2 ^ exponent.toNat / 2 ^ (-exponent).toNat := by
  rw [← zpow_natCast, ← zpow_natCast, ← zpow_sub₀ (by norm_num), Int.toNat_sub_toNat_neg]

/-- Rounding a quotient adds at most one to its floor. -/
theorem roundQuotient_le (num den : Nat) : roundQuotient num den ≤ num / den + 1 := by
  unfold roundQuotient
  simp only
  have parity := Nat.mod_lt (num / den) (by norm_num : 0 < 2)
  split
  · omega
  · split <;> omega

/-- A rounded quotient is measured in units that are not much greater than the places of the
quotient allow, and a mantissa that is too long moves to the next unit. -/
theorem exists_rounded {num : Nat} (den : Nat) (inhabited : num ≠ 0) :
    ∃ (exponent : Int) (rounded : Binary64),
      exponent ≤ max (-1074) ((num.log2 : Int) - den.log2 - 53) + 1 ∧
      rounded.exponent ≤ exponent + 1 ∧
      rounded.value = roundQuotient (inUnits num den exponent).1 (inUnits num den exponent).2 *
        2 ^ exponent ∧
      ofQuotient? num den = if maxExponent < rounded.exponent then none else some rounded := by
  unfold ofQuotient?
  simp only [if_neg inhabited]
  let guess : Int := max minExponent ((num.log2 : Int) - den.log2 - 53)
  let exponent : Int :=
    if powerOfTwo 53 ≤ (inUnits num den guess).1 / (inUnits num den guess).2 then guess + 1
    else guess
  let mantissa := roundQuotient (inUnits num den exponent).1 (inUnits num den exponent).2
  refine ⟨exponent, if mantissa = powerOfTwo 53 then ⟨powerOfTwo 52, exponent + 1⟩
    else ⟨mantissa, exponent⟩, ?_, ?_, ?_, rfl⟩
  · change exponent ≤ guess + 1
    simp only [exponent]
    split <;> omega
  · split <;> simp only <;> omega
  · split
    case isTrue full =>
      have whole : (powerOfTwo 53 : ℚ) = powerOfTwo 52 * 2 := by
        simp only [powerOfTwo, Nat.pow_eq]
        norm_num
      change (powerOfTwo 52 : ℚ) * 2 ^ (exponent + 1) = mantissa * 2 ^ exponent
      rw [full, whole, zpow_add_one₀ (by norm_num)]
      ring
    case isFalse => rfl

/-- A quotient up to `2 ^ 1000` is within range. -/
theorem exists_ofQuotient? {num den places : Nat} (few : places ≤ 1000)
    (small : num ≤ den * 2 ^ places) : ∃ x, ofQuotient? num den = some x := by
  by_cases nothing : num = 0
  · exact ⟨zero, by simp [ofQuotient?, nothing]⟩
  · obtain ⟨exponent, rounded, low, next, _, result⟩ := exists_rounded den nothing
    have less : num < 2 ^ (den.log2 + 1 + places) := by
      calc num ≤ den * 2 ^ places := small
        _ < 2 ^ (den.log2 + 1) * 2 ^ places := by
          gcongr
          exact Nat.lt_log2_self
        _ = 2 ^ (den.log2 + 1 + places) := by rw [← pow_add]
    have log : num.log2 < den.log2 + 1 + places := (Nat.log2_lt nothing).mpr less
    have within : ¬ maxExponent < rounded.exponent := by
      simp only [maxExponent]
      omega
    rw [if_neg within] at result
    exact ⟨rounded, result⟩

/-- Rounding makes at most twice the number of a whole number. -/
theorem value_le_of_ofQuotient? {n : Nat} {x : Binary64} (found : ofQuotient? n 1 = some x) :
    x.value ≤ 2 * n := by
  by_cases nothing : n = 0
  · have none : zero = x := by simpa [ofQuotient?, nothing] using found
    simp [← none, value, zero, nothing]
  · obtain ⟨exponent, rounded, low, _, worth, result⟩ := exists_rounded 1 nothing
    rw [result] at found
    split at found
    case isTrue => cases found
    case isFalse =>
      cases found
      have unit : (2 : ℚ) ^ exponent ≤ n := by
        have places : (2 : ℚ) ^ n.log2 ≤ n := by exact_mod_cast Nat.log2_self_le nothing
        refine le_trans ?_ places
        rw [← zpow_natCast]
        apply zpow_le_zpow_right₀ (by norm_num)
        have one : Nat.log2 1 = 0 := by decide
        rw [one] at low
        omega
      have units :
          ((inUnits n 1 exponent).1 / (inUnits n 1 exponent).2 : ℚ) * 2 ^ exponent = n := by
        simp only [inUnits, powerOfTwo, Nat.pow_eq, one_mul]
        push_cast
        rw [two_zpow_eq exponent]
        field_simp
      have rounding : (roundQuotient (inUnits n 1 exponent).1 (inUnits n 1 exponent).2 : ℚ) ≤
          (inUnits n 1 exponent).1 / (inUnits n 1 exponent).2 + 1 := by
        apply le_trans (Nat.cast_le.mpr (roundQuotient_le _ _))
        push_cast
        gcongr
        exact Nat.cast_div_le
      rw [worth]
      calc (roundQuotient (inUnits n 1 exponent).1 (inUnits n 1 exponent).2 : ℚ) * 2 ^ exponent
          ≤ ((inUnits n 1 exponent).1 / (inUnits n 1 exponent).2 + 1) * 2 ^ exponent := by gcongr
        _ = n + 2 ^ exponent := by rw [add_mul, units, one_mul]
        _ ≤ 2 * n := by linarith

/-- A product up to `2 ^ 1000` is within range. -/
theorem exists_mul? {x y : Binary64} {places : Nat} (few : places ≤ 1000)
    (small : x.value * y.value ≤ 2 ^ places) : ∃ product, x.mul? y = some product := by
  have quotient (z : Binary64) : (z.toQuotient.1 : ℚ) = z.value * z.toQuotient.2 := by
    simp only [toQuotient, value, powerOfTwo, Nat.pow_eq]
    push_cast
    rw [two_zpow_eq z.exponent]
    field_simp
  apply exists_ofQuotient? few
  have bound : (x.toQuotient.1 * y.toQuotient.1 : ℚ) ≤
      x.toQuotient.2 * y.toQuotient.2 * 2 ^ places := by
    calc (x.toQuotient.1 * y.toQuotient.1 : ℚ)
        = x.toQuotient.2 * y.toQuotient.2 * (x.value * y.value) := by
          rw [quotient, quotient]
          ring
      _ ≤ x.toQuotient.2 * y.toQuotient.2 * 2 ^ places := by gcongr
  exact_mod_cast bound

end ExerciseAudit.Decimal.Binary64
