import ExerciseAudit.Proofs.Decimal.Binary64
import ExerciseAudit.Proofs.Json.Figure

/-!
# Which numbers are within range

A reader gathers the digits of a number into a significand that may miss some of them. With the
power of ten it stands for, the significand is at most twice the number, so every number up to `10 ^
300` can be read (`Figure.exists_number?`), unless its exponent is too long to be counted.
-/

namespace ExerciseAudit.Json

open Decimal (Binary64)

/-! ## Digits -/

/-- Digits behind a number that other digits spell. -/
theorem foldl_digits (start : Nat) (digits : List (Fin 10)) :
    digits.foldl (fun n digit => n * 10 + digit.val) start =
      start * 10 ^ digits.length + natural digits := by
  unfold natural
  induction digits generalizing start with
  | nil => simp
  | cons digit digits ih =>
    rw [List.foldl_cons, List.foldl_cons, ih, ih (0 * 10 + digit.val), List.length_cons]
    ring

/-- What digits say when further digits stand behind them. -/
theorem natural_append (digits others : List (Fin 10)) :
    natural (digits ++ others) = natural digits * 10 ^ others.length + natural others := by
  unfold natural
  rw [List.foldl_append]
  exact foldl_digits _ others

/-- Digits that stand behind others add to what these say. -/
theorem natural_le_append (digits others : List (Fin 10)) :
    natural digits ≤ natural (digits ++ others) := by
  rw [natural_append]
  exact (Nat.le_mul_of_pos_right _ (by positivity)).trans (Nat.le_add_right _ _)

/-- Digits that stand behind others add to what these say as decimals. -/
theorem natural_div_le_append (digits others : List (Fin 10)) :
    (natural digits : ℚ) / 10 ^ digits.length ≤
      natural (digits ++ others) / 10 ^ (digits ++ others).length := by
  have split : (natural (digits ++ others) : ℚ) / 10 ^ (digits ++ others).length =
      natural digits / 10 ^ digits.length +
        natural others / (10 ^ digits.length * 10 ^ others.length) := by
    rw [natural_append, List.length_append, pow_add]
    push_cast
    field_simp
  rw [split]
  exact le_add_of_nonneg_right (by positivity)

/-- As many digits stay below that power of ten. -/
theorem natural_lt (digits : List (Fin 10)) : natural digits < 10 ^ digits.length := by
  induction digits using List.reverseRecOn with
  | nil => simp [natural]
  | append_singleton digits digit ih =>
    have last : natural [digit] = digit.val := by simp [natural]
    rw [natural_append, List.length_append, List.length_singleton, pow_add, pow_one, last]
    omega

/-- Digits are gathered as long as the number stays within the bound. -/
theorem exists_gather_eq (bound start : Nat) (digits : List (Fin 10)) :
    ∃ used left, digits = used ++ left ∧
      gather bound start (digits.map digitChar) =
        (start * 10 ^ used.length + natural used, left.map digitChar) ∧
      ∀ digit ∈ left.head?, bound < (start * 10 ^ used.length + natural used) * 10 + digit.val := by
  induction digits generalizing start with
  | nil => exact ⟨[], [], rfl, by simp [gather, natural], by simp⟩
  | cons digit digits ih =>
    by_cases more : bound < start * 10 + digit.val
    · refine ⟨[], digit :: digits, rfl, ?_, ?_⟩
      · simp [gather, digitValue_digitChar, more, natural]
      · simpa [natural] using more
    · obtain ⟨used, left, split, gathered, full⟩ := ih (start * 10 + digit.val)
      have worth : (start * 10 + digit.val) * 10 ^ used.length + natural used =
          start * 10 ^ (digit :: used).length + natural (digit :: used) := by
        have front := natural_append [digit] used
        have single : natural [digit] = digit.val := by simp [natural]
        rw [List.singleton_append, single] at front
        rw [front, List.length_cons]
        ring
      refine ⟨digit :: used, left, by rw [split, List.cons_append], ?_, ?_⟩
      · rw [List.map_cons, gather, digitValue_digitChar, if_neg more, gathered, worth]
      · rwa [worth] at full

/-- What is gathered of digits never exceeds the bound. -/
theorem gather_le {bound start : Nat} (within : start ≤ bound) (digits : List Char) :
    (gather bound start digits).1 ≤ bound := by
  induction digits generalizing start with
  | nil => exact within
  | cons digit digits ih =>
    rw [gather]
    split
    case isTrue => exact within
    case isFalse more => exact ih (not_lt.mp more)

/-! ## Powers of ten -/

/-- The most that rounding makes of a number within range is far below the overflow of a double. -/
theorem eight_mul_le : (8 : ℚ) * 10 ^ 300 ≤ 2 ^ 1000 := by
  have natural : 8 * 10 ^ 300 ≤ 2 ^ 1000 := by decide +kernel
  exact_mod_cast natural

/-- A rounded power of ten is at most twice the exact one. -/
theorem value_roundedPower_le (k : Nat) : (roundedPower k).value ≤ 2 * 10 ^ k := by
  unfold roundedPower
  cases rounded : Binary64.ofQuotient? (powerOfTen k) 1 with
  | none =>
    have none : Binary64.zero.value = 0 := by simp [Binary64.value, Binary64.zero]
    rw [Option.getD_none, none]
    positivity
  | some x =>
    have double := Binary64.value_le_of_ofQuotient? rounded
    simpa [powerOfTen] using double

/-- A significand and a power of ten that come to at most `2 * 10 ^ 300` are within range. -/
theorem exists_scale? {significand : Nat} {power : Int} (bounded : significand ≤ maxSignificand)
    (small : (significand : ℚ) * 10 ^ power ≤ 2 * 10 ^ 300) :
    ∃ x, scale? significand power = some x := by
  have short : significand ≤ 1 * 2 ^ 64 := by
    have word : maxSignificand ≤ 1 * 2 ^ 64 := by decide
    omega
  obtain ⟨x, rounded⟩ := Binary64.exists_ofQuotient? (by norm_num) short
  unfold scale?
  rw [rounded]
  simp only [bind, Option.bind_some]
  by_cases down : power < 0
  · rw [if_pos down]
    exact ⟨_, rfl⟩
  · obtain ⟨k, rfl⟩ := Int.eq_ofNat_of_zero_le (not_lt.mp down)
    rw [if_neg down, Int.natAbs_natCast]
    rw [zpow_natCast] at small
    split
    case isTrue few =>
      apply Binary64.exists_mul? le_rfl
      calc x.value * (roundedPower k).value
          ≤ (2 * significand) * (2 * 10 ^ k) := by
            have double := Binary64.value_le_of_ofQuotient? rounded
            have doublePower := value_roundedPower_le k
            have positive := x.value_nonneg
            have positivePower := (roundedPower k).value_nonneg
            gcongr
        _ = 4 * (significand * 10 ^ k) := by ring
        _ ≤ 4 * (2 * 10 ^ 300) := by gcongr
        _ = 8 * 10 ^ 300 := by rw [← mul_assoc, show (4 : ℚ) * 2 = 8 by norm_num]
        _ ≤ 2 ^ 1000 := eight_mul_le
    case isFalse many =>
      have nothing : significand = 0 := by
        by_contra inhabited
        have one : (1 : ℚ) ≤ significand := by exact_mod_cast Nat.one_le_iff_ne_zero.mpr inhabited
        have chain : (10 : ℚ) * 10 ^ 300 ≤ 2 * 10 ^ 300 := by
          calc (10 : ℚ) * 10 ^ 300 = 10 ^ 301 := (pow_succ' ..).symm
            _ ≤ 10 ^ k := pow_le_pow_right₀ (by norm_num) (by omega)
            _ ≤ significand * 10 ^ k := le_mul_of_one_le_left (by positivity) one
            _ ≤ 2 * 10 ^ 300 := small
        exact absurd (le_of_mul_le_mul_right chain (by positivity)) (by norm_num)
      subst nothing
      have none : Binary64.zero = x := by simpa [Binary64.ofQuotient?] using rounded
      subst none
      exact ⟨_, rfl⟩

/-! ## Significands -/

namespace Figure

/-- All digits of a number, as one whole number. -/
def digits (figure : Figure) : Nat :=
  natural (figure.whole.all ++ figure.decimals)

theorem getD_fraction_numeral (figure : Figure) :
    figure.numeral.fraction.getD [] = figure.decimals.map digitChar := by
  unfold numeral decimals
  cases figure.fraction <;> rfl

/-- A significand and the power of ten it stands for come to at most twice the number without its
exponent. -/
theorem significand_le (figure : Figure) :
    (figure.numeral.significand.1 : ℚ) * 10 ^ figure.numeral.significand.2.1 ≤
      2 * (figure.digits / 10 ^ figure.decimals.length) := by
  obtain ⟨used, dropped, whole, gathered, full⟩ :=
    exists_gather_eq maxSignificand 0 figure.whole.all
  rw [Nat.zero_mul, Nat.zero_add] at gathered full
  obtain ⟨taken, left, decimals, continued, _⟩ :=
    exists_gather_eq maxSignificand (natural used) figure.decimals
  have parts : figure.numeral.significand =
      (natural used * 10 ^ taken.length + natural taken, (dropped.length : Int) - taken.length,
        dropped.isEmpty) := by
    unfold Numeral.significand
    rw [getD_fraction_numeral]
    simp only [numeral, gathered, continued, List.length_map, List.isEmpty_map]
    rw [decimals, List.length_append, Nat.add_sub_cancel]
  have power : (10 : ℚ) ^ ((dropped.length : Int) - taken.length) =
      10 ^ dropped.length / 10 ^ taken.length := by
    rw [zpow_sub₀ (by norm_num), zpow_natCast, zpow_natCast]
  have all : (figure.digits : ℚ) / 10 ^ figure.decimals.length =
      natural used * 10 ^ dropped.length + natural dropped +
        natural figure.decimals / 10 ^ figure.decimals.length := by
    unfold digits
    rw [natural_append, whole, natural_append]
    push_cast
    field_simp
  have worth : ((natural used * 10 ^ taken.length + natural taken : Nat) : ℚ) *
      (10 ^ dropped.length / 10 ^ taken.length) =
        natural used * 10 ^ dropped.length +
          natural taken / 10 ^ taken.length * 10 ^ dropped.length := by
    push_cast
    field_simp
  rw [parts, all]
  simp only [power, worth]
  cases dropped with
  | nil =>
    -- Every digit in front of the point is there, so only digits behind it can be missing.
    have behind : (natural taken : ℚ) / 10 ^ taken.length ≤
        natural figure.decimals / 10 ^ figure.decimals.length := by
      rw [decimals]
      exact natural_div_le_append taken left
    have front : (0 : ℚ) ≤ natural used := Nat.cast_nonneg _
    have empty : (0 : ℚ) ≤ (natural ([] : List (Fin 10)) : ℚ) := Nat.cast_nonneg _
    have decimal : (0 : ℚ) ≤ natural figure.decimals / 10 ^ figure.decimals.length := by positivity
    simp only [List.length_nil, pow_zero, mul_one]
    linarith
  | cons digit dropped =>
    -- The significand is full, so what comes behind the point adds less than one to its last place.
    have bound := full digit rfl
    have large : (1 : ℚ) ≤ natural used := by
      have some : 1 ≤ natural used := by
        have small := digit.isLt
        have tens : 10 ≤ maxSignificand := by decide
        omega
      exact_mod_cast some
    have less : (natural taken : ℚ) / 10 ^ taken.length ≤ 1 := by
      rw [div_le_one (by positivity)]
      exact_mod_cast (natural_lt taken).le
    have scale : (0 : ℚ) ≤ 10 ^ (digit :: dropped).length := by positivity
    have share : (natural taken : ℚ) / 10 ^ taken.length * 10 ^ (digit :: dropped).length ≤
        natural used * 10 ^ (digit :: dropped).length := by
      gcongr
      exact less.trans large
    have rest : (0 : ℚ) ≤ natural (digit :: dropped) := Nat.cast_nonneg _
    have decimal : (0 : ℚ) ≤ natural figure.decimals / 10 ^ figure.decimals.length := by positivity
    linarith

/-- What is gathered of a figure's digits never exceeds the largest significand. -/
theorem significand_le_max (figure : Figure) :
    figure.numeral.significand.1 ≤ maxSignificand := by
  unfold Numeral.significand
  exact gather_le (gather_le (Nat.zero_le _) _) _

/-- A figure's magnitude from its digits, how many of them are decimals, and its exponent. -/
theorem magnitude_eq (figure : Figure) : figure.magnitude =
    figure.digits / 10 ^ figure.decimals.length *
      10 ^ (figure.exponent.map Exponent.value).getD 0 := by
  unfold magnitude
  rw [zpow_sub₀ (by norm_num), zpow_natCast]
  change (figure.digits : ℚ) * _ = _
  ring

/-- What a reader scales is at most twice the number. -/
theorem significand_mul_le (figure : Figure) {power : Int}
    (same : power = (figure.exponent.map Exponent.value).getD 0) :
    (figure.numeral.significand.1 : ℚ) * 10 ^ (figure.numeral.significand.2.1 + power) ≤
      2 * figure.magnitude := by
  rw [zpow_add₀ (by norm_num), ← mul_assoc, magnitude_eq, ← same, ← mul_assoc]
  exact mul_le_mul_of_nonneg_right figure.significand_le (by positivity)

theorem magnitude_nonneg (figure : Figure) : 0 ≤ figure.magnitude := by
  rw [magnitude_eq]
  positivity

/-- A figure's magnitude is its value without the sign. -/
theorem abs_value (figure : Figure) : |figure.value| = figure.magnitude := by
  unfold value
  split
  · rw [abs_neg, abs_of_nonneg figure.magnitude_nonneg]
  · exact abs_of_nonneg figure.magnitude_nonneg

/-- A number that is not nothing and has an exponent above what can be counted is beyond `10 ^ 300`,
unless it has that many digits behind the point. -/
theorem exponent_le_of_magnitude_le {figure : Figure} {exponent : Int}
    (given : (figure.exponent.map Exponent.value).getD 0 = exponent)
    (inhabited : figure.numeral.significand.1 ≠ 0) (small : figure.magnitude ≤ 10 ^ 300) :
    exponent ≤ 300 + figure.decimals.length := by
  have some : 1 ≤ figure.digits := by
    by_contra none
    have zero : figure.digits = 0 := by omega
    have bound := figure.significand_le
    rw [zero] at bound
    have positive : (0 : ℚ) < figure.numeral.significand.1 *
        10 ^ figure.numeral.significand.2.1 := by
      have significand : (0 : ℚ) < figure.numeral.significand.1 := by
        exact_mod_cast Nat.pos_of_ne_zero inhabited
      positivity
    simp only [Nat.cast_zero, zero_div, mul_zero] at bound
    exact absurd positive (not_lt.mpr bound)
  have least : (10 : ℚ) ^ (exponent - figure.decimals.length) ≤ figure.magnitude := by
    unfold magnitude
    rw [given]
    have one : (1 : ℚ) ≤ natural (figure.whole.all ++ figure.decimals) := by exact_mod_cast some
    exact le_mul_of_one_le_left (by positivity) one
  have powers := least.trans small
  rw [← zpow_natCast, zpow_le_zpow_iff_right₀ (by norm_num)] at powers
  push_cast at powers
  omega

/-- A number up to `10 ^ 300` is within range, unless its exponent cannot be counted. -/
theorem exists_float {figure : Figure} (small : |figure.value| ≤ 10 ^ 300)
    (short : figure.decimals.length ≤ maxWrittenDecimals) :
    ∃ number, figure.numeral.float figure.negative [] = .ok number := by
  rw [abs_value] at small
  have scaled {power : Int} (same : power = (figure.exponent.map Exponent.value).getD 0) :
      ∃ x, scale? figure.numeral.significand.1 (figure.numeral.significand.2.1 + power) =
        some x := by
    refine exists_scale? figure.significand_le_max ((figure.significand_mul_le same).trans ?_)
    gcongr
  cases given : figure.exponent with
  | none =>
    have absent : figure.numeral.exponent = none := by rw [numeral, given, Option.map_none]
    have still : (0 : Int) = (figure.exponent.map Exponent.value).getD 0 := by rw [given]; rfl
    obtain ⟨x, found⟩ := scaled still
    rw [add_zero] at found
    simp only [Numeral.float, absent, found]
    exact ⟨_, rfl⟩
  | some exponent =>
    have present : figure.numeral.exponent = some (decide (exponent.down = some true),
        exponent.digits.all.map digitChar) := by rw [numeral, given, Option.map_some]
    have worth : (figure.exponent.map Exponent.value).getD 0 = exponent.value := by rw [given]; rfl
    obtain ⟨used, left, split, gathered, full⟩ :=
      exists_gather_eq maxWrittenExponent 0 exponent.digits.all
    rw [Nat.zero_mul, Nat.zero_add] at gathered full
    cases left with
    | nil =>
      rw [List.append_nil] at split
      have power : (if decide (exponent.down = some true) = true then
          figure.numeral.significand.2.1 - (natural used : Int)
          else figure.numeral.significand.2.1 + natural used) =
            figure.numeral.significand.2.1 + exponent.value := by
        unfold Exponent.value
        rw [split]
        by_cases down : exponent.down = some true <;> simp [down, sub_eq_add_neg]
      obtain ⟨x, found⟩ := scaled worth.symm
      rw [← power] at found
      simp only [Numeral.float, present, gathered, List.map_nil, found]
      exact ⟨_, rfl⟩
    | cons digit left =>
      have harmless : ¬ (figure.numeral.significand.1 ≠ 0 ∧
          decide (exponent.down = some true) = false) := by
        intro given
        rcases given with ⟨inhabited, up⟩
        have bound := exponent_le_of_magnitude_le worth inhabited small
        have counts : figure.decimals.length + 300 ≤ maxWrittenExponent :=
          Nat.add_le_of_le_sub (by decide) short
        have counted : maxWrittenExponent < natural exponent.digits.all := by
          have front := natural_append used [digit]
          have last : natural [digit] = digit.val := by simp [natural]
          have beyond := full digit rfl
          rw [List.length_singleton, pow_one, last] at front
          calc maxWrittenExponent < natural (used ++ [digit]) := by omega
            _ ≤ natural (used ++ [digit] ++ left) := natural_le_append _ left
            _ = natural exponent.digits.all := by
              rw [List.append_assoc, List.singleton_append, ← split]
        have value : exponent.value = natural exponent.digits.all := by
          unfold Exponent.value
          rw [if_neg (by simpa using up)]
        omega
      simp only [Numeral.float, present, gathered, List.map_cons, harmless, ↓reduceIte]
      exact ⟨_, rfl⟩

/-- A number up to `10 ^ 300` can be read, unless its exponent cannot be counted. -/
theorem exists_number? {figure : Figure} (small : |figure.value| ≤ 10 ^ 300)
    (short : figure.decimals.length ≤ maxWrittenDecimals) :
    ∃ number, figure.number? = some number := by
  obtain ⟨float, given⟩ := exists_float small short
  unfold number? Numeral.value
  simp only [given]
  split
  · split
    · exact ⟨_, rfl⟩
    · split <;> exact ⟨_, rfl⟩
  · exact ⟨_, rfl⟩

end Figure

end ExerciseAudit.Json
