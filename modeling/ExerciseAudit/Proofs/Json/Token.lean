import ExerciseAudit.Proofs.Json.Writing
import Mathlib.Data.Fintype.Basic
import Mathlib.Tactic.FinCases

/-!
# Reading what is written: tokens

Each reader of a token takes exactly the token that a writing has there, whatever follows it, and
gives what the writing spells or refuses it if it spells nothing. Results are compared without their
faults, since where and why a text is refused depends on all that follows.
-/

namespace ExerciseAudit.Json

/-! ## Blanks and words -/

theorem isSpace_char (blank : Blank) : isSpace blank.char = true := by
  cases blank <;> decide

theorem skipSpace_spaces (blanks : List Blank) (rest : List Char) :
    skipSpace (spaces blanks ++ rest) = skipSpace rest := by
  induction blanks with
  | nil => rfl
  | cons blank blanks ih =>
    unfold skipSpace spaces at ih ⊢
    rw [List.map_cons, List.cons_append, List.dropWhile_cons_of_pos (isSpace_char blank), ih]

theorem skipSpace_cons {c : Char} (visible : isSpace c = false) (rest : List Char) :
    skipSpace (c :: rest) = c :: rest := by
  unfold skipSpace
  rw [List.dropWhile_cons_of_neg (by simp [visible])]

/-! ## Strings -/

theorem toOption_withChar (c : Char) (outcome : Outcome (List Char)) :
    (withChar c outcome).toOption = outcome.toOption.map fun (text, rest) => (c :: text, rest) := by
  cases outcome <;> rfl

theorem hexValue?_char (digit : HexDigit) : hexValue? digit.char = some digit.value.val := by
  obtain ⟨value, upper⟩ := digit
  revert value upper
  decide

theorem unit?_char (a b c d : HexDigit) :
    unit? a.char b.char c.char d.char = some (Glyph.code a b c d) := by
  simp [unit?, hexValue?_char, Glyph.code]

theorem letter_ne_u (escape : Escape) : escape.letter ≠ 'u' := by
  cases escape <;> decide

theorem readString_quote (rest : List Char) : readString ('"' :: rest) = .ok ([], rest) := by
  rw [readString.eq_def]
  rfl

theorem readString_plain {c : Char} (ordinary : 0x20 ≤ c.toNat ∧ c ≠ '"' ∧ c ≠ '\\')
    (rest : List Char) : readString (c :: rest) = withChar c (readString rest) := by
  obtain ⟨high, notQuote, notBackslash⟩ := ordinary
  rw [readString.eq_def]
  simp only [notQuote, notBackslash, not_lt.mpr high, ↓reduceIte]

theorem readString_short (escape : Escape) (rest : List Char) :
    readString ('\\' :: escape.letter :: rest) = withChar escape.meaning (readString rest) := by
  rw [readString.eq_def]
  cases escape <;> rfl

theorem isTrailUnit_iff {unit : Nat} : isTrailUnit unit = true ↔ 0xDC00 ≤ unit ∧ unit < 0xE000 := by
  simp only [isTrailUnit, Bool.and_eq_true, decide_eq_true_eq]
  omega

theorem isLeadUnit_iff {unit : Nat} : isLeadUnit unit = true ↔ 0xD800 ≤ unit ∧ unit < 0xDC00 := by
  simp only [isLeadUnit, Bool.and_eq_true, decide_eq_true_eq]
  omega

section Unit

variable {a b c d : HexDigit}

/-- The second half of a pair on its own is refused. -/
theorem readString_trail (trail : isTrailUnit (Glyph.code a b c d) = true) (rest : List Char) :
    (readString ('\\' :: 'u' :: a.char :: b.char :: c.char :: d.char :: rest)).toOption = none := by
  rw [readString.eq_def]
  simp [unit?_char, trail, Except.toOption]

/-- A unit that is no half of a pair stands for its character. -/
theorem readString_unit (noTrail : ¬ isTrailUnit (Glyph.code a b c d) = true)
    (noLead : ¬ isLeadUnit (Glyph.code a b c d) = true) (rest : List Char) :
    readString ('\\' :: 'u' :: a.char :: b.char :: c.char :: d.char :: rest) =
      withChar (Char.ofNat (Glyph.code a b c d)) (readString rest) := by
  rw [readString.eq_def]
  simp [unit?_char, noTrail, noLead]

/-- Two halves stand for the character of the pair. -/
theorem readString_pair {e f g h : HexDigit} (lead : isLeadUnit (Glyph.code a b c d) = true)
    (trail : isTrailUnit (Glyph.code e f g h) = true) (rest : List Char) :
    readString ('\\' :: 'u' :: a.char :: b.char :: c.char :: d.char ::
        '\\' :: 'u' :: e.char :: f.char :: g.char :: h.char :: rest) =
      withChar (pairChar (Glyph.code a b c d) (Glyph.code e f g h)) (readString rest) := by
  have noTrail : ¬ isTrailUnit (Glyph.code a b c d) = true := by
    rw [isLeadUnit_iff] at lead
    rw [isTrailUnit_iff]
    omega
  rw [readString.eq_def]
  simp [unit?_char, lead, noTrail, trail]

/-- A first half with another unit behind it is refused. -/
theorem readString_lead {e f g h : HexDigit} (lead : isLeadUnit (Glyph.code a b c d) = true)
    (noTrail : ¬ isTrailUnit (Glyph.code e f g h) = true) (rest : List Char) :
    (readString ('\\' :: 'u' :: a.char :: b.char :: c.char :: d.char ::
        '\\' :: 'u' :: e.char :: f.char :: g.char :: h.char :: rest)).toOption = none := by
  rw [readString.eq_def]
  by_cases trail : isTrailUnit (Glyph.code a b c d) = true
  · simp [unit?_char, trail, Except.toOption]
  · simp [unit?_char, lead, noTrail, trail, Except.toOption]

/-- A first half with no unit behind it is refused. -/
theorem readString_lone (lead : isLeadUnit (Glyph.code a b c d) = true) {rest : List Char}
    (alone : ∀ digits, rest ≠ '\\' :: 'u' :: digits) :
    (readString ('\\' :: 'u' :: a.char :: b.char :: c.char :: d.char :: rest)).toOption = none := by
  rw [readString.eq_def]
  by_cases trail : isTrailUnit (Glyph.code a b c d) = true
  · simp [unit?_char, trail, Except.toOption]
  · simp only [Char.reduceEq, ↓reduceIte, Bool.false_eq_true, unit?_char, trail, lead]
    split
    case h_3 digits => exact absurd rfl (alone digits)
    all_goals rfl

end Unit

theorem quoted_cons (glyph : Glyph) (glyphs : List Glyph) :
    quoted (glyph :: glyphs) = glyph.text ++ quoted glyphs := by
  simp [quoted]

/-- Only sixteen bits in hexadecimal digits start with a backslash and the letter for them. -/
theorem quoted_ne_of_not_unit {glyphs : List Glyph} {rest : List Char}
    (other : ∀ a b c d later, glyphs = .unit a b c d :: later → False) (digits : List Char) :
    quoted glyphs ++ rest ≠ '\\' :: 'u' :: digits := by
  cases glyphs with
  | nil => simp [quoted]
  | cons glyph later =>
    rw [quoted_cons]
    cases glyph with
    | plain c ordinary => simp [Glyph.text, ordinary.2.2]
    | short escape => simp [Glyph.text, letter_ne_u escape]
    | unit a b c d => exact absurd rfl (other a b c d later)

/-- A string is read as what its signs spell. -/
theorem toOption_readString (glyphs : List Glyph) (rest : List Char) :
    (readString (quoted glyphs ++ rest)).toOption =
      (Glyph.spelled? glyphs).map (·, rest) := by
  induction glyphs using Glyph.spelled?.induct with
  | case1 => simp [quoted, readString_quote, Glyph.spelled?, Except.toOption]
  | case2 c ordinary glyphs ih =>
    rw [quoted_cons, List.append_assoc, Glyph.spelled?]
    simp [Glyph.text, readString_plain ordinary, toOption_withChar, ih, Function.comp_def]
  | case3 escape glyphs ih =>
    rw [quoted_cons, List.append_assoc, Glyph.spelled?]
    simp [Glyph.text, readString_short, toOption_withChar, ih, Function.comp_def]
  | case4 a b c d glyphs trail =>
    rw [quoted_cons, List.append_assoc, Glyph.spelled?.eq_def]
    simp only [trail, and_self, ↓reduceIte, Option.map_none]
    exact readString_trail (isTrailUnit_iff.mpr trail) _
  | case5 a b c d noTrail lead e f g h glyphs trail ih =>
    rw [quoted_cons, quoted_cons, Glyph.spelled?, if_neg noTrail, if_pos lead, if_pos trail]
    simp only [Glyph.text, List.cons_append, List.nil_append]
    rw [readString_pair (isLeadUnit_iff.mpr lead) (isTrailUnit_iff.mpr trail), toOption_withChar,
      ih]
    simp [pairChar, Function.comp_def]
  | case6 a b c d noTrail lead e f g h glyphs noTrailBehind =>
    rw [quoted_cons, quoted_cons, Glyph.spelled?, if_neg noTrail, if_pos lead, if_neg noTrailBehind]
    simp only [Glyph.text, List.cons_append, List.nil_append]
    exact readString_lead (isLeadUnit_iff.mpr lead) (mt isTrailUnit_iff.mp noTrailBehind) _
  | case7 a b c d glyphs noTrail lead other =>
    rw [quoted_cons, List.append_assoc, Glyph.spelled?, if_neg noTrail, if_pos lead]
    · simp only [Glyph.text, List.cons_append, List.nil_append]
      rw [readString_lone (isLeadUnit_iff.mpr lead) (quoted_ne_of_not_unit other)]
      rfl
    · exact other
  | case8 a b c d glyphs noTrail noLead ih =>
    rw [quoted_cons, List.append_assoc, Glyph.spelled?.eq_def]
    simp only [noTrail, noLead, ↓reduceIte, Glyph.text, List.cons_append, List.nil_append]
    rw [readString_unit (mt isTrailUnit_iff.mp noTrail) (mt isLeadUnit_iff.mp noLead),
      toOption_withChar, ih]
    simp [Function.comp_def]

/-- A string is skipped whatever its signs spell. -/
theorem skipString_quoted (glyphs : List Glyph) (rest : List Char) :
    skipString (quoted glyphs ++ rest) = .ok rest := by
  induction glyphs with
  | nil =>
    rw [skipString.eq_def]
    rfl
  | cons glyph glyphs ih =>
    rw [quoted_cons, List.append_assoc, skipString.eq_def]
    cases glyph with
    | plain c ordinary =>
      obtain ⟨high, notQuote, notBackslash⟩ := ordinary
      simp [Glyph.text, notQuote, notBackslash, not_lt.mpr high, ih]
    | short escape => cases escape <;> exact ih
    | unit a b c d => simp [Glyph.text, unit?_char, ih]

end ExerciseAudit.Json
