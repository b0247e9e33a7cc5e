import ExerciseAudit.Proofs.Json.Token

/-!
# Reading what is written: numbers

A number ends where no digit, point or exponent goes on with it. Up to there its digits are read as
they are written; whether their value is within range is another question, and one that a reader
which skips the number does not ask.
-/

namespace ExerciseAudit.Json

/-- Nothing at the start of a text could go on with a number. -/
def Stops (rest : List Char) : Prop :=
  ∀ c ∈ rest.head?, isDigit c = false ∧ c ≠ '.' ∧ c ≠ 'e' ∧ c ≠ 'E'

theorem stops_cons {c : Char} {rest : List Char}
    (other : isDigit c = false ∧ c ≠ '.' ∧ c ≠ 'e' ∧ c ≠ 'E') : Stops (c :: rest) := by
  simpa [Stops] using other

theorem stops_spaces (blanks : List Blank) {rest : List Char} (stops : Stops rest) :
    Stops (spaces blanks ++ rest) := by
  cases blanks with
  | nil => exact stops
  | cons blank blanks => exact stops_cons (by cases blank <;> decide)

/-! ## Digits -/

theorem isDigit_digitChar (digit : Fin 10) : isDigit (digitChar digit) = true := by
  revert digit
  decide

theorem digitValue_digitChar (digit : Fin 10) : digitValue (digitChar digit) = digit.val := by
  revert digit
  decide

theorem digitChar_ne_minus (digit : Fin 10) : digitChar digit ≠ '-' := by
  revert digit
  decide

theorem digitChar_ne_plus (digit : Fin 10) : digitChar digit ≠ '+' := by
  revert digit
  decide

theorem digitChar_succ_ne_zero (digit : Fin 9) : digitChar digit.succ ≠ '0' := by
  revert digit
  decide

section Row

variable {rest : List Char} (ended : ∀ c ∈ rest.head?, isDigit c = false)
include ended

theorem takeWhile_isDigit (digits : List (Fin 10)) :
    (digits.map digitChar ++ rest).takeWhile isDigit = digits.map digitChar := by
  induction digits with
  | nil =>
    cases rest with
    | nil => rfl
    | cons c rest =>
      have other : ¬ isDigit c = true := by simp [ended c rfl]
      exact List.takeWhile_cons_of_neg other
  | cons digit digits ih =>
    rw [List.map_cons, List.cons_append, List.takeWhile_cons_of_pos (isDigit_digitChar digit), ih]

theorem dropWhile_isDigit (digits : List (Fin 10)) :
    (digits.map digitChar ++ rest).dropWhile isDigit = rest := by
  induction digits with
  | nil =>
    cases rest with
    | nil => rfl
    | cons c rest =>
      have other : ¬ isDigit c = true := by simp [ended c rfl]
      exact List.dropWhile_cons_of_neg other
  | cons digit digits ih =>
    rw [List.map_cons, List.cons_append, List.dropWhile_cons_of_pos (isDigit_digitChar digit), ih]

end Row

/-! ## The parts of a number -/

theorem readWhole_all (atEnd : Cause) (whole : Whole) {rest : List Char}
    (ended : ∀ c ∈ rest.head?, isDigit c = false) :
    readWhole atEnd (whole.all.map digitChar ++ rest) = .ok (whole.all.map digitChar, rest) := by
  cases whole with
  | zero =>
    cases rest with
    | nil => rfl
    | cons c rest =>
      have other : isDigit c = false := ended c rfl
      change readWhole atEnd ('0' :: c :: rest) = _
      simp only [readWhole, ↓reduceIte, other, Bool.false_eq_true]
      rfl
  | positive first digits =>
    have row := takeWhile_isDigit ended (first.succ :: digits)
    have left := dropWhile_isDigit ended (first.succ :: digits)
    rw [List.map_cons, List.cons_append] at row left
    rw [Whole.all, List.map_cons, List.cons_append]
    simp only [readWhole, digitChar_succ_ne_zero, ↓reduceIte, isDigit_digitChar, row, left]

/-- A fraction is read as its digits, and none as none. -/
theorem readFraction_text (atEnd : Cause) (fraction : Option Digits) {rest : List Char}
    (ended : ∀ c ∈ rest.head?, isDigit c = false ∧ c ≠ '.') :
    readFraction atEnd (fractionText fraction ++ rest) =
      .ok (fraction.map fun digits => digits.all.map digitChar, rest) := by
  cases fraction with
  | none =>
    change readFraction atEnd rest = .ok (none, rest)
    cases rest with
    | nil => rfl
    | cons c rest =>
      have other : c ≠ '.' := (ended c rfl).2
      unfold readFraction
      split
      case h_1 same => exact absurd (List.cons.inj same).1 other
      case h_2 same => exact absurd (List.cons.inj same).1 other
      case h_3 => rfl
  | some digits =>
    have row := takeWhile_isDigit (fun c next => (ended c next).1) digits.all
    have left := dropWhile_isDigit (fun c next => (ended c next).1) digits.all
    rw [Digits.all, List.map_cons, List.cons_append] at row left
    change readFraction atEnd
      ('.' :: digitChar digits.first :: (digits.rest.map digitChar ++ rest)) = _
    simp only [readFraction, isDigit_digitChar, ↓reduceIte, row, left]
    rfl

/-- An exponent is read as its sign and its digits, and none as none. -/
theorem readExponent_text (atEnd : Cause) (exponent : Option Exponent) {rest : List Char}
    (stops : Stops rest) :
    readExponent atEnd (exponentText exponent ++ rest) =
      .ok (exponent.map fun exponent =>
        (decide (exponent.down = some true), exponent.digits.all.map digitChar), rest) := by
  cases exponent with
  | none =>
    change readExponent atEnd rest = .ok (none, rest)
    cases rest with
    | nil => rfl
    | cons c rest =>
      obtain ⟨_, _, notSmall, notLarge⟩ := stops c rfl
      simp only [readExponent, notSmall, notLarge, or_self, ↓reduceIte]
  | some exponent =>
    obtain ⟨upper, down, digits⟩ := exponent
    have ended (c : Char) (next : c ∈ rest.head?) : isDigit c = false := (stops c next).1
    have row := takeWhile_isDigit ended digits.all
    have left := dropWhile_isDigit ended digits.all
    have mark (upper : Bool) : (if upper = true then 'E' else 'e') = 'e' ∨
        (if upper = true then 'E' else 'e') = 'E' := by cases upper <;> simp
    rw [Digits.all, List.map_cons, List.cons_append] at row left
    simp only [exponentText, Option.map_some, Option.getD_some, Exponent.text, List.cons_append,
      List.append_assoc, readExponent, mark, ↓reduceIte]
    rcases down with _ | _ | _
    · simp [Digits.all, digitChar_ne_plus, digitChar_ne_minus, isDigit_digitChar, row, left]
    · simp only [Option.toList_some, List.map_cons, List.map_nil, List.cons_append, List.nil_append,
        Digits.all, Bool.false_eq_true, ↓reduceIte, isDigit_digitChar, row, left]
      rfl
    · simp only [Option.toList_some, List.map_cons, List.map_nil, List.cons_append, List.nil_append,
        Digits.all, ↓reduceIte, isDigit_digitChar, row, left]
      rfl

/-! ## Whole numbers -/

namespace Figure

/-- The digits of a number as a reader takes them. -/
def numeral (figure : Figure) : Numeral :=
  ⟨figure.whole.all.map digitChar,
    figure.fraction.map fun digits => digits.all.map digitChar,
    figure.exponent.map fun exponent =>
      (decide (exponent.down = some true), exponent.digits.all.map digitChar)⟩

/-- The number that a reader makes of what is written, if it is within range. -/
def number? (figure : Figure) : Option Number :=
  (figure.numeral.value figure.negative []).toOption

end Figure

theorem head_exponentText {exponent : Option Exponent} {rest : List Char} (stops : Stops rest) :
    ∀ c ∈ (exponentText exponent ++ rest).head?, isDigit c = false ∧ c ≠ '.' := by
  cases exponent with
  | none => exact fun c next => ⟨(stops c next).1, (stops c next).2.1⟩
  | some exponent =>
    intro c next
    have mark : (if exponent.upper then 'E' else 'e') = c := by
      simpa [exponentText, Exponent.text] using next
    rw [← mark]
    cases exponent.upper <;> decide

theorem head_fractionText {fraction : Option Digits} {exponent : Option Exponent} {rest : List Char}
    (stops : Stops rest) :
    ∀ c ∈ (fractionText fraction ++ (exponentText exponent ++ rest)).head?, isDigit c = false := by
  cases fraction with
  | none => exact fun c next => (head_exponentText stops c next).1
  | some digits =>
    intro c next
    have point : '.' = c := by simpa [fractionText] using next
    rw [← point]
    decide

/-- A figure without its sign is read as the numeral that it writes. -/
theorem readNumeral_unsigned (atEnd : Cause) (figure : Figure) {rest : List Char}
    (stops : Stops rest) :
    readNumeral atEnd (figure.unsigned ++ rest) = .ok (figure.numeral, rest) := by
  unfold readNumeral Figure.unsigned
  rw [List.append_assoc, List.append_assoc, readWhole_all atEnd _ (head_fractionText stops)]
  simp only [bind, Except.bind, readFraction_text atEnd _ (head_exponentText stops),
    readExponent_text atEnd _ stops]
  rfl

/-- A number's value is within range or not whatever follows the number. -/
theorem toOption_value (numeral : Numeral) (negative : Bool) (rest : List Char) :
    (numeral.value negative rest).toOption = (numeral.value negative []).toOption := by
  have float : (numeral.float negative rest).toOption = (numeral.float negative []).toOption := by
    unfold Numeral.float
    simp only
    split
    · cases scale? _ _ <;> rfl
    · split
      · cases scale? _ _ <;> rfl
      · split <;> rfl
  unfold Numeral.value
  simp only
  split
  · split
    · rfl
    · split
      · rfl
      · exact float
  · exact float

theorem exists_unsigned_eq_cons (figure : Figure) :
    ∃ digit rest, figure.unsigned = digitChar digit :: rest := by
  obtain ⟨negative, whole, fraction, exponent⟩ := figure
  cases whole with
  | zero => exact ⟨0, _, rfl⟩
  | positive first digits => exact ⟨first.succ, _, rfl⟩

/-- A number is read as what its digits are worth. -/
theorem toOption_readNumber (figure : Figure) {rest : List Char} (stops : Stops rest) :
    (readNumber (figure.text ++ rest)).toOption = figure.number?.map (·, rest) := by
  have valued : (figure.numeral.value figure.negative rest >>= fun value =>
      (pure (value, rest) : Except Fault _)).toOption = figure.number?.map (·, rest) := by
    rw [Figure.number?, ← toOption_value _ _ rest]
    cases figure.numeral.value figure.negative rest <;> rfl
  rw [← valued]
  unfold readNumber Figure.text
  cases negative : figure.negative with
  | true =>
    simp only [↓reduceIte, List.cons_append, List.nil_append,
      readNumeral_unsigned .endInValue figure stops]
    rfl
  | false =>
    obtain ⟨digit, later, split⟩ := exists_unsigned_eq_cons figure
    have numeral := readNumeral_unsigned .endInValue figure stops
    rw [split] at numeral ⊢
    simp only [Bool.false_eq_true, ↓reduceIte, List.nil_append, List.cons_append] at numeral ⊢
    simp only [List.cons.injEq, digitChar_ne_minus, false_and, imp_false, not_false_eq_true,
      implies_true, numeral]
    rfl

/-- A number is skipped whatever its digits are worth. -/
theorem skipNumber_text (figure : Figure) {rest : List Char} (stops : Stops rest) :
    skipNumber (figure.text ++ rest) = .ok rest := by
  have numeral := readNumeral_unsigned .invalidNumber figure stops
  unfold skipNumber Figure.text
  cases negative : figure.negative with
  | true =>
    simp only [↓reduceIte, List.cons_append, List.nil_append, numeral]
    rfl
  | false =>
    obtain ⟨digit, later, split⟩ := exists_unsigned_eq_cons figure
    rw [split] at numeral ⊢
    simp only [Bool.false_eq_true, ↓reduceIte, List.nil_append, List.cons_append] at numeral ⊢
    simp only [List.cons.injEq, digitChar_ne_minus, false_and, imp_false, not_false_eq_true,
      implies_true, numeral]
    rfl

end ExerciseAudit.Json
