import ExerciseAudit.Proofs.Json.Cause
import ExerciseAudit.Proofs.Json.Reader

/-!
# What is read is written

A reader that succeeds has taken a writing: where it started there are blanks and the text of a
value, and it leaves what is behind that (`Takes`). A reader that wants nothing of a value keeps no
more than which brackets are open, and takes one as well (`takes_of_skipValue`). So no reader
accepts anything that is not JSON, whatever it makes of it.
-/

namespace ExerciseAudit.Json

section Outcomes

variable {α β : Type} {outcome : Except Fault α}

/-- What is read in two stages has been read in each. -/
theorem exists_of_bind {next : α → Except Fault β} {result : β}
    (given : (outcome >>= next) = .ok result) :
    ∃ value, outcome = .ok value ∧ next value = .ok result := by
  cases outcome with
  | error fault => cases given
  | ok value => exact ⟨value, rfl, given⟩

/-- A reader that makes something else of what another reads, and leaves what that one leaves. -/
theorem exists_read_of_map {read : Outcome α} {f : α × List Char → β × List Char} {result : β}
    {rest : List Char} (given : read.map f = .ok (result, rest))
    (keeps : ∀ found, (f found).2 = found.2) : ∃ value, read = .ok (value, rest) := by
  cases read with
  | error fault => cases given
  | ok found =>
    have left := congrArg Prod.snd (Except.ok.inj given)
    rw [keeps] at left
    exact ⟨found.1, congrArg Except.ok (Prod.ext rfl left)⟩

end Outcomes

/-! ## Blanks and words -/

theorem exists_blank_of_isSpace {c : Char} (space : isSpace c = true) :
    ∃ blank : Blank, blank.char = c := by
  simp only [isSpace, Bool.or_eq_true, beq_iff_eq] at space
  rcases space with ((rfl | rfl) | rfl) | rfl
  · exact ⟨.space, rfl⟩
  · exact ⟨.lineFeed, rfl⟩
  · exact ⟨.tab, rfl⟩
  · exact ⟨.carriageReturn, rfl⟩

/-- What is skipped at the start of a text are blanks. -/
theorem exists_spaces (text : List Char) : ∃ blanks, text = spaces blanks ++ skipSpace text := by
  induction text with
  | nil => exact ⟨[], rfl⟩
  | cons c rest ih =>
    unfold skipSpace at ih ⊢
    by_cases space : isSpace c = true
    · obtain ⟨blank, rfl⟩ := exists_blank_of_isSpace space
      obtain ⟨blanks, split⟩ := ih
      refine ⟨blank :: blanks, ?_⟩
      rw [List.dropWhile_cons_of_pos space, spaces, List.map_cons, List.cons_append]
      exact congrArg _ split
    · exact ⟨[], by rw [List.dropWhile_cons_of_neg space]; rfl⟩

/-- A word that is taken stands at the front. -/
theorem eq_append_of_readWord {expected text rest : List Char}
    (taken : readWord expected text = .ok rest) : text = expected ++ rest := by
  fun_induction readWord expected text with
  | case1 => cases taken; rfl
  | case2 => cases taken
  | case3 letter letters rest ih => rw [ih taken, List.cons_append]
  | case4 => cases taken

/-! ## Strings -/

theorem exists_hexDigit {c : Char} (spells : (hexValue? c).isSome) :
    ∃ digit : HexDigit, digit.char = c := by
  have read (base : Char) (offset : Nat) (above : base.toNat ≤ c.toNat) :
      Char.ofNat (base.toNat + (c.toNat - base.toNat + offset - offset)) = c := by
    rw [Nat.add_sub_cancel, Nat.add_sub_cancel' above, Char.ofNat_toNat]
  unfold hexValue? at spells
  simp only [Char.le_def, UInt32.le_iff_toNat_le] at spells
  split at spells
  case isTrue decimal =>
    have small : c.toNat - '0'.toNat < 10 := by
      have top : c.toNat ≤ '9'.toNat := decimal.2
      have nine : '9'.toNat = '0'.toNat + 9 := rfl
      omega
    refine ⟨⟨⟨c.toNat - '0'.toNat, by omega⟩, false⟩, ?_⟩
    rw [HexDigit.char, if_pos small]
    exact read '0' 0 decimal.1
  case isFalse =>
    split at spells
    case isTrue lower =>
      have few : c.toNat - 'a'.toNat < 6 := by
        have top : c.toNat ≤ 'f'.toNat := lower.2
        have last : 'f'.toNat = 'a'.toNat + 5 := rfl
        omega
      refine ⟨⟨⟨c.toNat - 'a'.toNat + 10, by omega⟩, false⟩, ?_⟩
      rw [HexDigit.char, if_neg (by simp)]
      exact read 'a' 10 lower.1
    case isFalse =>
      split at spells
      case isTrue upper =>
        have few : c.toNat - 'A'.toNat < 6 := by
          have top : c.toNat ≤ 'F'.toNat := upper.2
          have last : 'F'.toNat = 'A'.toNat + 5 := rfl
          omega
        refine ⟨⟨⟨c.toNat - 'A'.toNat + 10, by omega⟩, true⟩, ?_⟩
        rw [HexDigit.char, if_neg (by simp)]
        exact read 'A' 10 upper.1
      case isFalse => cases spells

theorem exists_unit {a b c d : Char} (spells : (unit? a b c d).isSome) :
    ∃ first second third fourth : HexDigit,
      first.char = a ∧ second.char = b ∧ third.char = c ∧ fourth.char = d := by
  have each : (hexValue? a).isSome ∧ (hexValue? b).isSome ∧ (hexValue? c).isSome ∧
      (hexValue? d).isSome := by
    unfold unit? at spells
    cases first : hexValue? a <;> cases second : hexValue? b <;> cases third : hexValue? c <;>
      cases fourth : hexValue? d <;> simp_all
  obtain ⟨first, rfl⟩ := exists_hexDigit each.1
  obtain ⟨second, rfl⟩ := exists_hexDigit each.2.1
  obtain ⟨third, rfl⟩ := exists_hexDigit each.2.2.1
  obtain ⟨fourth, rfl⟩ := exists_hexDigit each.2.2.2
  exact ⟨first, second, third, fourth, rfl, rfl, rfl, rfl⟩

theorem exists_escape {c : Char} (known : (escaped? c).isSome) :
    ∃ escape : Escape, escape.letter = c := by
  unfold escaped? at known
  split at known
  case isTrue same =>
    rcases same with rfl | rfl | rfl
    · exact ⟨.quote, rfl⟩
    · exact ⟨.backslash, rfl⟩
    · exact ⟨.slash, rfl⟩
  repeat' split at known
  · exact ⟨.backspace, by simp_all [Escape.letter]⟩
  · exact ⟨.formFeed, by simp_all [Escape.letter]⟩
  · exact ⟨.lineFeed, by simp_all [Escape.letter]⟩
  · exact ⟨.carriageReturn, by simp_all [Escape.letter]⟩
  · exact ⟨.tab, by simp_all [Escape.letter]⟩
  · cases known

/-- A glyph before a quoted text is part of a quoted text. -/
theorem exists_quoted_cons (glyph : Glyph) {text rest : List Char}
    (later : ∃ glyphs, text = quoted glyphs ++ rest) :
    ∃ glyphs, glyph.text ++ text = quoted glyphs ++ rest := by
  obtain ⟨glyphs, rfl⟩ := later
  exact ⟨glyph :: glyphs, by rw [quoted_cons, List.append_assoc]⟩

/-- A string that is skipped is made of signs. -/
theorem exists_quoted_of_skipString {text rest : List Char} (taken : skipString text = .ok rest) :
    ∃ glyphs, text = quoted glyphs ++ rest := by
  fun_induction skipString text with
  | case2 later =>
    cases taken
    exact ⟨[], rfl⟩
  | case4 a b c d later spells _ ih =>
    obtain ⟨first, second, third, fourth, rfl, rfl, rfl, rfl⟩ := exists_unit spells
    exact exists_quoted_cons (.unit first second third fourth) (ih taken)
  | case7 letter later _ known _ ih =>
    obtain ⟨escape, rfl⟩ := exists_escape known
    exact exists_quoted_cons (.short escape) (ih taken)
  | case10 c later notQuote notBackslash high ih =>
    exact exists_quoted_cons (.plain c ⟨not_lt.mp high, notQuote, notBackslash⟩) (ih taken)
  | _ => cases taken

/-- A string that is read is made of signs. -/
theorem exists_quoted_of_readString {text read rest : List Char}
    (taken : readString text = .ok (read, rest)) : ∃ glyphs, text = quoted glyphs ++ rest := by
  fun_induction readString text generalizing read with
  | case2 later =>
    cases taken
    exact ⟨[], rfl⟩
  | case9 a b c d lead spells _ _ e f g h later trail spellsTrail _ _ ih =>
    obtain ⟨_, behind⟩ := exists_read_of_map taken fun _ => rfl
    obtain ⟨first, second, third, fourth, rfl, rfl, rfl, rfl⟩ :=
      exists_unit (Option.isSome_of_eq_some spells)
    obtain ⟨fifth, sixth, seventh, eighth, rfl, rfl, rfl, rfl⟩ :=
      exists_unit (Option.isSome_of_eq_some spellsTrail)
    exact exists_quoted_cons (.unit first second third fourth)
      (exists_quoted_cons (.unit fifth sixth seventh eighth) (ih behind))
  | case14 a b c d later code spells _ _ _ ih =>
    obtain ⟨_, behind⟩ := exists_read_of_map taken fun _ => rfl
    obtain ⟨first, second, third, fourth, rfl, rfl, rfl, rfl⟩ :=
      exists_unit (Option.isSome_of_eq_some spells)
    exact exists_quoted_cons (.unit first second third fourth) (ih behind)
  | case16 letter later _ c known _ ih =>
    obtain ⟨_, behind⟩ := exists_read_of_map taken fun _ => rfl
    obtain ⟨escape, rfl⟩ := exists_escape (Option.isSome_of_eq_some known)
    exact exists_quoted_cons (.short escape) (ih behind)
  | case19 c later notQuote notBackslash high ih =>
    obtain ⟨_, behind⟩ := exists_read_of_map taken fun _ => rfl
    exact exists_quoted_cons (.plain c ⟨not_lt.mp high, notQuote, notBackslash⟩) (ih behind)
  | _ => cases taken

/-! ## Numbers -/

theorem exists_digitChar {c : Char} (digit : isDigit c = true) : ∃ d : Fin 10, digitChar d = c := by
  simp only [isDigit, Bool.and_eq_true, decide_eq_true_eq, Char.le_def,
    UInt32.le_iff_toNat_le] at digit
  have bottom : '0'.toNat ≤ c.toNat := digit.1
  have top : c.toNat ≤ '9'.toNat := digit.2
  have nine : '9'.toNat = '0'.toNat + 9 := rfl
  refine ⟨⟨c.toNat - '0'.toNat, by omega⟩, ?_⟩
  rw [digitChar, Nat.add_sub_cancel' bottom, Char.ofNat_toNat]

/-- Every text starts with a row of digits, which may be empty. -/
theorem exists_row (text : List Char) :
    ∃ digits : List (Fin 10), text = digits.map digitChar ++ text.dropWhile isDigit := by
  induction text with
  | nil => exact ⟨[], rfl⟩
  | cons c rest ih =>
    by_cases digit : isDigit c = true
    · obtain ⟨d, rfl⟩ := exists_digitChar digit
      obtain ⟨digits, split⟩ := ih
      refine ⟨d :: digits, ?_⟩
      rw [List.dropWhile_cons_of_pos digit, List.map_cons, List.cons_append]
      exact congrArg _ split
    · exact ⟨[], by rw [List.dropWhile_cons_of_neg digit]; rfl⟩

/-- A row of digits that is not empty. -/
theorem exists_digits {c : Char} (digit : isDigit c = true) (rest : List Char) :
    ∃ digits : Digits, c :: rest =
      digits.all.map digitChar ++ (c :: rest).dropWhile isDigit := by
  obtain ⟨d, rfl⟩ := exists_digitChar digit
  obtain ⟨digits, split⟩ := exists_row rest
  refine ⟨⟨d, digits⟩, ?_⟩
  rw [List.dropWhile_cons_of_pos digit, Digits.all, List.map_cons, List.cons_append]
  exact congrArg _ split

section Parts

variable {atEnd : Cause} {text rest : List Char}

/-- A whole part that is taken is one of the grammar: a zero, or digits that do not start with one.
-/
theorem exists_whole_of_readWhole {read : List Char}
    (taken : readWhole atEnd text = .ok (read, rest)) :
    ∃ whole : Whole, text = whole.all.map digitChar ++ rest := by
  unfold readWhole at taken
  split at taken
  case h_1 => cases taken
  case h_2 c later =>
    split at taken
    case isTrue zero =>
      subst zero
      split at taken
      case h_1 => cases taken; exact ⟨.zero, rfl⟩
      case h_2 =>
        split at taken
        case isTrue => cases taken
        case isFalse => cases taken; exact ⟨.zero, rfl⟩
    case isFalse other =>
      split at taken
      case isFalse => cases taken
      case isTrue digit =>
        cases taken
        obtain ⟨⟨first, digits⟩, split⟩ := exists_digits digit later
        have same : c = digitChar first := (List.cons.inj split).1
        have positive : first ≠ 0 := by
          rintro rfl
          exact other same
        obtain ⟨first, rfl⟩ := Fin.exists_succ_eq.mpr positive
        exact ⟨.positive first digits, split⟩

theorem exists_fraction_of_readFraction {read : Option (List Char)}
    (taken : readFraction atEnd text = .ok (read, rest)) :
    ∃ fraction, text = fractionText fraction ++ rest := by
  unfold readFraction at taken
  split at taken
  case h_1 => cases taken
  case h_2 c later =>
    split at taken
    case isFalse => cases taken
    case isTrue digit =>
      cases taken
      obtain ⟨digits, split⟩ := exists_digits digit later
      exact ⟨some digits, congrArg ('.' :: ·) split⟩
  case h_3 => cases taken; exact ⟨none, rfl⟩

theorem exists_exponent_of_readExponent {read : Option (Bool × List Char)}
    (taken : readExponent atEnd text = .ok (read, rest)) :
    ∃ exponent, text = exponentText exponent ++ rest := by
  unfold readExponent at taken
  split at taken
  case h_1 => cases taken; exact ⟨none, rfl⟩
  case h_2 e later =>
    split at taken
    case isFalse => cases taken; exact ⟨none, rfl⟩
    case isTrue mark =>
      obtain ⟨upper, rfl⟩ : ∃ upper : Bool, e = if upper then 'E' else 'e' := by
        rcases mark with rfl | rfl
        · exact ⟨false, rfl⟩
        · exact ⟨true, rfl⟩
      split at taken
      case h_1 negative unsigned signed =>
        obtain ⟨down, rfl⟩ : ∃ down : Option Bool, later =
            (down.toList.map fun down => if down then '-' else '+') ++ unsigned := by
          split at signed <;> cases signed
          · exact ⟨some false, rfl⟩
          · exact ⟨some true, rfl⟩
          · exact ⟨none, rfl⟩
        split at taken
        case h_1 => cases taken
        case h_2 c behind =>
          split at taken
          case isFalse => cases taken
          case isTrue digit =>
            cases taken
            obtain ⟨digits, split⟩ := exists_digits digit behind
            refine ⟨some ⟨upper, down, digits⟩, ?_⟩
            simp only [exponentText, Option.map_some, Option.getD_some, Exponent.text,
              List.cons_append, List.append_assoc, ← split]

end Parts

section Numbers

variable {text rest : List Char}

/-- A numeral that is taken is a figure's, without a sign. -/
theorem exists_unsigned_of_readNumeral {atEnd : Cause} {numeral : Numeral}
    (taken : readNumeral atEnd text = .ok (numeral, rest)) :
    ∃ figure : Figure, text = figure.unsigned ++ rest := by
  obtain ⟨⟨_, behindWhole⟩, first, taken⟩ := exists_of_bind taken
  obtain ⟨⟨_, behindFraction⟩, second, taken⟩ := exists_of_bind taken
  obtain ⟨⟨_, behindExponent⟩, third, taken⟩ := exists_of_bind taken
  cases taken
  obtain ⟨whole, rfl⟩ := exists_whole_of_readWhole first
  obtain ⟨fraction, rfl⟩ := exists_fraction_of_readFraction second
  obtain ⟨exponent, rfl⟩ := exists_exponent_of_readExponent third
  exact ⟨⟨false, whole, fraction, exponent⟩, by simp [Figure.unsigned]⟩

/-- With a sign in front of its digits, or none, it is a number. -/
theorem exists_figure_of_unsigned (negative : Bool)
    (taken : ∃ figure : Figure, text = figure.unsigned ++ rest) :
    ∃ figure : Figure, (if negative then ['-'] else []) ++ text = figure.text ++ rest := by
  obtain ⟨figure, rfl⟩ := taken
  exact ⟨{ figure with negative := negative }, by rw [Figure.text, List.append_assoc]; rfl⟩

theorem exists_figure_of_readNumber {number : Number}
    (taken : readNumber text = .ok (number, rest)) :
    ∃ figure : Figure, text = figure.text ++ rest := by
  unfold readNumber at taken
  split at taken
  case h_1 negative digits signed =>
    obtain ⟨⟨numeral, left⟩, read, taken⟩ := exists_of_bind taken
    obtain ⟨value, _, taken⟩ := exists_of_bind taken
    cases taken
    have unsigned := exists_unsigned_of_readNumeral read
    split at signed <;> cases signed
    · exact exists_figure_of_unsigned true unsigned
    · exact exists_figure_of_unsigned false unsigned

theorem exists_figure_of_skipNumber (taken : skipNumber text = .ok rest) :
    ∃ figure : Figure, text = figure.text ++ rest := by
  unfold skipNumber at taken
  obtain ⟨⟨numeral, left⟩, read, taken⟩ := exists_of_bind taken
  cases taken
  have unsigned := exists_unsigned_of_readNumeral read
  split at unsigned
  · exact exists_figure_of_unsigned true unsigned
  · exact exists_figure_of_unsigned false unsigned

end Numbers

/-! ## Lists and objects -/

/-- Between a text and what is left of it stand blanks and a value. -/
def Takes (text rest : List Char) : Prop :=
  ∃ (blanks : List Blank) (writing : Writing), text = spaces blanks ++ (writing.text ++ rest)

theorem takes_spaces (blanks : List Blank) {text rest : List Char} (takes : Takes text rest) :
    Takes (spaces blanks ++ text) rest := by
  obtain ⟨more, writing, rfl⟩ := takes
  exact ⟨blanks ++ more, writing, by simp [spaces]⟩

theorem takes_of_skipSpace {text rest : List Char} (takes : Takes (skipSpace text) rest) :
    Takes text rest := by
  obtain ⟨blanks, split⟩ := exists_spaces text
  rw [split]
  exact takes_spaces blanks takes

section Rows

variable {α : Type} {item : α → List Char} {closing : Char} {front left rest : List Char}

/-- All of an item but the blanks behind it. -/
def Front (item : α → List Char) (front : List Char) : Prop :=
  ∀ after, ∃ written, item written = front ++ spaces after

/-- Behind an item in a bracket there may be blanks and more items, each behind a comma, up to what
closes the bracket. -/
def Onward (item : α → List Char) (closing : Char) (text rest : List Char) : Prop :=
  ∃ (blanks : List Blank) (items : List α), text =
    spaces blanks ++ (items.flatMap (fun written => ',' :: item written) ++ closing :: rest)

/-- Inside a bracket there may be items with a comma between each and the next. -/
def Inside (item : α → List Char) (closing : Char) (text rest : List Char) : Prop :=
  ∃ (blanks : List Blank) (items : List α), text =
    spaces blanks ++ (separated (items.map item) ++ closing :: rest)

theorem onward_close (blanks : List Blank) :
    Onward item closing (spaces blanks ++ closing :: rest) rest :=
  ⟨blanks, [], rfl⟩

theorem onward_comma (blanks : List Blank) (starts : Front item front)
    (onward : Onward item closing left rest) :
    Onward item closing (spaces blanks ++ ',' :: (front ++ left)) rest := by
  obtain ⟨after, items, rfl⟩ := onward
  obtain ⟨written, text⟩ := starts after
  exact ⟨blanks, written :: items, by simp [text]⟩

theorem inside_close (blanks : List Blank) :
    Inside item closing (spaces blanks ++ closing :: rest) rest :=
  ⟨blanks, [], rfl⟩

theorem inside_first (blanks : List Blank) (starts : Front item front)
    (onward : Onward item closing left rest) :
    Inside item closing (spaces blanks ++ (front ++ left)) rest := by
  obtain ⟨after, items, rfl⟩ := onward
  obtain ⟨written, text⟩ := starts after
  exact ⟨blanks, written :: items, by simp [separated, text, List.flatMap_map]⟩

end Rows

/-- A value that is taken is the front of the text, as an item between its blanks. -/
theorem exists_front_of_takes {text rest : List Char} (takes : Takes text rest) :
    ∃ front, Front Slot.text front ∧ text = front ++ rest := by
  obtain ⟨blanks, writing, rfl⟩ := takes
  refine ⟨spaces blanks ++ writing.text, fun after => ?_, by simp⟩
  exact ⟨⟨blanks, writing, after⟩, by simp [Slot.text]⟩

theorem takes_array {text rest : List Char} (inside : Inside Slot.text ']' text rest) :
    Takes ('[' :: text) rest := by
  obtain ⟨blanks, items, rfl⟩ := inside
  exact ⟨[], .array blanks items, by simp [Writing.text_array, spaces]⟩

theorem takes_object {text rest : List Char} (inside : Inside Member.text '\x7d' text rest) :
    Takes ('\x7b' :: text) rest := by
  obtain ⟨blanks, members, rfl⟩ := inside
  exact ⟨[], .object blanks members, by simp [Writing.text_object, spaces]⟩

/-- Behind the key of a member stand a colon and a value. -/
def TakesField (text rest : List Char) : Prop :=
  ∃ gap later, text = spaces gap ++ ':' :: later ∧ Takes later rest

/-- A quoted name and a field that is taken are the front of the text, as a member. -/
theorem exists_front_of_takesField (blanks : List Blank) (name : List Glyph) {text rest : List Char}
    (takes : TakesField text rest) :
    ∃ front, Front Member.text front ∧
      spaces blanks ++ '"' :: (quoted name ++ text) = front ++ rest := by
  obtain ⟨gap, _, rfl, ahead, writing, rfl⟩ := takes
  refine ⟨spaces blanks ++ '"' :: (quoted name ++ (spaces gap ++ ':' ::
    (spaces ahead ++ writing.text))), fun after => ?_, by simp⟩
  exact ⟨⟨blanks, name, gap, ahead, writing, after⟩, by simp [Member.text]⟩

theorem exists_of_readColon {text rest : List Char} (taken : readColon text = .ok rest) :
    ∃ gap, text = spaces gap ++ ':' :: rest := by
  obtain ⟨gap, split⟩ := exists_spaces text
  unfold readColon at taken
  split at taken
  case h_1 => cases taken
  case h_2 c later start =>
    split at taken
    case isFalse => cases taken
    case isTrue colon =>
      cases taken
      exact ⟨gap, by rw [split, start, colon]⟩

section NextItem

variable {text rest : List Char}

theorem exists_of_nextItem_close {first : Bool} (next : nextItem first text = .ok (.close rest)) :
    ∃ blanks, text = spaces blanks ++ ']' :: rest := by
  obtain ⟨blanks, split⟩ := exists_spaces text
  unfold nextItem at next
  split at next
  case h_1 => cases next
  case h_2 c later start =>
    split at next
    case isTrue closing => cases next; exact ⟨blanks, by rw [split, start, closing]⟩
    case isFalse =>
      repeat' split at next
      all_goals cases next

theorem exists_of_nextItem_first (next : nextItem true text = .ok (.item rest)) :
    ∃ blanks, text = spaces blanks ++ rest := by
  obtain ⟨blanks, split⟩ := exists_spaces text
  unfold nextItem at next
  split at next
  case h_1 => cases next
  case h_2 c later start =>
    split at next
    case isTrue => cases next
    case isFalse => cases next; exact ⟨blanks, by rw [split, start]⟩

theorem exists_of_nextItem_comma (next : nextItem false text = .ok (.item rest)) :
    ∃ blanks before, text = spaces blanks ++ ',' :: (spaces before ++ rest) := by
  obtain ⟨blanks, split⟩ := exists_spaces text
  unfold nextItem at next
  split at next
  case h_1 => cases next
  case h_2 c later start =>
    obtain ⟨before, splitLater⟩ := exists_spaces later
    split at next
    case isTrue => cases next
    case isFalse =>
      rw [if_neg Bool.false_ne_true] at next
      split at next
      case isFalse => cases next
      case isTrue comma =>
        split at next
        case h_1 => cases next
        case h_2 c' behind startLater =>
          split at next
          case isTrue => cases next
          case isFalse =>
            cases next
            exact ⟨blanks, before, by rw [split, start, comma, ← startLater, ← splitLater]⟩

end NextItem

section Lists

variable {α : Type} {item : List Char → Outcome α} {text rest : List Char} {values : List α}

/-- A list is closed, or an item of it is read and then the others. -/
theorem readItems_cases {bound : Nat} {first : Bool}
    (taken : readItems item (bound + 1) first text = .ok (values, rest)) :
    nextItem first text = .ok (.close rest) ∨
      ∃ start value left later, nextItem first text = .ok (.item start) ∧
        item start = .ok (value, left) ∧ readItems item bound false left = .ok (later, rest) := by
  unfold readItems at taken
  split at taken
  case h_1 => cases taken
  case h_2 left next => cases taken; exact .inl next
  case h_3 start next =>
    split at taken
    case h_1 => cases taken
    case h_2 value left read =>
      split at taken
      case h_1 => cases taken
      case h_2 later _ readLater =>
        cases taken
        exact .inr ⟨start, value, left, later, next, read, readLater⟩

variable
  (takes : ∀ {text rest : List Char} {value : α}, item text = .ok (value, rest) → Takes text rest)
include takes

/-- Behind an item, a list is read on as it is written. -/
theorem onward_of_readItems {bound : Nat}
    (taken : readItems item bound false text = .ok (values, rest)) :
    Onward Slot.text ']' text rest := by
  induction bound generalizing text values with
  | zero => cases taken
  | succ bound ih =>
    rcases readItems_cases taken with next | ⟨start, value, left, later, next, read, behind⟩
    · obtain ⟨blanks, rfl⟩ := exists_of_nextItem_close next
      exact onward_close blanks
    · obtain ⟨blanks, before, rfl⟩ := exists_of_nextItem_comma next
      obtain ⟨front, starts, split⟩ := exists_front_of_takes (takes_spaces before (takes read))
      rw [split]
      exact onward_comma blanks starts (ih behind)

/-- What a list's reader takes is the inside of a list. -/
theorem inside_of_readList (taken : readList item text = .ok (values, rest)) :
    Inside Slot.text ']' text rest := by
  rcases readItems_cases taken with next | ⟨start, value, left, later, next, read, behind⟩
  · obtain ⟨blanks, rfl⟩ := exists_of_nextItem_close next
    exact inside_close blanks
  · obtain ⟨blanks, rfl⟩ := exists_of_nextItem_first next
    obtain ⟨front, starts, rfl⟩ := exists_front_of_takes (takes read)
    exact inside_first blanks starts (onward_of_readItems takes behind)

end Lists

section NextKey

variable {text rest : List Char} {name : String}

/-- Reading a name never closes an object. -/
theorem readKey_ne_close : readKey text ≠ .ok (.close rest) := by
  unfold readKey
  split
  · cases readString _ <;> simp [Except.map]
  · simp

theorem exists_of_readKey (next : readKey text = .ok (.key name rest)) :
    ∃ glyphs, text = '"' :: (quoted glyphs ++ rest) := by
  unfold readKey at next
  split at next
  case h_2 => cases next
  case h_1 later =>
    cases read : readString later with
    | error fault => rw [read] at next; cases next
    | ok found =>
      rw [read] at next
      cases next
      obtain ⟨glyphs, rfl⟩ := exists_quoted_of_readString read
      exact ⟨glyphs, rfl⟩

theorem exists_of_nextKey_close {first : Bool} (next : nextKey first text = .ok (.close rest)) :
    ∃ blanks, text = spaces blanks ++ '\x7d' :: rest := by
  obtain ⟨blanks, split⟩ := exists_spaces text
  unfold nextKey at next
  split at next
  case h_1 => cases next
  case h_2 c later start =>
    split at next
    case isTrue closing => cases next; exact ⟨blanks, by rw [split, start, closing]⟩
    case isFalse =>
      repeat' split at next
      all_goals first
        | exact absurd next readKey_ne_close
        | cases next

theorem exists_of_nextKey_first (next : nextKey true text = .ok (.key name rest)) :
    ∃ blanks glyphs, text = spaces blanks ++ '"' :: (quoted glyphs ++ rest) := by
  obtain ⟨blanks, split⟩ := exists_spaces text
  unfold nextKey at next
  split at next
  case h_1 => cases next
  case h_2 c later start =>
    split at next
    case isTrue => cases next
    case isFalse =>
      obtain ⟨glyphs, key⟩ := exists_of_readKey next
      exact ⟨blanks, glyphs, by rw [split, start, key]⟩

theorem exists_of_nextKey_comma (next : nextKey false text = .ok (.key name rest)) :
    ∃ blanks before glyphs,
      text = spaces blanks ++ ',' :: (spaces before ++ '"' :: (quoted glyphs ++ rest)) := by
  obtain ⟨blanks, split⟩ := exists_spaces text
  unfold nextKey at next
  split at next
  case h_1 => cases next
  case h_2 c later start =>
    obtain ⟨before, splitLater⟩ := exists_spaces later
    split at next
    case isTrue => cases next
    case isFalse =>
      rw [if_neg Bool.false_ne_true] at next
      split at next
      case isFalse => cases next
      case isTrue comma =>
        split at next
        case h_1 => cases next
        case h_2 c' behind startLater =>
          split at next
          case isTrue => cases next
          case isFalse =>
            obtain ⟨glyphs, key⟩ := exists_of_readKey next
            rw [key] at startLater
            exact ⟨blanks, before, glyphs,
              by rw [split, start, comma, ← startLater, ← splitLater]⟩

end NextKey

section Members

variable {σ : Type} {member : σ → String → List Char → Outcome σ} {text rest : List Char}
  {gathered result : σ}

/-- An object is closed, or a member of it is read and then the others. -/
theorem readMembers_cases {bound : Nat} {first : Bool}
    (taken : readMembers member (bound + 1) first gathered text = .ok (result, rest)) :
    nextKey first text = .ok (.close rest) ∨
      ∃ name start next left, nextKey first text = .ok (.key name start) ∧
        member gathered name start = .ok (next, left) ∧
          readMembers member bound false next left = .ok (result, rest) := by
  unfold readMembers at taken
  split at taken
  case h_1 => cases taken
  case h_2 left key => cases taken; exact .inl key
  case h_3 name start key =>
    split at taken
    case h_1 => cases taken
    case h_2 next left read => exact .inr ⟨name, start, next, left, key, read, taken⟩

variable
  (takes : ∀ {gathered : σ} {name : String} {text rest : List Char} {next : σ},
    member gathered name text = .ok (next, rest) → TakesField text rest)
include takes

/-- Behind a member, an object is read on as it is written. -/
theorem onward_of_readMembers {bound : Nat}
    (taken : readMembers member bound false gathered text = .ok (result, rest)) :
    Onward Member.text '\x7d' text rest := by
  induction bound generalizing text gathered with
  | zero => cases taken
  | succ bound ih =>
    rcases readMembers_cases taken with key | ⟨name, start, next, left, key, read, behind⟩
    · obtain ⟨blanks, rfl⟩ := exists_of_nextKey_close key
      exact onward_close blanks
    · obtain ⟨blanks, before, glyphs, rfl⟩ := exists_of_nextKey_comma key
      obtain ⟨front, starts, split⟩ := exists_front_of_takesField before glyphs (takes read)
      rw [split]
      exact onward_comma blanks starts (ih behind)

theorem inside_of_readObject (taken : readObject member gathered text = .ok (result, rest)) :
    Inside Member.text '\x7d' text rest := by
  rcases readMembers_cases taken with key | ⟨name, start, next, left, key, read, behind⟩
  · obtain ⟨blanks, rfl⟩ := exists_of_nextKey_close key
    exact inside_close blanks
  · obtain ⟨blanks, glyphs, rfl⟩ := exists_of_nextKey_first key
    obtain ⟨front, starts, split⟩ := exists_front_of_takesField blanks glyphs (takes read)
    rw [split]
    exact inside_first [] starts (onward_of_readMembers takes behind)

end Members

/-! ## Values that are read -/

section Values

variable {text rest : List Char}

theorem takes_string (glyphs : List Glyph) (rest : List Char) :
    Takes ('"' :: (quoted glyphs ++ rest)) rest :=
  ⟨[], .string glyphs, by rw [Writing.text]; rfl⟩

theorem takes_number (figure : Figure) (rest : List Char) : Takes (figure.text ++ rest) rest :=
  ⟨[], .number figure, by rw [Writing.text]; rfl⟩

theorem takes_null (taken : readWord ['u', 'l', 'l'] text = .ok rest) : Takes ('n' :: text) rest :=
  ⟨[], .null, by rw [eq_append_of_readWord taken, Writing.text]; rfl⟩

theorem takes_true (taken : readWord ['r', 'u', 'e'] text = .ok rest) : Takes ('t' :: text) rest :=
  ⟨[], .bool true, by rw [eq_append_of_readWord taken, Writing.text]; rfl⟩

theorem takes_false (taken : readWord ['a', 'l', 's', 'e'] text = .ok rest) :
    Takes ('f' :: text) rest :=
  ⟨[], .bool false, by rw [eq_append_of_readWord taken, Writing.text]; rfl⟩

theorem exists_word_of_map {α : Type} {outcome : Except Fault (List Char)} {given value : α}
    (taken : (outcome.map fun rest => (given, rest)) = .ok (value, rest)) : outcome = .ok rest := by
  cases outcome with
  | error fault => cases taken
  | ok left => cases taken; rfl

/-- What is read as a value is one of the grammar. -/
theorem takes_of_readValue {depth : Nat} {value : Value}
    (taken : readValue depth text = .ok (value, rest)) : Takes text rest := by
  induction depth using Nat.strongRecOn generalizing text value rest with
  | ind depth ih =>
    apply takes_of_skipSpace
    unfold readValue at taken
    split at taken
    case h_1 => cases taken
    case h_2 c later start =>
      rw [start]
      split at taken
      case isTrue null => exact null ▸ takes_null (exists_word_of_map taken)
      split at taken
      case isTrue word => exact word ▸ takes_true (exists_word_of_map taken)
      split at taken
      case isTrue word => exact word ▸ takes_false (exists_word_of_map taken)
      split at taken
      case isTrue numeric =>
        obtain ⟨number, read⟩ := exists_read_of_map taken fun _ => rfl
        obtain ⟨figure, text⟩ := exists_figure_of_readNumber read
        exact text ▸ takes_number figure rest
      split at taken
      case isTrue quote =>
        obtain ⟨string, read⟩ := exists_read_of_map taken fun _ => rfl
        obtain ⟨glyphs, rfl⟩ := exists_quoted_of_readString read
        exact quote ▸ takes_string glyphs rest
      split at taken
      case isTrue bracket =>
        split at taken
        case h_1 => cases taken
        case h_2 depth =>
          obtain ⟨items, read⟩ := exists_read_of_map taken fun _ => rfl
          exact bracket ▸ takes_array (inside_of_readList (ih depth (Nat.lt_succ_self depth)) read)
      split at taken
      case isTrue brace =>
        split at taken
        case h_1 => cases taken
        case h_2 depth =>
          change (readObject (gatherMember depth) [] later).map _ = _ at taken
          obtain ⟨members, read⟩ := exists_read_of_map taken fun _ => rfl
          refine brace ▸ takes_object (inside_of_readObject ?_ read)
          intro gathered name text rest next field
          unfold gatherMember at field
          split at field
          case h_1 => cases field
          case h_2 behind colon =>
            obtain ⟨value, read⟩ := exists_read_of_map field fun _ => rfl
            obtain ⟨gap, rfl⟩ := exists_of_readColon colon
            exact ⟨gap, behind, rfl, ih depth (Nat.lt_succ_self depth) read⟩
      case isFalse => cases taken

theorem takes_of_readText {value : String} (taken : readText text = .ok (value, rest)) :
    Takes text rest := by
  apply takes_of_skipSpace
  unfold readText at taken
  split at taken
  case h_1 later start =>
    obtain ⟨string, read⟩ := exists_read_of_map taken fun _ => rfl
    obtain ⟨glyphs, rfl⟩ := exists_quoted_of_readString read
    exact start ▸ takes_string glyphs rest
  case h_2 => cases taken

theorem takes_of_readTextOrNull {value : Option String}
    (taken : readTextOrNull text = .ok (value, rest)) : Takes text rest := by
  apply takes_of_skipSpace
  unfold readTextOrNull at taken
  split at taken
  case h_1 later start => exact start ▸ takes_null (exists_word_of_map taken)
  case h_2 =>
    obtain ⟨text, read⟩ := exists_read_of_map taken fun _ => rfl
    exact takes_of_readText read

theorem takes_of_readArray {α : Type} {item : List Char → Outcome α} {values : List α}
    (takes : ∀ {text rest : List Char} {value : α}, item text = .ok (value, rest) → Takes text rest)
    (taken : readArray item text = .ok (values, rest)) : Takes text rest := by
  apply takes_of_skipSpace
  unfold readArray at taken
  split at taken
  case h_1 later start => exact start ▸ takes_array (inside_of_readList takes taken)
  case h_2 => cases taken

end Values

/-! ## Values that are skipped -/

section Skipping

variable {text rest : List Char}

theorem exists_of_map_some {α : Type} {outcome : Except Fault α} {found : Option α}
    (given : outcome.map some = .ok found) : ∃ value, outcome = .ok value ∧ found = some value := by
  cases outcome with
  | error fault => cases given
  | ok value => cases given; exact ⟨value, rfl, rfl⟩

/-- What is skipped in one move is a value, or it opens a bracket. -/
theorem takes_of_skipScalar? {c : Char} {found : Option (List Char)}
    (taken : skipScalar? c text = .ok found) :
    (∃ rest, found = some rest ∧ Takes (c :: text) rest) ∨
      found = none ∧ (c = '[' ∨ c = '\x7b') := by
  unfold skipScalar? at taken
  split at taken
  case isTrue quote =>
    obtain ⟨rest, skipped, same⟩ := exists_of_map_some taken
    obtain ⟨glyphs, rfl⟩ := exists_quoted_of_skipString skipped
    exact .inl ⟨rest, same, quote ▸ takes_string glyphs rest⟩
  split at taken
  case isTrue word =>
    obtain ⟨rest, skipped, same⟩ := exists_of_map_some taken
    exact .inl ⟨rest, same, word ▸ takes_null skipped⟩
  split at taken
  case isTrue word =>
    obtain ⟨rest, skipped, same⟩ := exists_of_map_some taken
    exact .inl ⟨rest, same, word ▸ takes_true skipped⟩
  split at taken
  case isTrue word =>
    obtain ⟨rest, skipped, same⟩ := exists_of_map_some taken
    exact .inl ⟨rest, same, word ▸ takes_false skipped⟩
  split at taken
  case isTrue =>
    obtain ⟨rest, skipped, same⟩ := exists_of_map_some taken
    obtain ⟨figure, text⟩ := exists_figure_of_skipNumber skipped
    exact .inl ⟨rest, same, text ▸ takes_number figure rest⟩
  split at taken
  case isTrue opens => exact .inr ⟨(Except.ok.inj taken).symm, opens⟩
  case isFalse => cases taken

namespace Bracket

/-- What may stand between brackets. -/
def Item : Bracket → Type
  | list => Slot Writing
  | object => Member Writing

/-- How an item is written. -/
def itemText : (bracket : Bracket) → bracket.Item → List Char
  | list => Slot.text
  | object => Member.text

/-- The character that opens a bracket. -/
def opening : Bracket → Char
  | list => '['
  | object => '\x7b'

end Bracket

/-- What stands inside either kind of bracket is a value with them. -/
theorem takes_bracket {bracket : Bracket}
    (inside : Inside bracket.itemText bracket.closing text rest) :
    Takes (bracket.opening :: text) rest := by
  cases bracket with
  | list => exact takes_array inside
  | object => exact takes_object inside

/-- Where skipping expects a value it passes over one, and goes on behind it. -/
def PassesValue (moves : Nat) : Prop :=
  ∀ openings text rest, skipOpen moves .value openings text = .ok rest →
    ∃ left, Takes text left ∧ ∃ fewer ≤ moves, skipOpen fewer (.next true) openings left = .ok rest

section Inside

variable {bound : Nat} (value : ∀ moves < bound, PassesValue moves) {bracket : Bracket}
  {openings : List Bracket}
include value

/-- An item that is skipped is the front of the text, and skipping goes on behind it. -/
theorem exists_front_of_skipOpen {moves : Nat} (within : moves ≤ bound)
    (taken : skipOpen moves .item (bracket :: openings) text = .ok rest) :
    ∃ front left, Front bracket.itemText front ∧ text = front ++ left ∧
      ∃ fewer < moves, skipOpen fewer (.next true) (bracket :: openings) left = .ok rest := by
  cases moves with
  | zero => cases taken
  | succ moves =>
    cases bracket with
    | list =>
      obtain ⟨left, takes, fewer, less, onward⟩ :=
        value moves within (.list :: openings) text rest taken
      obtain ⟨front, starts, split⟩ := exists_front_of_takes takes
      exact ⟨front, left, starts, split, fewer, Nat.lt_succ_of_le less, onward⟩
    | object =>
      obtain ⟨blanks, split⟩ := exists_spaces text
      simp only [skipOpen] at taken
      split at taken
      case h_1 => cases taken
      case h_2 c later start =>
        split at taken
        case isFalse => cases taken
        case isTrue quote =>
          obtain ⟨_, name, field⟩ := exists_of_bind taken
          obtain ⟨behind, colon, skipped⟩ := exists_of_bind field
          obtain ⟨glyphs, rfl⟩ := exists_quoted_of_skipString name
          obtain ⟨gap, rfl⟩ := exists_of_readColon colon
          obtain ⟨left, takes, fewer, less, onward⟩ := value moves within _ _ _ skipped
          obtain ⟨front, starts, member⟩ :=
            exists_front_of_takesField blanks glyphs ⟨gap, behind, rfl, takes⟩
          refine ⟨front, left, starts, ?_, fewer, Nat.lt_succ_of_le less, onward⟩
          rw [split, start, quote, member]

/-- Behind an item, skipping goes on as it is written, and then behind the bracket. -/
theorem onward_of_skipOpen {moves : Nat} (within : moves ≤ bound)
    (taken : skipOpen moves (.next true) (bracket :: openings) text = .ok rest) :
    ∃ left, Onward bracket.itemText bracket.closing text left ∧
      ∃ fewer ≤ moves, skipOpen fewer (.next true) openings left = .ok rest := by
  induction moves using Nat.strongRecOn generalizing text with
  | ind moves ih =>
    cases moves with
    | zero => cases taken
    | succ moves =>
      obtain ⟨blanks, split⟩ := exists_spaces text
      simp only [skipOpen] at taken
      split at taken
      case h_1 => cases taken
      case h_2 c later start =>
        rw [split, start]
        split at taken
        case isTrue comma =>
          obtain ⟨front, left, starts, rfl, fewer, less, onward⟩ :=
            exists_front_of_skipOpen value (Nat.le_of_succ_le within) taken
          have shorter : fewer < moves + 1 := Nat.lt_succ_of_lt less
          obtain ⟨left, written, fewest, least, behind⟩ :=
            ih fewer shorter (shorter.le.trans within) onward
          rw [comma.2]
          exact ⟨left, onward_comma blanks starts written, fewest, least.trans shorter.le, behind⟩
        case isFalse =>
          split at taken
          case isTrue closing =>
            rw [closing]
            exact ⟨later, onward_close blanks, moves, Nat.le_succ moves, taken⟩
          case isFalse => cases taken

/-- In a bracket, skipping passes over everything that is written, and goes on behind it. -/
theorem inside_of_skipOpen {moves : Nat} (within : moves ≤ bound)
    (taken : skipOpen moves (.next false) (bracket :: openings) text = .ok rest) :
    ∃ left, Inside bracket.itemText bracket.closing text left ∧
      ∃ fewer ≤ moves, skipOpen fewer (.next true) openings left = .ok rest := by
  cases moves with
  | zero => cases taken
  | succ moves =>
    obtain ⟨blanks, split⟩ := exists_spaces text
    simp only [skipOpen] at taken
    split at taken
    case h_1 => cases taken
    case h_2 c later start =>
      rw [split, start]
      simp only [Bool.false_eq_true, false_and, ↓reduceIte] at taken
      split at taken
      case isTrue closing =>
        rw [closing]
        exact ⟨later, inside_close blanks, moves, Nat.le_succ moves, taken⟩
      case isFalse =>
        have fits : moves ≤ bound := Nat.le_of_succ_le within
        obtain ⟨front, left, starts, item, fewer, less, onward⟩ :=
          exists_front_of_skipOpen value fits taken
        obtain ⟨left, written, fewest, least, behind⟩ :=
          onward_of_skipOpen value (less.le.trans fits) onward
        rw [item]
        exact ⟨left, inside_first blanks starts written, fewest,
          least.trans (less.le.trans (Nat.le_succ moves)), behind⟩

end Inside

/-- Where a value is expected, skipping passes over one. -/
theorem passesValue (moves : Nat) : PassesValue moves := by
  induction moves using Nat.strongRecOn with
  | ind moves ih =>
    intro openings text rest taken
    cases moves with
    | zero => cases taken
    | succ moves =>
      obtain ⟨blanks, split⟩ := exists_spaces text
      simp only [skipOpen] at taken
      split at taken
      case h_1 => cases taken
      case h_2 c later start =>
        rw [split, start]
        obtain ⟨found, scalar, taken⟩ := exists_of_bind taken
        rcases takes_of_skipScalar? scalar with ⟨left, rfl, takes⟩ | ⟨rfl, opens⟩
        · refine ⟨left, takes_spaces blanks takes, ?_⟩
          cases openings with
          | nil =>
            cases taken
            exact ⟨moves + 1, le_rfl, by rw [skipOpen]⟩
          | cons bracket openings => exact ⟨moves, Nat.le_succ moves, taken⟩
        · -- what stands behind an opening bracket is passed in fewer moves
          obtain ⟨bracket, rfl, same⟩ : ∃ bracket : Bracket, c = bracket.opening ∧
              (if c = '[' then Bracket.list else .object) = bracket := by
            rcases opens with rfl | rfl
            · exact ⟨.list, rfl, rfl⟩
            · exact ⟨.object, rfl, rfl⟩
          simp only [same] at taken
          obtain ⟨left, inside, fewer, less, onward⟩ :=
            inside_of_skipOpen (fun fewer less => ih fewer (Nat.lt_succ_of_lt less)) le_rfl taken
          exact ⟨left, takes_spaces blanks (takes_bracket inside), fewer,
            less.trans (Nat.le_succ moves), onward⟩

/-- What is skipped is a value. -/
theorem takes_of_skipValue (taken : skipValue text = .ok rest) : Takes text rest := by
  obtain ⟨left, takes, fewer, _, onward⟩ := passesValue _ _ _ _ taken
  cases fewer with
  | zero => cases onward
  | succ fewer =>
    rw [skipOpen] at onward
    cases onward
    exact takes

end Skipping

end ExerciseAudit.Json
