import ExerciseAudit.Text.Styled
import Mathlib.Data.List.TakeWhile

/-!
# Taking styles away

A sequence that selects a style is an escape character, `[`, numbers between separators, and `m`.
Text without escape characters that is written with its styles is the same text once all such
sequences are deleted (`Text.unstyled_write`). Text with some of its own is not, but the same remains
of it with and without styles if it stands in whole lines (`Text.unstyled_write_of_tidy`).
-/

namespace ExerciseAudit.Text

/-! ## Stretches with and without their styles -/

namespace Stretch

/-- A stretch without its style. -/
def text : Stretch → String
  | plain text | bold text | tinted _ text => text

/-- A stretch with escape sequences that start and end its style. -/
def escaped : Stretch → String
  | plain text => text
  | bold text => select "1" ++ text ++ select "0"
  | tinted colour text => select "1" ++ select colour.code ++ text ++ select "39" ++ select "0"

/-- A stretch shows its style where `NO_COLOR` is not set. -/
@[simp]
theorem write_none (stretch : Stretch) : stretch.write none = stretch.escaped := by
  cases stretch <;> rfl

/-- A stretch shows no style where `NO_COLOR` is set, to whatever value. -/
@[simp]
theorem write_some (value : String) (stretch : Stretch) :
    stretch.write (some value) = stretch.text := by
  cases stretch <;> rfl

end Stretch

/-- Of all stretches the text alone is written where `NO_COLOR` is set. -/
theorem write_some (value : String) (stretches : List Stretch) :
    write (some value) stretches = String.join (stretches.map Stretch.text) := by
  simp only [write, funext (Stretch.write_some value)]

/-! ## Sequences -/

/-- The character with which an escape sequence starts. -/
def escape : Char := '\x1b'

/-- Whether a character may stand between `[` and `m` in a sequence that selects a style. -/
def isParameter (c : Char) : Bool :=
  c.isDigit || c == ';' || c == ':'

/-- How many characters the sequence has with which a text starts, if it starts with one. -/
def sequenceLength : List Char → Nat
  | '\x1b' :: '[' :: rest =>
    match rest.dropWhile isParameter with
    | 'm' :: _ => (rest.takeWhile isParameter).length + 3
    | _ => 0
  | _ => 0

/-- A text behind its first `skipped` characters, without the sequences that select a style. -/
def unstyledFrom : (skipped : Nat) → List Char → List Char
  | _, [] => []
  | skipped + 1, _ :: rest => unstyledFrom skipped rest
  | 0, c :: rest =>
    match sequenceLength (c :: rest) with
    | 0 => c :: unstyledFrom 0 rest
    | length + 1 => unstyledFrom length rest

/-- A text without the sequences in it that select a style. -/
def unstyled (text : String) : String :=
  String.ofList (unstyledFrom 0 text.toList)

/-- What is to be skipped is skipped, and nothing behind it. -/
theorem unstyledFrom_append (skipped rest : List Char) :
    unstyledFrom skipped.length (skipped ++ rest) = unstyledFrom 0 rest := by
  induction skipped with
  | nil => rfl
  | cons c skipped ih => exact ih

theorem sequenceLength_of_ne {c : Char} (other : c ≠ escape) (rest : List Char) :
    sequenceLength (c :: rest) = 0 := by
  unfold sequenceLength
  split
  case h_1 same => exact absurd (List.cons.inj same).1 other
  case h_2 => rfl

/-- Text without escape characters is kept. -/
theorem unstyledFrom_plain {text : List Char} (plain : escape ∉ text) (rest : List Char) :
    unstyledFrom 0 (text ++ rest) = text ++ unstyledFrom 0 rest := by
  induction text with
  | nil => rfl
  | cons c text ih =>
    rw [List.mem_cons, not_or] at plain
    obtain ⟨other, later⟩ := plain
    rw [List.cons_append, unstyledFrom, sequenceLength_of_ne (Ne.symm other)]
    simp only
    rw [ih later, List.cons_append]

/-- A sequence that selects a style ends behind its letter. -/
theorem sequenceLength_select {code : List Char} (numbers : ∀ c ∈ code, isParameter c = true)
    (rest : List Char) :
    sequenceLength ('\x1b' :: '[' :: (code ++ 'm' :: rest)) = code.length + 3 := by
  have taken : (code ++ 'm' :: rest).takeWhile isParameter = code := by
    rw [List.takeWhile_append_of_pos numbers, List.takeWhile_cons_of_neg (by decide),
      List.append_nil]
  have left : (code ++ 'm' :: rest).dropWhile isParameter = 'm' :: rest := by
    rw [List.dropWhile_append_of_pos numbers, List.dropWhile_cons_of_neg (by decide)]
  rw [sequenceLength, left, taken]
  rfl

/-- A sequence that selects a style is deleted. -/
theorem unstyledFrom_select {code : String} (numbers : code.toList.all isParameter = true)
    (rest : List Char) :
    unstyledFrom 0 ((select code).toList ++ rest) = unstyledFrom 0 rest := by
  have spelled : (select code).toList ++ rest =
      '\x1b' :: ('[' :: code.toList ++ ['m'] ++ rest) := by
    simp [select]
  have length : sequenceLength ('\x1b' :: ('[' :: code.toList ++ ['m'] ++ rest)) =
      ('[' :: code.toList ++ ['m']).length + 1 := by
    have whole := sequenceLength_select (List.all_eq_true.mp numbers) rest
    simpa using whole
  rw [spelled, unstyledFrom, length]
  exact unstyledFrom_append ('[' :: code.toList ++ ['m']) rest

theorem isParameter_code (colour : Colour) : colour.code.toList.all isParameter = true := by
  cases colour <;> rfl

/-- A styled stretch without escapes of its own is left as its text. -/
theorem unstyledFrom_escaped {stretch : Stretch} (plain : escape ∉ stretch.text.toList)
    (rest : List Char) :
    unstyledFrom 0 (stretch.escaped.toList ++ rest) =
      stretch.text.toList ++ unstyledFrom 0 rest := by
  have bold := @unstyledFrom_select "1" rfl
  have reset := @unstyledFrom_select "0" rfl
  have uncoloured := @unstyledFrom_select "39" rfl
  cases stretch with
  | plain text => exact unstyledFrom_plain plain rest
  | bold text =>
    rw [Stretch.text] at plain
    simp only [Stretch.escaped, Stretch.text, String.toList_append, List.append_assoc]
    rw [bold, unstyledFrom_plain plain, reset]
  | tinted colour text =>
    rw [Stretch.text] at plain
    simp only [Stretch.escaped, Stretch.text, String.toList_append, List.append_assoc]
    rw [bold, unstyledFrom_select (isParameter_code colour), unstyledFrom_plain plain, uncoloured,
      reset]

theorem write_toList (noColor : Option String) (stretches : List Stretch) :
    (write noColor stretches).toList =
      stretches.flatMap fun stretch => (stretch.write noColor).toList := by
  rw [write, String.toList_join, List.flatMap_map]

/-- **Styles are all that is taken away.** What is written without styles and has no escape character
is what remains of the text with its styles when all sequences that select a style are deleted. -/
theorem unstyled_write {stretches : List Stretch} {value : String}
    (plain : escape ∉ (write (some value) stretches).toList) :
    unstyled (write none stretches) = write (some value) stretches := by
  rw [write_toList] at plain
  have kept : unstyledFrom 0 (write none stretches).toList =
      (write (some value) stretches).toList := by
    rw [write_toList, write_toList]
    induction stretches with
    | nil => rfl
    | cons stretch rest ih =>
      rw [List.flatMap_cons, List.mem_append, not_or] at plain
      obtain ⟨here, later⟩ := plain
      rw [Stretch.write_some] at here
      rw [List.flatMap_cons, List.flatMap_cons, ← ih later, Stretch.write_none, Stretch.write_some]
      exact unstyledFrom_escaped here _
  rw [unstyled, kept, String.ofList_toList]

/-! ## Lines -/

/-- No sequence goes on behind the end of a line. -/
theorem sequenceLength_opened (line rest : List Char) :
    sequenceLength ('\x1b' :: '[' :: (line ++ '\n' :: rest)) =
        sequenceLength ('\x1b' :: '[' :: (line ++ ['\n'])) ∧
      sequenceLength ('\x1b' :: '[' :: (line ++ ['\n'])) ≤ line.length + 2 := by
  have whole : line.takeWhile isParameter ++ line.dropWhile isParameter = line :=
    List.takeWhile_append_dropWhile
  have lengths := congrArg List.length whole
  rw [List.length_append] at lengths
  simp only [sequenceLength, List.dropWhile_append, List.takeWhile_append]
  cases left : line.dropWhile isParameter with
  | nil => exact ⟨rfl, Nat.zero_le _⟩
  | cons next later =>
    rw [left, List.length_cons] at lengths
    have short : (line.takeWhile isParameter).length ≠ line.length := by omega
    simp only [List.isEmpty_cons, Bool.false_eq_true, ↓reduceIte, List.cons_append, short]
    by_cases closes : next = 'm'
    · subst closes
      exact ⟨rfl, by simp only; omega⟩
    · simp [closes]

/-- No sequence goes on behind a line feed. -/
theorem sequenceLength_line (c : Char) (line rest : List Char) :
    sequenceLength (c :: (line ++ '\n' :: rest)) = sequenceLength (c :: (line ++ ['\n'])) ∧
      sequenceLength (c :: (line ++ ['\n'])) ≤ line.length + 1 := by
  by_cases other : c = escape
  · subst other
    cases line with
    | nil => exact ⟨rfl, Nat.zero_le _⟩
    | cons next line =>
      by_cases opens : next = '['
      · subst opens
        exact sequenceLength_opened line rest
      · simp [sequenceLength, opens]
  · rw [sequenceLength_of_ne other, sequenceLength_of_ne other]
    exact ⟨rfl, Nat.zero_le _⟩

/-- Lines are stripped of their styles one by one. -/
theorem unstyledFrom_line {skipped : Nat} {line : List Char} (inside : skipped ≤ line.length)
    (rest : List Char) :
    unstyledFrom skipped (line ++ '\n' :: rest) =
      unstyledFrom skipped (line ++ ['\n']) ++ unstyledFrom 0 rest := by
  induction line generalizing skipped with
  | nil =>
    obtain rfl : skipped = 0 := Nat.le_zero.mp inside
    rfl
  | cons c line ih =>
    cases skipped with
    | succ skipped => exact ih (Nat.le_of_succ_le_succ inside)
    | zero =>
      obtain ⟨same, short⟩ := sequenceLength_line c line rest
      simp only [List.cons_append, unstyledFrom]
      rw [same]
      cases length : sequenceLength (c :: (line ++ ['\n'])) with
      | zero => simp only [ih (Nat.zero_le _), List.cons_append]
      | succ length => exact ih (by omega)

/-- Styled stretches hold no escape characters, and plain ones are whole lines or ends of lines. -/
def Stretch.Tidy : Stretch → Prop
  | .plain text => ∃ line, text = line ++ "\n"
  | .bold text | .tinted _ text => escape ∉ text.toList

/-- What remains of a stretch is the same with and without its style. -/
theorem exists_unstyledFrom_write {stretch : Stretch} (tidy : stretch.Tidy) :
    ∃ shown, ∀ noColor rest,
      unstyledFrom 0 ((stretch.write noColor).toList ++ rest) = shown ++ unstyledFrom 0 rest := by
  have styles (plain : escape ∉ stretch.text.toList) : ∀ noColor rest,
      unstyledFrom 0 ((stretch.write noColor).toList ++ rest) =
        stretch.text.toList ++ unstyledFrom 0 rest := by
    intro noColor rest
    cases noColor with
    | none =>
      rw [Stretch.write_none]
      exact unstyledFrom_escaped plain rest
    | some value =>
      rw [Stretch.write_some]
      exact unstyledFrom_plain plain rest
  cases stretch with
  | plain text =>
    obtain ⟨line, rfl⟩ := tidy
    refine ⟨unstyledFrom 0 (line.toList ++ ['\n']), fun noColor rest => ?_⟩
    have spelled : ((Stretch.plain (line ++ "\n")).write noColor).toList ++ rest =
        line.toList ++ '\n' :: rest := by
      simp [Stretch.write]
    rw [spelled]
    exact unstyledFrom_line (Nat.zero_le _) rest
  | bold text => exact ⟨_, styles tidy⟩
  | tinted colour text => exact ⟨_, styles tidy⟩

/-- Even if plain stretches hold sequences of their own, the same remains of what is written with and
without styles. -/
theorem unstyled_write_of_tidy {stretches : List Stretch}
    (tidy : ∀ stretch ∈ stretches, stretch.Tidy) (first second : Option String) :
    unstyled (write first stretches) = unstyled (write second stretches) := by
  have kept : unstyledFrom 0 (write first stretches).toList =
      unstyledFrom 0 (write second stretches).toList := by
    rw [write_toList, write_toList]
    induction stretches with
    | nil => rfl
    | cons stretch rest ih =>
      obtain ⟨here, later⟩ := List.forall_mem_cons.mp tidy
      obtain ⟨shown, remains⟩ := exists_unstyledFrom_write here
      rw [List.flatMap_cons, List.flatMap_cons, remains, remains, ih later]
  rw [unstyled, kept, unstyled]

end ExerciseAudit.Text
