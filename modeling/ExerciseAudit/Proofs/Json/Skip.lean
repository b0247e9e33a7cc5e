import ExerciseAudit.Proofs.Json.Reader

/-!
# Skipping what is written

A reader that wants nothing of a value passes over exactly the value, whatever it is and however
deep its brackets nest: strings need not spell anything and numbers need not be within range. What
the reader needs for that are at most four moves for every character.
-/

namespace ExerciseAudit.Json

/-- A skipping reader passes over a value's text, in fewer moves than its length allows. -/
def Skips (text : List Char) : Prop :=
  ∃ cost, cost + 2 ≤ 4 * text.length ∧
    ∀ moves openings (blanks : List Blank) {rest : List Char}, Stops rest →
      skipOpen (moves + 1 + cost) .value openings (spaces blanks ++ (text ++ rest)) =
        skipOpen (moves + 1) (.next true) openings rest

/-- Inside a bracket, a skipping reader passes over the text of an item or a member, but for the
blanks around it. -/
def SkipsItem (bracket : Bracket) (text : List Char) : Prop :=
  ∃ (before after : List Blank) (c : Char) (inner : List Char) (cost : Nat),
    text = spaces before ++ c :: inner ∧ isSpace c = false ∧ c ≠ bracket.closing ∧
      cost + 1 ≤ 4 * text.length ∧
      ∀ moves openings (blanks : List Blank) {rest : List Char}, Stops rest →
        skipOpen (moves + 1 + cost) .item (bracket :: openings)
            (spaces blanks ++ (c :: inner ++ rest)) =
          skipOpen (moves + 1) (.next true) (bracket :: openings) (spaces after ++ rest)

/-! ## Words, strings and numbers -/

theorem skips_of_skipScalar {writing : Writing}
    (scalar : ∀ {c later rest}, Stops rest → writing.text ++ rest = c :: later →
      skipScalar? c later = .ok (some rest)) : Skips writing.text := by
  obtain ⟨c, later, start, visible, _⟩ := writing.exists_text_eq_cons
  refine ⟨1, by rw [start, List.length_cons]; omega, fun moves openings blanks rest stops => ?_⟩
  have skipped : skipScalar? c (later ++ rest) = .ok (some rest) :=
    scalar stops (by rw [start, List.cons_append])
  rw [skipOpen, writing.skipSpace_text, start, List.cons_append]
  simp only [skipped, bind, Except.bind]
  cases openings with
  | nil => rw [skipOpen]; rfl
  | cons bracket openings => rfl

theorem skipScalar?_number {c : Char} (numeric : c = '-' ∨ isDigit c = true) (rest : List Char) :
    skipScalar? c rest = (skipNumber (c :: rest)).map some := by
  have other := ne_of_numeric numeric
  simp only [List.mem_cons, not_or] at other
  unfold skipScalar?
  simp only [other, numeric, ↓reduceIte]

/-- Every quoted text is skipped, even one that spells nothing. -/
theorem skips_string (glyphs : List Glyph) : Skips (Writing.string glyphs).text := by
  refine skips_of_skipScalar fun {c later rest} stops same => ?_
  rw [Writing.text, List.cons_append] at same
  cases same
  unfold skipScalar?
  rw [if_pos rfl, skipString_quoted]
  rfl

/-- Every figure is skipped, of whatever magnitude. -/
theorem skips_number (figure : Figure) : Skips (Writing.number figure).text := by
  refine skips_of_skipScalar fun {c later rest} stops same => ?_
  obtain ⟨d, digits, start, numeric⟩ := exists_figure_eq_cons figure
  have skipped := skipNumber_text figure stops
  rw [Writing.text] at same
  rw [start, List.cons_append] at same skipped
  cases same
  rw [skipScalar?_number numeric, skipped]
  rfl

/-! ## Lists and objects -/

theorem skipsItem_slot {slot : Slot Writing} (skips : Skips slot.value.text) :
    SkipsItem .list slot.text := by
  obtain ⟨cost, enough, skipped⟩ := skips
  obtain ⟨c, later, start, visible, _, notClosing, _⟩ := slot.value.exists_text_eq_cons
  have split : slot.text = spaces slot.before ++ c :: (later ++ spaces slot.after) := by
    rw [Slot.text, start, List.cons_append]
  refine ⟨slot.before, slot.after, c, later ++ spaces slot.after, cost + 1, split, visible,
    notClosing, ?_, fun moves openings blanks rest stops => ?_⟩
  · rw [start, List.length_cons] at enough
    simp only [split, List.length_append, List.length_cons]
    omega
  · have value := skipped moves (.list :: openings) blanks (stops_spaces slot.after stops)
    rw [start] at value
    rw [← Nat.add_assoc, skipOpen, ← value]
    · simp only [List.cons_append, List.append_assoc]
    · simp

theorem skipsItem_member {member : Member Writing} (skips : Skips member.value.text) :
    SkipsItem .object member.text := by
  obtain ⟨cost, enough, skipped⟩ := skips
  refine ⟨member.before, member.after, '"', _, cost + 1, rfl, by decide, by decide, ?_,
    fun moves openings blanks rest stops => ?_⟩
  · simp only [Member.text, List.length_append, List.length_cons]
    omega
  · have value := skipped moves (.object :: openings) member.ahead (stops_spaces member.after stops)
    rw [← Nat.add_assoc, skipOpen, ← value]
    simp only [List.append_assoc, List.cons_append, skipSpace_spaces]
    rw [skipSpace_cons (by decide)]
    simp only [↓reduceIte, skipString_quoted, bind, Except.bind, readColon_spaces]

section Bracketed

variable {α : Type} (bracket : Bracket) (text : α → List Char)

theorem stops_bracketed (items : List α) (rest : List Char) :
    Stops (items.flatMap (fun item => ',' :: text item) ++ bracket.closing :: rest) := by
  cases items with
  | nil => exact stops_cons (by cases bracket <;> decide)
  | cons item items => exact stops_cons (by decide)

/-- A closing bracket ends the innermost of what is open. -/
theorem skipOpen_close (moves : Nat) (behindItem : Bool) (openings : List Bracket)
    (blanks : List Blank) (rest : List Char) :
    skipOpen (moves + 1) (.next behindItem) (bracket :: openings)
        (spaces blanks ++ bracket.closing :: rest) =
      skipOpen moves (.next true) openings rest := by
  rw [skipOpen, skipSpace_spaces, skipSpace_cons (by cases bracket <;> decide)]
  cases bracket <;> simp [Bracket.closing]

/-- All further items of a bracket are passed over, and the bracket is closed. -/
theorem exists_skipOpen_later {items : List α}
    (skips : ∀ item ∈ items, SkipsItem bracket (text item)) :
    ∃ cost ≤ 4 * (items.flatMap fun item => ',' :: text item).length + 1,
      ∀ moves openings (blanks : List Blank) (rest : List Char),
        skipOpen (moves + 1 + cost) (.next true) (bracket :: openings) (spaces blanks ++
          (items.flatMap (fun item => ',' :: text item) ++ bracket.closing :: rest)) =
            skipOpen (moves + 1) (.next true) openings rest := by
  induction items with
  | nil => exact ⟨1, by simp, fun moves openings blanks rest => skipOpen_close ..⟩
  | cons item items ih =>
    obtain ⟨skipsHere, skipsLater⟩ := List.forall_mem_cons.mp skips
    obtain ⟨before, after, c, inner, cost, split, _, _, enough, skipped⟩ := skipsHere
    obtain ⟨costLater, enoughLater, skippedLater⟩ := ih skipsLater
    refine ⟨costLater + cost + 1, ?_, fun moves openings blanks rest => ?_⟩
    · simp only [List.flatMap_cons, List.length_append, List.length_cons]
      omega
    · have here :=
        skipped (moves + costLater) openings before (stops_bracketed bracket text items rest)
      have later := skippedLater moves openings after rest
      have total : moves + 1 + (costLater + cost + 1) = moves + 1 + costLater + cost + 1 := by omega
      rw [Nat.add_right_comm moves, later] at here
      rw [← here, total, skipOpen, skipSpace_spaces, List.flatMap_cons, List.cons_append,
        List.cons_append, skipSpace_cons (by decide), split]
      simp

/-- Everything inside a bracket is passed over, and the bracket is closed. -/
theorem exists_skipOpen_bracketed {items : List α}
    (skips : ∀ item ∈ items, SkipsItem bracket (text item)) :
    ∃ cost ≤ 4 * (separated (items.map text)).length + 2,
      ∀ moves openings (blanks : List Blank) (rest : List Char),
        skipOpen (moves + 1 + cost) (.next false) (bracket :: openings)
          (spaces blanks ++ (separated (items.map text) ++ bracket.closing :: rest)) =
            skipOpen (moves + 1) (.next true) openings rest := by
  cases items with
  | nil => exact ⟨1, by simp, fun moves openings blanks rest => skipOpen_close ..⟩
  | cons item items =>
    obtain ⟨skipsHere, skipsLater⟩ := List.forall_mem_cons.mp skips
    obtain ⟨before, after, c, inner, cost, split, visible, notClosing, enough, skipped⟩ := skipsHere
    obtain ⟨costLater, enoughLater, skippedLater⟩ := exists_skipOpen_later bracket text skipsLater
    refine ⟨costLater + cost + 1, ?_, fun moves openings blanks rest => ?_⟩
    · simp only [List.map_cons, separated, List.flatMap_map, List.length_append]
      omega
    · have here := skipped (moves + costLater) openings [] (stops_bracketed bracket text items rest)
      have later := skippedLater moves openings after rest
      have total : moves + 1 + (costLater + cost + 1) = moves + 1 + costLater + cost + 1 := by omega
      rw [Nat.add_right_comm moves, later] at here
      rw [← here, total, skipOpen, skipSpace_spaces, List.map_cons, separated, split,
        List.append_assoc, List.append_assoc, skipSpace_spaces, List.cons_append,
        skipSpace_cons visible]
      simp [notClosing, spaces, List.flatMap_map]

end Bracketed

/-- Any value is passed over. -/
theorem skips_text (writing : Writing) : Skips writing.text := by
  induction writing using Writing.text.induct with
  | case1 =>
    refine skips_of_skipScalar fun {c later rest} _ same => ?_
    rw [Writing.text] at same
    cases same
    rfl
  | case2 =>
    refine skips_of_skipScalar fun {c later rest} _ same => ?_
    rw [Writing.text] at same
    cases same
    rfl
  | case3 =>
    refine skips_of_skipScalar fun {c later rest} _ same => ?_
    rw [Writing.text] at same
    cases same
    rfl
  | case4 figure => exact skips_number figure
  | case5 glyphs => exact skips_string glyphs
  | case6 opening items ih =>
    obtain ⟨cost, enough, skipped⟩ := exists_skipOpen_bracketed .list Slot.text
      fun slot inside => skipsItem_slot (ih slot inside)
    rw [Writing.text_array]
    refine ⟨cost + 1, ?_, fun moves openings blanks rest stops => ?_⟩
    · simp only [List.length_cons, List.length_append]
      omega
    · rw [← skipped moves openings opening rest, ← Nat.add_assoc, skipOpen, skipSpace_spaces,
        List.cons_append, skipSpace_cons (by decide)]
      simp only [List.append_assoc]
      rfl
  | case7 opening members ih =>
    obtain ⟨cost, enough, skipped⟩ := exists_skipOpen_bracketed .object Member.text
      fun member inside => skipsItem_member (ih member inside)
    rw [Writing.text_object]
    refine ⟨cost + 1, ?_, fun moves openings blanks rest stops => ?_⟩
    · simp only [List.length_cons, List.length_append]
      omega
    · rw [← skipped moves openings opening rest, ← Nat.add_assoc, skipOpen, skipSpace_spaces,
        List.cons_append, skipSpace_cons (by decide)]
      simp only [List.append_assoc]
      rfl

/-- A value that nobody wants is passed over, whatever it is. -/
theorem skipValue_text (writing : Writing) (blanks : List Blank) {rest : List Char}
    (stops : Stops rest) : skipValue (spaces blanks ++ (writing.text ++ rest)) = .ok rest := by
  obtain ⟨cost, enough, skipped⟩ := skips_text writing
  have moves : ∃ moves,
      4 * (spaces blanks ++ (writing.text ++ rest)).length + 4 = moves + 1 + cost := by
    refine ⟨4 * (spaces blanks ++ (writing.text ++ rest)).length + 3 - cost, ?_⟩
    simp only [List.length_append]
    omega
  obtain ⟨moves, same⟩ := moves
  unfold skipValue
  rw [same, skipped moves [] blanks stops, skipOpen]

end ExerciseAudit.Json
