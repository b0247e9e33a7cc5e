import ExerciseAudit.Decimal.Shortest
import ExerciseAudit.Text.Lines
import ExerciseAudit.Text.Quoted
import Mathlib.Data.List.Basic

/-!
# Texts of one line

What is printed line by line is cut back into its parts just if none of them holds a line feed
(`Text.segments_join_iff`). Numbers and quoted texts never hold one.
-/

namespace ExerciseAudit

namespace Text

/-- A text that stays on its line. -/
def OneLine (text : String) : Prop :=
  '\n' ∉ text.toList

instance : DecidablePred OneLine :=
  fun text => inferInstanceAs (Decidable ('\n' ∉ text.toList))

@[simp]
theorem oneLine_append (first second : String) :
    OneLine (first ++ second) ↔ OneLine first ∧ OneLine second := by
  simp [OneLine]

theorem oneLine_ofList (text : List Char) : OneLine (.ofList text) ↔ '\n' ∉ text := by
  simp [OneLine]

/-! ## Cutting at line feeds -/

theorem segments_ne_nil (text : List Char) : segments text ≠ [] := by
  induction text with
  | nil => simp [segments]
  | cons c rest ih =>
    unfold segments
    split
    · simp
    · split <;> simp

theorem segments_cons {c : Char} (other : c ≠ '\n') {rest first : List Char}
    {others : List (List Char)} (cut : segments rest = first :: others) :
    segments (c :: rest) = (c :: first) :: others := by
  rw [segments, if_neg other, cut]

/-- No part between line feeds holds one. -/
theorem newline_notMem_of_mem_segments {text part : List Char} (member : part ∈ segments text) :
    '\n' ∉ part := by
  induction text generalizing part with
  | nil =>
    rw [segments, List.mem_singleton] at member
    simp [member]
  | cons c rest ih =>
    by_cases feed : c = '\n'
    · rw [segments, if_pos feed, List.mem_cons] at member
      rcases member with rfl | member
      · simp
      · exact ih member
    · obtain ⟨first, others, cut⟩ := List.exists_cons_of_ne_nil (segments_ne_nil rest)
      rw [segments_cons feed cut, List.mem_cons] at member
      rcases member with rfl | member
      · have clean : '\n' ∉ first := ih (cut ▸ List.mem_cons_self)
        simp [Ne.symm feed, clean]
      · exact ih (cut ▸ List.mem_cons_of_mem _ member)

/-- A line feed cuts a text into what stands before it and what stands behind it. -/
theorem segments_append (text more : List Char) :
    segments (text ++ '\n' :: more) = segments text ++ segments more := by
  induction text with
  | nil => simp [segments]
  | cons c rest ih =>
    by_cases feed : c = '\n'
    · simp [segments, feed, ih]
    · obtain ⟨first, others, cut⟩ := List.exists_cons_of_ne_nil (segments_ne_nil rest)
      rw [cut, List.cons_append] at ih
      rw [List.cons_append, segments_cons feed ih, segments_cons feed cut, List.cons_append]

theorem segments_of_notMem {line : List Char} (clean : '\n' ∉ line) : segments line = [line] := by
  induction line with
  | nil => rfl
  | cons c rest ih =>
    rw [List.mem_cons, not_or] at clean
    exact segments_cons (Ne.symm clean.1) (ih clean.2)

/-- A line feed ends the first line. -/
theorem segments_append_newline {line : List Char} (clean : '\n' ∉ line) (rest : List Char) :
    segments (line ++ '\n' :: rest) = line :: segments rest := by
  rw [segments_append, segments_of_notMem clean, List.singleton_append]

/-- What is printed line by line consists of just these lines if none of them holds a line feed, and
only then. -/
theorem segments_join_iff (lines : List String) :
    segments (String.join (lines.map (· ++ "\n"))).toList = lines.map String.toList ++ [[]] ↔
      ∀ line ∈ lines, OneLine line := by
  constructor
  -- Each line is one of the parts, and no part holds a line feed.
  · intro cut line member
    have part : line.toList ∈ segments (String.join (lines.map (· ++ "\n"))).toList := by
      rw [cut]
      exact List.mem_append_left _ (List.mem_map_of_mem member)
    exact newline_notMem_of_mem_segments part
  · intro clean
    rw [String.toList_join, List.flatMap_map]
    induction lines with
    | nil => rfl
    | cons line rest ih =>
      rw [List.forall_mem_cons] at clean
      rw [List.flatMap_cons, String.toList_append, List.append_assoc, List.map_cons,
        List.cons_append, ← ih clean.2]
      exact segments_append_newline clean.1 _

/-! ## What is on one line -/

theorem newline_notMem_toDigits {base : Nat} (large : 1 < base) (n : Nat) :
    '\n' ∉ Nat.toDigits base n := by
  induction n using Nat.strongRecOn with
  | ind n ih =>
    rw [Nat.toDigits_eq_if large]
    split
    case isTrue => simp
    case isFalse tall =>
      have less : n / base < n := Nat.div_lt_self (by omega) large
      simp [ih (n / base) less]

@[simp]
theorem oneLine_repr (n : Nat) : OneLine n.repr := by
  rw [OneLine, Nat.toList_repr]
  exact newline_notMem_toDigits (by decide) n

theorem oneLine_int (n : Int) : OneLine n.repr := by
  rw [Int.repr_eq_if]
  split
  · exact oneLine_repr _
  · exact (oneLine_append _ _).mpr ⟨by decide, oneLine_repr _⟩

theorem newline_notMem_quotedChar (c : Char) : '\n' ∉ quotedChar c := by
  by_cases feed : c = '\n'
  · subst feed
    decide
  · unfold quotedChar
    repeat' split
    all_goals simp [codeForm, newline_notMem_toDigits, Ne.symm feed]

/-- A quoted text is one line, since line feeds in it are escaped. -/
theorem oneLine_quoted (text : String) : OneLine (quoted text) := by
  rw [quoted, oneLine_ofList]
  simp [newline_notMem_quotedChar]

end Text

namespace Decimal

open Text (OneLine)

theorem oneLine_layout (layout : Layout) (d : Digits) : OneLine (layout.write d) := by
  have digits (n : Nat) : '\n' ∉ Nat.toDigits 10 n := Text.newline_notMem_toDigits (by decide) n
  have written := digits d.digits
  unfold Layout.write
  generalize Nat.toDigits 10 d.digits = text at written
  have front (n : Nat) : '\n' ∉ text.take n := fun member => written (List.mem_of_mem_take member)
  have back (n : Nat) : '\n' ∉ text.drop n := fun member => written (List.mem_of_mem_drop member)
  simp only
  repeat' split
  all_goals
    rw [Text.oneLine_ofList]
    simp_all

theorem oneLine_write (layout : Layout) (x : Signed64) : OneLine (x.write layout) := by
  refine (Text.oneLine_append _ _).mpr ⟨?_, oneLine_layout _ _⟩
  split <;> decide

end Decimal

end ExerciseAudit
