import ExerciseAudit.Heading
import ExerciseAudit.Proofs.Text.Line
import Mathlib.Data.List.DropRight
import Mathlib.Data.List.Induction

/-!
# Headings line by line

Blanks at the end of a line are no part of its title. So the carriage return of a line end makes no
difference, and the headings of a text are found in what stands between its line feeds
(`Heading.titles_eq`). A text with more lines behind it has its own headings and then theirs
(`Heading.ofText_append`).
-/

namespace ExerciseAudit

namespace Text

@[simp]
theorem trimEnd_nil : trimEnd [] = [] := rfl

theorem trimEnd_concat (text : List Char) (c : Char) :
    trimEnd (text ++ [c]) = if isBlank c then trimEnd text else text ++ [c] :=
  List.rdropWhile_concat isBlank text c

/-- A carriage return at the end of a line is blank anyway. -/
theorem trimEnd_dropReturn (line : List Char) : trimEnd (dropReturn line) = trimEnd line := by
  have blank : isBlank '\r' = true := by decide
  unfold dropReturn
  split
  case isFalse => rfl
  case isTrue ends =>
    obtain ⟨front, rfl⟩ := List.getLast?_eq_some_iff.mp ends
    rw [List.dropLast_concat, trimEnd_concat, if_pos blank]

end Text

namespace Heading

open Text

/-- What follows the marks of a heading is a title behind blanks, whatever blanks stand at its
end. -/
theorem trimEnd_dropWhile_concat {c : Char} (blank : isBlank c = true) (rest : List Char) :
    trimEnd ((rest ++ [c]).dropWhile isBlank) = trimEnd (rest.dropWhile isBlank) := by
  rw [List.dropWhile_append]
  split
  case isTrue vacant =>
    rw [List.isEmpty_iff.mp vacant]
    simp [blank]
  case isFalse => rw [trimEnd_concat, if_pos blank]

/-- A character that is no mark, behind a line, stands behind all that is not marks. -/
theorem marks_concat {c : Char} (other : (c == '#') = false) (line : List Char) :
    (line ++ [c]).takeWhile (· == '#') = line.takeWhile (· == '#') ∧
      (line ++ [c]).dropWhile (· == '#') = line.dropWhile (· == '#') ++ [c] := by
  induction line with
  | nil => simp [other]
  | cons first rest ih =>
    by_cases mark : (first == '#') = true
    · simpa [mark] using ih
    · simp [mark]

theorem title?_concat {c : Char} (blank : isBlank c = true) (line : List Char) :
    title? (line ++ [c]) = title? line := by
  have unmarked : (c == '#') = false := by
    rw [beq_eq_false_iff_ne]
    rintro rfl
    exact absurd blank (by decide)
  obtain ⟨marks, rest⟩ := marks_concat unmarked line
  unfold title?
  rw [marks, rest]
  cases line.dropWhile (· == '#') with
  | nil => simp [blank]
  | cons first others =>
    have head : (first :: others ++ [c]).head? = (first :: others).head? := rfl
    simp only [trimEnd_dropWhile_concat blank, head]

/-- Blanks at the end of a line make no difference to its title. -/
theorem title?_trimEnd (line : List Char) : title? (trimEnd line) = title? line := by
  induction line using List.reverseRecOn with
  | nil => rfl
  | append_singleton front last ih =>
    rw [trimEnd_concat]
    split
    case isTrue blank => rw [ih, title?_concat blank]
    case isFalse => rfl

/-- A line has the same title with a carriage return at its end and without. -/
theorem title?_dropReturn (line : List Char) : title? (dropReturn line) = title? line := by
  rw [← title?_trimEnd, trimEnd_dropReturn, title?_trimEnd]

theorem filterMap_title?_linesOfSegments (parts : List (List Char)) :
    (linesOfSegments parts).filterMap title? = parts.filterMap title? := by
  induction parts using linesOfSegments.induct with
  | case1 => rfl
  | case2 last vacant =>
    rw [List.isEmpty_iff.mp vacant]
    rfl
  | case3 last inhabited => rw [linesOfSegments, if_neg inhabited]
  | case4 line next others ih =>
    rw [linesOfSegments, List.filterMap_cons, title?_dropReturn, ih, ← List.filterMap_cons]

/-- The titles of a text are those of what stands between its line feeds. -/
theorem titles_eq (text : List Char) : titles text = (segments text).filterMap title? :=
  filterMap_title?_linesOfSegments (segments text)

/-- Titles of a text that goes on behind a line feed are those of its two parts. -/
theorem titles_append (text more : List Char) :
    titles (text ++ '\n' :: more) = titles text ++ titles more := by
  simp only [titles_eq, segments_append, List.filterMap_append]

/-- A text with more lines behind it has its own headings and then theirs. -/
theorem ofText_append (text more : String) :
    ofText (text ++ "\n" ++ more) = ofText text ++ ofText more := by
  have joined : (text ++ "\n" ++ more).toList = text.toList ++ '\n' :: more.toList := by
    simp
  rw [ofText, joined, titles_append, List.map_append]
  rfl

/-- A text that can be a title: it stays on its line, is not empty and has no blank at an end. -/
structure IsTitle (title : String) : Prop where
  inhabited : title ≠ ""
  oneLine : OneLine title
  start : ∀ c ∈ title.toList.head?, isBlank c = false
  stop : ∀ c ∈ title.toList.getLast?, isBlank c = false

/-- A line of one marker, a blank and a trimmed title has that title. -/
theorem title?_heading {title : List Char} (inhabited : title ≠ [])
    (start : ∀ c ∈ title.head?, isBlank c = false)
    (stop : ∀ c ∈ title.getLast?, isBlank c = false) :
    title? ('#' :: ' ' :: title) = some title := by
  have space : isBlank ' ' = true := by decide
  have unmarked : (' ' == '#') = false := by decide
  have front : title.dropWhile isBlank = title := by
    obtain ⟨first, rest, rfl⟩ := List.exists_cons_of_ne_nil inhabited
    simp [start first rfl]
  have back : trimEnd title = title := by
    obtain ⟨rest, last, rfl⟩ := (List.eq_nil_or_concat' title).resolve_left inhabited
    rw [trimEnd_concat, if_neg]
    simp [stop last (by simp)]
  unfold title?
  simp [unmarked, space, front, back, inhabited]

/-- A line with a title behind a mark is the heading of that title, with a line feed or without. -/
theorem ofText_heading {title : String} (valid : IsTitle title) {ending : String}
    (ends : ending = "" ∨ ending = "\n") : ofText ("# " ++ title ++ ending) = [title] := by
  have inhabited : title.toList ≠ [] := by simpa using valid.inhabited
  have line : title? ("# " ++ title).toList = some title.toList := by
    simpa using title?_heading inhabited valid.start valid.stop
  have clean : '\n' ∉ ("# " ++ title).toList :=
    (oneLine_append _ _).mpr ⟨by decide, valid.oneLine⟩
  have cut : titles ("# " ++ title ++ ending).toList = [title.toList] := by
    rw [titles_eq]
    rcases ends with rfl | rfl
    · simp only [String.append_empty, segments_of_notMem clean, List.filterMap_cons, line,
        List.filterMap_nil]
    · have feed : ("# " ++ title ++ "\n").toList = ("# " ++ title).toList ++ '\n' :: [] := by
        simp
      have none : title? [] = none := rfl
      simp only [feed, segments_append_newline clean, segments, List.filterMap_cons, line, none,
        List.filterMap_nil]
  rw [ofText, cut]
  simp

end Heading

end ExerciseAudit
