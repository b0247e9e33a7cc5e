import ExerciseAudit.Text.Blank
import ExerciseAudit.Text.Lines

/-!
# Headings

A heading is a line of one to six `#`, at least one blank, and a title that is not empty once the blanks
around it are gone. How many `#` there are does not matter, and neither does what surrounds the line: a
line in a fenced block counts like any other.
-/

namespace ExerciseAudit.Heading

/-- The title on a line, if the line is a heading. -/
def title? (line : List Char) : Option (List Char) :=
  let marks := line.takeWhile (· == '#')
  let rest := line.dropWhile (· == '#')
  if 1 ≤ marks.length ∧ marks.length ≤ 6 ∧ rest.head?.any Text.isBlank then
    let title := Text.trimEnd (rest.dropWhile Text.isBlank)
    if title.isEmpty then none else some title
  else none

/-- The titles of a text's headings, in order and with repeats. -/
def titles (text : List Char) : List (List Char) :=
  (Text.lines text).filterMap title?

/-- The titles of a text's headings, in order and with repeats. -/
def ofText (text : String) : List String :=
  (titles text.toList).map String.ofList

end ExerciseAudit.Heading
