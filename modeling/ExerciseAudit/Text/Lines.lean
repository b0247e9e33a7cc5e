/-!
# Lines

A text is cut at every line feed. A carriage return right before a line feed belongs to the line end; one
at the end of a last line without a line feed belongs to the line.
-/

namespace ExerciseAudit.Text

/-- A line whose line feed has been cut off, without the carriage return that stood before it. -/
def dropReturn (line : List Char) : List Char :=
  if line.getLast? = some '\r' then line.dropLast else line

/-- The parts of a text between its line feeds: one more than it has line feeds. -/
def segments : List Char → List (List Char)
  | [] => [[]]
  | c :: rest =>
    if c = '\n' then [] :: segments rest
    else match segments rest with
      | [] => [[c]]
      | first :: others => (c :: first) :: others

/-- The lines among some segments: all but the last ended in a line feed, and an empty last one is none. -/
def linesOfSegments : List (List Char) → List (List Char)
  | [] => []
  | [last] => if last.isEmpty then [] else [last]
  | line :: next :: others => dropReturn line :: linesOfSegments (next :: others)

/-- The lines of a text, without their line ends. -/
def lines (text : List Char) : List (List Char) :=
  linesOfSegments (segments text)

end ExerciseAudit.Text
