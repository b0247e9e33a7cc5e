import ExerciseAudit.Text.Lines
import ExerciseAudit.Text.Utf8
import ExerciseAudit.Toml.Value

/-!
# Excerpts

A message about a stretch of a document, with the line on which it starts and a row of carets below.
-/

namespace ExerciseAudit.Toml

/-- The characters of a text that start within its first `bytes` bytes. -/
def takeBytes : (bytes : Nat) → List Char → List Char
  | _, [] => []
  | 0, _ => []
  | bytes + 1, c :: rest => c :: takeBytes (bytes + 1 - c.utf8Size) rest

/-- Some blanks. -/
def blanks (count : Nat) : List Char :=
  List.replicate count ' '

/-- A message about a stretch of a text, each of its lines ended. Lines and columns count from one, and the
carets do not go beyond the line on which the stretch starts. -/
def excerpt (text : List Char) (span : Span) (message : String) : String :=
  let earlier := Text.segments (takeBytes (Utf8.size text - span.fromStart) text)
  let number := (toString earlier.length).toList
  let column := (earlier.getLast?.getD []).length
  let content := ((Text.segments text)[earlier.length - 1]?).getD []
  let carets := max 1 (min (span.fromStart - span.fromEnd) (Utf8.size content - column))
  let gutter := blanks (number.length + 1) ++ ['|']
  String.ofList <|
    "TOML parse error at line ".toList ++ number ++ ", column ".toList ++ Nat.toDigits 10 (column + 1) ++
      '\n' :: gutter ++
      '\n' :: number ++ ' ' :: '|' :: ' ' :: content ++
      '\n' :: gutter ++ blanks (column + 1) ++ List.replicate carets '^' ++
      '\n' :: message.toList ++ ['\n']

end ExerciseAudit.Toml
