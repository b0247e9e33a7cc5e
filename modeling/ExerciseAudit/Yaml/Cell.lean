/-!
# Text with marks

YAML text is read as a row of cells, each a character with the place where it stands. Every kind of line
break but the line and paragraph separators has become a line feed, and the row ends with a zero character,
which no text may hold.
-/

namespace ExerciseAudit.Yaml

/-- A place in a text: line and column count from zero, the index from the start of the text. -/
structure Mark where
  line : Nat
  column : Nat
  index : Nat
  deriving DecidableEq, Repr

/-- A character where it stands. -/
structure Cell where
  char : Char
  mark : Mark
  deriving DecidableEq, Repr

/-- A character that a text may hold. -/
def isAllowed (c : Char) : Bool :=
  let code := c.toNat
  code == 0x9 || code == 0xA || code == 0xD || (0x20 ≤ code && code ≤ 0x7E) || code == 0x85 ||
    (0xA0 ≤ code && code ≤ 0xD7FF) || (0xE000 ≤ code && code ≤ 0xFFFD) || 0x10000 ≤ code

/-- A line break that stands for itself where lines are kept. -/
def isSeparator (c : Char) : Bool :=
  c == '\u2028' || c == '\u2029'

/-- A line break of a text. -/
def isRawBreak (c : Char) : Bool :=
  c == '\n' || c == '\r' || c == '\u0085' || isSeparator c

/-- The cells of a text that starts at a mark. -/
def cellsFrom : Mark → List Char → List Cell
  | mark, [] => [⟨'\x00', mark⟩]
  | mark, '\r' :: '\n' :: rest => ⟨'\n', mark⟩ :: cellsFrom ⟨mark.line + 1, 0, mark.index + 2⟩ rest
  | mark, c :: rest =>
    if isRawBreak c then
      ⟨if isSeparator c then c else '\n', mark⟩ :: cellsFrom ⟨mark.line + 1, 0, mark.index + 1⟩ rest
    else ⟨c, mark⟩ :: cellsFrom ⟨mark.line, mark.column + 1, mark.index + 1⟩ rest

/-- The cells of a text. A byte order mark is one of them, and takes a column. -/
def cells (text : List Char) : List Cell :=
  cellsFrom ⟨0, 0, 0⟩ text

/-- The character some cells ahead. -/
def charAt (text : List Cell) (ahead : Nat) : Char :=
  (text[ahead]?).elim '\x00' Cell.char

/-- The mark at which a row of cells starts. -/
def markOf (text : List Cell) : Mark :=
  text.head?.elim ⟨0, 0, 0⟩ Cell.mark

/-- A line break, as cells hold it. -/
def isBreak (c : Char) : Bool :=
  c == '\n' || isSeparator c

/-- A blank within a line. -/
def isBlank (c : Char) : Bool :=
  c == ' ' || c == '\t'

/-- A line break or the end of the text. -/
def isBreakOrEnd (c : Char) : Bool :=
  isBreak c || c == '\x00'

/-- A blank, a line break or the end of the text. -/
def isGapOrEnd (c : Char) : Bool :=
  isBlank c || isBreakOrEnd c

/-- A letter of a name. -/
def isNameChar (c : Char) : Bool :=
  ('a' ≤ c && c ≤ 'z') || ('A' ≤ c && c ≤ 'Z') || ('0' ≤ c && c ≤ '9') || c == '_' || c == '-'

/-- Whether a line that says `---` or `...` starts here. -/
def atDocumentMark (text : List Cell) : Bool :=
  let c := charAt text 0
  (markOf text).column == 0 && (c == '-' || c == '.') && charAt text 1 == c && charAt text 2 == c &&
    isGapOrEnd (charAt text 3)

/-- The characters at the start of a text that pass a test, and what follows them. -/
def splitWhile (test : Char → Bool) (text : List Cell) : List Char × List Cell :=
  ((text.takeWhile (test ·.char)).map Cell.char, text.dropWhile (test ·.char))

/-- A text without the blanks at its start. -/
def skipBlanks (text : List Cell) : List Cell :=
  text.dropWhile (isBlank ·.char)

/-- What follows the rest of a line on which nothing but blanks and a comment is left. -/
def lineEnd? (text : List Cell) : Option (List Cell) :=
  let rest := skipBlanks text
  let rest := if charAt rest 0 = '#' then rest.dropWhile (!isBreakOrEnd ·.char) else rest
  if isBreak (charAt rest 0) then some (rest.drop 1)
  else if charAt rest 0 = '\x00' then some rest
  else none

end ExerciseAudit.Yaml
