import ExerciseAudit.Json.Token

/-!
# Text in TOML

Blanks, line ends and comments, and the four forms of strings. Every reader takes the rest of a text and
gives what follows, or nothing if the text is not of the form. Control characters other than the tab, and
carriage returns that do not end a line, are allowed nowhere.
-/

namespace ExerciseAudit.Toml

/-- A character that may stand between the parts of a line. -/
def isBlank (c : Char) : Bool :=
  c == ' ' || c == '\t'

/-- A text without the blanks at its start. -/
def skipBlanks (text : List Char) : List Char :=
  text.dropWhile isBlank

/-- A character that may stand in a comment or string as it is. -/
def isPlain (c : Char) : Bool :=
  c == '\t' || (0x20 ≤ c.toNat && c.toNat != 0x7F)

/-- What follows a line end. -/
def newline? : List Char → Option (List Char)
  | '\n' :: rest => some rest
  | '\r' :: '\n' :: rest => some rest
  | _ => none

/-- A text without the comment at its start. -/
def skipComment : List Char → List Char
  | '#' :: rest => rest.dropWhile isPlain
  | rest => rest

/-- What follows the end of a line on which nothing but blanks and a comment is left. -/
def lineEnd? (text : List Char) : Option (List Char) :=
  match skipComment (skipBlanks text) with
  | [] => some []
  | rest => newline? rest

/-- A text without the blanks, comments and line ends at its start. The first argument bounds their
number. -/
def skipFiller : Nat → List Char → List Char
  | 0, text => text
  | bound + 1, text =>
    match newline? (skipComment (skipBlanks text)) with
    | some rest => skipFiller bound rest
    | none => skipComment (skipBlanks text)

/-- A text without the blanks, comments and line ends at its start. -/
def skipLines (text : List Char) : List Char :=
  skipFiller text.length text

/-- The character that hexadecimal digits name, unless it is half of a surrogate pair or out of range. -/
def scalar? (digits : List Char) : Option Char := do
  let values ← digits.mapM Json.hexValue?
  let code := values.foldl (fun code digit => code * 16 + digit) 0
  if h : code.isValidChar then some (Char.ofNatAux code h) else none

/-- What a letter behind a backslash stands for. -/
def escaped? (c : Char) : Option Char :=
  if c = '"' ∨ c = '\\' then some c
  else if c = 'b' then some '\x08'
  else if c = 't' then some '\t'
  else if c = 'n' then some '\n'
  else if c = 'f' then some '\x0c'
  else if c = 'r' then some '\r'
  else if c = 'e' then some '\x1b'
  else none

/-- A text that was read, with what follows it. -/
abbrev Piece := Option (List Char × List Char)

/-- Put characters in front of what was read. -/
def Piece.push (front : List Char) (piece : Piece) : Piece :=
  piece.map fun (text, rest) => (front ++ text, rest)

/-- A string on one line, whose opening quote has been read. -/
def basicString : List Char → Piece
  | [] => none
  | '"' :: rest => some ([], rest)
  | '\\' :: 'x' :: a :: b :: rest => do
    let c ← scalar? [a, b]
    Piece.push [c] (basicString rest)
  | '\\' :: 'u' :: a :: b :: c :: d :: rest => do
    let c ← scalar? [a, b, c, d]
    Piece.push [c] (basicString rest)
  | '\\' :: 'U' :: a :: b :: c :: d :: e :: f :: g :: h :: rest => do
    let c ← scalar? [a, b, c, d, e, f, g, h]
    Piece.push [c] (basicString rest)
  | '\\' :: letter :: rest => do
    let c ← escaped? letter
    Piece.push [c] (basicString rest)
  | c :: rest => if isPlain c ∧ c ≠ '\\' then Piece.push [c] (basicString rest) else none

/-- A string on one line in which nothing is escaped, whose opening quote has been read. -/
def literalString : List Char → Piece
  | [] => none
  | '\'' :: rest => some ([], rest)
  | c :: rest => if isPlain c then Piece.push [c] (literalString rest) else none

/-- A string of several lines, behind its opening quotes. A backslash at the end of a line takes away the
line end and all blanks and line ends after it, which is what `trimming` says is going on. -/
def multilineBasic : (trimming : Bool) → List Char → Piece
  | _, [] => none
  | _, '"' :: '"' :: '"' :: '"' :: '"' :: rest => some (['"', '"'], rest)
  | _, '"' :: '"' :: '"' :: '"' :: rest => some (['"'], rest)
  | _, '"' :: '"' :: '"' :: rest => some ([], rest)
  | trimming, '\r' :: '\n' :: rest =>
    if trimming then multilineBasic true rest else Piece.push ['\n'] (multilineBasic false rest)
  | trimming, '\n' :: rest =>
    if trimming then multilineBasic true rest else Piece.push ['\n'] (multilineBasic false rest)
  | _, '\\' :: 'x' :: a :: b :: rest => do
    let c ← scalar? [a, b]
    Piece.push [c] (multilineBasic false rest)
  | _, '\\' :: 'u' :: a :: b :: c :: d :: rest => do
    let c ← scalar? [a, b, c, d]
    Piece.push [c] (multilineBasic false rest)
  | _, '\\' :: 'U' :: a :: b :: c :: d :: e :: f :: g :: h :: rest => do
    let c ← scalar? [a, b, c, d, e, f, g, h]
    Piece.push [c] (multilineBasic false rest)
  | trimming, c :: rest =>
    if c = '\\' then
      if (newline? (skipBlanks rest)).isSome then multilineBasic true rest
      else match rest with
        | [] => none
        | letter :: rest => do
          let c ← escaped? letter
          Piece.push [c] (multilineBasic false rest)
    else if trimming ∧ isBlank c then multilineBasic true rest
    else if isPlain c then Piece.push [c] (multilineBasic false rest)
    else none

/-- A string of several lines in which nothing is escaped, behind its opening quotes. -/
def multilineLiteral : List Char → Piece
  | [] => none
  | '\'' :: '\'' :: '\'' :: '\'' :: '\'' :: rest => some (['\'', '\''], rest)
  | '\'' :: '\'' :: '\'' :: '\'' :: rest => some (['\''], rest)
  | '\'' :: '\'' :: '\'' :: rest => some ([], rest)
  | '\r' :: '\n' :: rest => Piece.push ['\n'] (multilineLiteral rest)
  | '\n' :: rest => Piece.push ['\n'] (multilineLiteral rest)
  | c :: rest => if isPlain c then Piece.push [c] (multilineLiteral rest) else none

/-- A text without the line end at its start, if there is one. -/
def dropNewline (text : List Char) : List Char :=
  (newline? text).getD text

/-- A string of any form, if one starts here. -/
def anyString? : List Char → Option Piece
  | '"' :: '"' :: '"' :: rest => some (multilineBasic false (dropNewline rest))
  | '"' :: rest => some (basicString rest)
  | '\'' :: '\'' :: '\'' :: rest => some (multilineLiteral (dropNewline rest))
  | '\'' :: rest => some (literalString rest)
  | _ => none

end ExerciseAudit.Toml
