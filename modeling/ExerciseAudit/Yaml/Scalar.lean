import ExerciseAudit.Json.Token
import ExerciseAudit.Yaml.Cell

/-!
# Scalars of YAML

The texts of plain, quoted and block scalars. Within plain and quoted scalars a line break is folded into a
blank, and empty lines into line breaks; in block scalars that depends on how the scalar begins.
-/

namespace ExerciseAudit.Yaml

/-- What separates two words: blanks, and the line breaks if there are any. -/
structure Gap where
  blanks : List Char
  breaks : List Char
  broken : Bool
  deriving DecidableEq, Repr

/-- No gap at all. -/
def Gap.none : Gap := ⟨[], [], false⟩

/-- How line breaks show in a folded text: the first, if it is a line feed, as a blank or, before others,
not at all. -/
def foldBreaks : List Char → List Char
  | ['\n'] => [' ']
  | '\n' :: rest => rest
  | breaks => breaks

/-- How a gap shows in a text. -/
def Gap.text (gap : Gap) : List Char :=
  if gap.broken then foldBreaks gap.breaks else gap.blanks

/-- The gap at the start of a text, after a line break if `broken`. A tab may not stand for indentation in
the columns before `indent`. -/
def readGap (indent : Int) : (broken : Bool) → List Cell → Option (Gap × List Cell)
  | broken, [] => some (⟨[], [], broken⟩, [])
  | broken, cell :: rest =>
    if isBlank cell.char then
      if broken ∧ cell.char = '\t' ∧ (cell.mark.column : Int) < indent then .none
      else do
        let (gap, rest) ← readGap indent broken rest
        pure (if broken then gap else { gap with blanks := cell.char :: gap.blanks }, rest)
    else if isBreak cell.char then do
      let (gap, rest) ← readGap indent true rest
      pure ({ gap with breaks := cell.char :: gap.breaks }, rest)
    else some (⟨[], [], broken⟩, cell :: rest)

/-- A character with a meaning of its own between brackets and braces. -/
def isFlowMark (c : Char) : Bool :=
  c == ',' || c == '[' || c == ']' || c == '\x7b' || c == '\x7d'

/-- The word of a plain scalar at the start of a text. -/
def plainWord (flow : Bool) : List Cell → Option (List Char × List Cell)
  | [] => some ([], [])
  | cell :: rest =>
    let next := charAt rest 0
    if isGapOrEnd cell.char then some ([], cell :: rest)
    else if flow ∧ cell.char = ':' ∧ (next = '?' ∨ isFlowMark next) then none
    else if (cell.char = ':' ∧ isGapOrEnd next) ∨ (flow ∧ isFlowMark cell.char) then
      some ([], cell :: rest)
    else do
      let (word, rest) ← plainWord flow rest
      pure (cell.char :: word, rest)

/-- A plain scalar after a gap: its text, whether a line break comes right behind it, and what follows. The
first argument bounds the number of its words. -/
def plainText (flow : Bool) (indent : Int) : Nat → Gap → List Cell → Option (List Char × Bool × List Cell)
  | 0, _, _ => none
  | bound + 1, gap, text =>
    if atDocumentMark text ∨ charAt text 0 = '#' then some ([], gap.broken, text)
    else do
      let (word, rest) ← plainWord flow text
      if word.isEmpty then pure ([], gap.broken, rest)
      else if isBlank (charAt rest 0) ∨ isBreak (charAt rest 0) then
        let (next, rest) ← readGap indent false rest
        if flow = false ∧ ((markOf rest).column : Int) < indent then
          pure (gap.text ++ word, next.broken, rest)
        else
          let (more, broken, rest) ← plainText flow indent bound next rest
          pure (gap.text ++ word ++ more, broken, rest)
      else pure (gap.text ++ word, false, rest)

/-- What a letter behind a backslash stands for. -/
def escaped? (c : Char) : Option Char :=
  match c with
  | '0' => some '\x00'
  | 'a' => some '\x07'
  | 'b' => some '\x08'
  | 't' => some '\t'
  | '\t' => some '\t'
  | 'n' => some '\n'
  | 'v' => some '\x0b'
  | 'f' => some '\x0c'
  | 'r' => some '\r'
  | 'e' => some '\x1b'
  | ' ' => some ' '
  | '"' => some '"'
  | '/' => some '/'
  | '\\' => some '\\'
  | 'N' => some '\u0085'
  | '_' => some '\u00a0'
  | 'L' => some '\u2028'
  | 'P' => some '\u2029'
  | _ => none

/-- The character that hexadecimal digits name. -/
def codeChar? (digits : List Cell) : Option Char := do
  let values ← digits.mapM fun cell => Json.hexValue? cell.char
  let code := values.foldl (fun code digit => code * 16 + digit) 0
  if h : code.isValidChar then some (Char.ofNatAux code h) else none

/-- What stops a run of characters between quotes. -/
inductive RunEnd where
  /-- A gap, the closing quote or the end of the text. -/
  | here
  /-- A backslash before a line break, which has been passed. -/
  | escapedBreak
  deriving DecidableEq, Repr

/-- Put a character in front of a run. -/
def consRun (c : Char) (run : Option (List Char × RunEnd × List Cell)) :
    Option (List Char × RunEnd × List Cell) :=
  run.map fun (text, stop, rest) => (c :: text, stop, rest)

/-- The characters between single quotes up to the next gap or quote. -/
def singleRun : List Cell → Option (List Char × RunEnd × List Cell)
  | [] => some ([], .here, [])
  | cell :: rest =>
    if isGapOrEnd cell.char then some ([], .here, cell :: rest)
    else if cell.char = '\'' then
      match rest with
      | [] => some ([], .here, [cell])
      | next :: rest =>
        if next.char = '\'' then consRun '\'' (singleRun rest) else some ([], .here, cell :: next :: rest)
    else consRun cell.char (singleRun rest)

/-- The characters between double quotes up to the next gap or quote. -/
def doubleRun : List Cell → Option (List Char × RunEnd × List Cell)
  | [] => some ([], .here, [])
  | cell :: rest =>
    if isGapOrEnd cell.char ∨ cell.char = '"' then some ([], .here, cell :: rest)
    else if cell.char = '\\' then
      match rest with
      | [] => none
      | letter :: rest =>
        if isBreak letter.char then some ([], .escapedBreak, rest)
        else if letter.char = 'x' then
          match rest with
          | a :: b :: rest => (codeChar? [a, b]).bind fun c => consRun c (doubleRun rest)
          | _ => none
        else if letter.char = 'u' then
          match rest with
          | a :: b :: c :: d :: rest => (codeChar? [a, b, c, d]).bind fun c => consRun c (doubleRun rest)
          | _ => none
        else if letter.char = 'U' then
          match rest with
          | a :: b :: c :: d :: e :: f :: g :: h :: rest =>
            (codeChar? [a, b, c, d, e, f, g, h]).bind fun c => consRun c (doubleRun rest)
          | _ => none
        else (escaped? letter.char).bind fun c => consRun c (doubleRun rest)
    else consRun cell.char (doubleRun rest)

/-- The text of a quoted scalar behind its opening quote, and what follows its closing quote. The first
argument bounds the number of its words. -/
def quotedText (quote : Char) : Nat → List Cell → Option (List Char × List Cell)
  | 0, _ => none
  | bound + 1, text =>
    if atDocumentMark text ∨ charAt text 0 = '\x00' then none
    else do
      let (run, stop, rest) ← if quote = '"' then doubleRun text else singleRun text
      if stop = .here ∧ charAt rest 0 = quote then pure (run, rest.drop 1)
      else
        let (gap, rest) ← readGap 0 (stop == .escapedBreak) rest
        let between := if stop = .escapedBreak then gap.breaks else gap.text
        let (more, rest) ← quotedText quote bound rest
        pure (run ++ between ++ more, rest)

/-- What becomes of the line breaks at the end of a block scalar. -/
inductive Chomping where
  /-- All are dropped. -/
  | strip
  /-- One is kept. -/
  | clip
  /-- All are kept. -/
  | keep
  deriving DecidableEq, Repr

/-- What a sign says about the line breaks at the end. -/
def chomping? (c : Char) : Option Chomping :=
  if c = '+' then some .keep else if c = '-' then some .strip else none

/-- The digit of an indentation, if one stands here; it may not be zero. -/
def indentDigit? (text : List Cell) : Option (Nat × List Cell) :=
  let c := charAt text 0
  if Json.isDigit c then if c = '0' then none else some (Json.digitValue c, text.drop 1)
  else some (0, text)

/-- The sign and the indentation behind the mark of a block scalar, in either order. -/
def blockHeader? (text : List Cell) : Option (Chomping × Nat × List Cell) :=
  match chomping? (charAt text 0) with
  | some chomping => (indentDigit? (text.drop 1)).map fun (indent, rest) => (chomping, indent, rest)
  | none => do
    let (indent, rest) ← indentDigit? text
    match indent, chomping? (charAt rest 0) with
    | 0, _ => pure (.clip, 0, rest)
    | indent, some chomping => pure (chomping, indent, rest.drop 1)
    | indent, none => pure (.clip, indent, rest)

/-- The empty lines at the start of a text: their breaks, the greatest column reached, and what follows the
indentation of the next line. A tab may not stand for indentation. -/
def blockBreaks (indent : Nat) : (reached : Nat) → List Cell → Option (List Char × Nat × List Cell)
  | reached, [] => some ([], reached, [])
  | reached, cell :: rest =>
    let within := indent = 0 ∨ cell.mark.column < indent
    if within ∧ cell.char = ' ' then blockBreaks indent reached rest
    else if within ∧ cell.char = '\t' then none
    else if isBreak cell.char then do
      let (breaks, reached, rest) ← blockBreaks indent (max reached cell.mark.column) rest
      pure (cell.char :: breaks, reached, rest)
    else some ([], max reached cell.mark.column, cell :: rest)

/-- The lines of a block scalar from the first that is not empty on: the text, and what follows. `lead` is
the break that ended the line before and `breaks` are those of the empty lines since then; `afterBlank` says
that the line before began with a blank. -/
def blockLines (literal : Bool) (chomping : Chomping) (indent : Nat) :
    Nat → (lead breaks : List Char) → (afterBlank : Bool) → List Cell → Option (List Char × List Cell)
  | 0, _, _, _, _ => none
  | bound + 1, lead, breaks, afterBlank, text =>
    if (markOf text).column = indent ∧ charAt text 0 ≠ '\x00' then do
      let blank := isBlank (charAt text 0)
      let joint :=
        if literal = false ∧ lead = ['\n'] ∧ afterBlank = false ∧ blank = false then
          if breaks.isEmpty then [' '] else []
        else lead
      let (line, rest) := splitWhile (!isBreakOrEnd ·) text
      let (lead, rest) :=
        if isBreak (charAt rest 0) then ([charAt rest 0], rest.drop 1) else ([], rest)
      let (next, _, rest) ← blockBreaks indent 0 rest
      let (more, rest) ← blockLines literal chomping indent bound lead next blank rest
      pure (joint ++ breaks ++ line ++ more, rest)
    else
      let tail := match chomping with
        | .strip => []
        | .clip => lead
        | .keep => lead ++ breaks
      some (tail, text)

/-- The text of a block scalar behind its mark, in a block of some indentation, and what follows. -/
def blockText (literal : Bool) (parent : Int) (text : List Cell) : Option (List Char × List Cell) := do
  let (chomping, increment, rest) ← blockHeader? text
  let rest ← lineEnd? rest
  let given : Nat := if increment = 0 then 0 else ((max parent 0) + increment).toNat
  let (breaks, reached, rest) ← blockBreaks given 0 rest
  let indent := if given = 0 then max (max reached (parent + 1).toNat) 1 else given
  blockLines literal chomping indent (rest.length + 1) [] breaks false rest

end ExerciseAudit.Yaml
