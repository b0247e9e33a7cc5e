import ExerciseAudit.Text.Utf8
import ExerciseAudit.Yaml.Scalar

/-!
# YAML tokens

Indicators, properties and scalars, and the blocks that indentation opens and closes. A key on one line has
no mark in front of it, so wherever such a key could start the place is remembered, and the tokens that
announce it are put in there once its colon is met.
-/

namespace ExerciseAudit.Yaml

/-- What a token is. -/
inductive TokenKind where
  | streamEnd
  | versionDirective (major minor : Nat)
  | tagDirective (handle lead : List Char)
  | documentStart
  | documentEnd
  | blockSequenceStart
  | blockMappingStart
  | blockEnd
  | flowSequenceStart
  | flowSequenceEnd
  | flowMappingStart
  | flowMappingEnd
  | blockEntry
  | flowEntry
  | key
  | value
  | alias (name : List Char)
  | anchor (name : List Char)
  | tag (handle suffix : List Char)
  | scalar (text : List Char) (plain : Bool)
  deriving DecidableEq, Repr

/-- A token where it starts. -/
structure Token where
  kind : TokenKind
  mark : Mark
  deriving DecidableEq, Repr

/-- A place where a key may have started. -/
structure PossibleKey where
  /-- Whether nothing but a key can start there. -/
  required : Bool
  /-- How many tokens come before it. -/
  number : Nat
  mark : Mark
  deriving DecidableEq, Repr

/-- A text part way through. -/
structure Lexer where
  rest : List Cell
  /-- The tokens found so far, the last one first. -/
  found : List Token
  /-- The column of the innermost block, or `-1`. -/
  indent : Int
  /-- The columns of the blocks around it, innermost first. -/
  outer : List Int
  /-- The place where a key of the innermost bracket may have started. -/
  possible : Option PossibleKey
  /-- The same for each bracket around it, innermost first, and for the blocks outside. -/
  suspended : List (Option PossibleKey)
  /-- Whether a key may start here. -/
  keyAllowed : Bool
  deriving Repr

namespace Lexer

/-- Whether brackets or braces are open. -/
def inFlow (lexer : Lexer) : Bool :=
  !lexer.suspended.isEmpty

/-- The mark that has been reached. -/
def mark (lexer : Lexer) : Mark :=
  markOf lexer.rest

/-- The column that has been reached. -/
def column (lexer : Lexer) : Int :=
  lexer.mark.column

/-- Add a token. -/
def push (lexer : Lexer) (kind : TokenKind) (mark : Mark) : Lexer :=
  { lexer with found := ⟨kind, mark⟩ :: lexer.found }

/-- Put a token behind the first `number` tokens. -/
def insertAt (lexer : Lexer) (number : Nat) (kind : TokenKind) (mark : Mark) : Lexer :=
  let later := lexer.found.length - number
  { lexer with found := lexer.found.take later ++ ⟨kind, mark⟩ :: lexer.found.drop later }

/-- Give up the possible key, unless it is required. -/
def dropKey? (lexer : Lexer) : Option Lexer :=
  if lexer.possible.any (·.required) then none else some { lexer with possible := none }

/-- Remember that a key may start here. -/
def saveKey? (lexer : Lexer) : Option Lexer :=
  if lexer.keyAllowed then do
    let lexer ← lexer.dropKey?
    let required := !lexer.inFlow && lexer.indent == lexer.column
    let key : PossibleKey := ⟨required, lexer.found.length, lexer.mark⟩
    pure { lexer with possible := some key }
  else some lexer

/-- How far a key may reach. -/
def maxKeyLength : Nat := 1024

/-- Whether a possible key cannot reach a place: it ends on its line and is not too long. -/
def isStale (key : PossibleKey) (reached : Mark) : Bool :=
  key.mark.line < reached.line || key.mark.index + maxKeyLength < reached.index

/-- Give up all possible keys that do not reach this place; a required one must. -/
def dropStale? (lexer : Lexer) : Option Lexer :=
  let reached := lexer.mark
  let keep (key : Option PossibleKey) : Option (Option PossibleKey) :=
    match key with
    | some key => if isStale key reached then (if key.required then none else some none) else some (some key)
    | none => some none
  do
    let possible ← keep lexer.possible
    let suspended ← lexer.suspended.mapM keep
    pure { lexer with possible, suspended }

/-- Open a block at a column, announced behind the first `number` tokens. Between brackets, indentation has
no meaning. -/
def openBlock (lexer : Lexer) (column : Int) (number : Nat) (kind : TokenKind) (mark : Mark) : Lexer :=
  if lexer.inFlow ∨ column ≤ lexer.indent then lexer
  else { lexer with outer := lexer.indent :: lexer.outer, indent := column }.insertAt number kind mark

/-- Close the blocks that are indented more than a column. -/
def closeBlocks (column : Int) (mark : Mark) : List Int → Lexer → Lexer
  | outer, lexer =>
    if lexer.indent ≤ column then lexer
    else match outer with
      | [] => { lexer with indent := -1, outer := [] }.push .blockEnd mark
      | indent :: outer =>
        closeBlocks column mark outer ({ lexer with indent, outer }.push .blockEnd mark)

/-- Close the blocks that are indented more than a column; between brackets there are none to close. -/
def unindent (lexer : Lexer) (column : Int) : Lexer :=
  if lexer.inFlow then lexer else closeBlocks column lexer.mark lexer.outer lexer

/-- A text without what may stand between tokens, and whether a line break was part of that. A tab may stand
at the start of a line only between brackets. -/
def skipBetween (flow keyAllowed : Bool) : Nat → List Cell → List Cell × Bool
  | 0, text => (text, keyAllowed)
  | bound + 1, text =>
    let text := if (markOf text).column = 0 ∧ charAt text 0 = '\uFEFF' then text.drop 1 else text
    let text := text.dropWhile fun cell =>
      cell.char == ' ' || ((flow || !keyAllowed) && cell.char == '\t')
    let text := if charAt text 0 = '#' then text.dropWhile (!isBreakOrEnd ·.char) else text
    if isBreak (charAt text 0) then skipBetween flow (keyAllowed || !flow) bound (text.drop 1)
    else (text, keyAllowed)

/-- Take an indicator of some characters. -/
def take (lexer : Lexer) (length : Nat) (kind : TokenKind) : Lexer :=
  { lexer.push kind lexer.mark with rest := lexer.rest.drop length }

/-- The end of the text, which ends all blocks. -/
def finish? (lexer : Lexer) : Option Lexer := do
  let lexer ← (lexer.unindent (-1)).dropKey?
  pure ({ lexer with keyAllowed := false }.push .streamEnd lexer.mark)

/-- `---` or `...` on a line of its own. -/
def documentMark? (lexer : Lexer) (kind : TokenKind) : Option Lexer := do
  let lexer ← (lexer.unindent (-1)).dropKey?
  pure ({ lexer with keyAllowed := false }.take 3 kind)

/-- An opening bracket or brace. -/
def openFlow? (lexer : Lexer) (kind : TokenKind) : Option Lexer := do
  let lexer ← lexer.saveKey?
  let opened :=
    { lexer with suspended := lexer.possible :: lexer.suspended, possible := none, keyAllowed := true }
  pure (opened.take 1 kind)

/-- A closing bracket or brace. -/
def closeFlow? (lexer : Lexer) (kind : TokenKind) : Option Lexer := do
  let lexer ← lexer.dropKey?
  let closed := match lexer.suspended with
    | possible :: suspended => { lexer with possible, suspended, keyAllowed := false }
    | [] => { lexer with keyAllowed := false }
  pure (closed.take 1 kind)

/-- A comma between brackets. -/
def flowEntry? (lexer : Lexer) : Option Lexer := do
  let lexer ← lexer.dropKey?
  pure ({ lexer with keyAllowed := true }.take 1 .flowEntry)

/-- A dash before an item. -/
def blockEntry? (lexer : Lexer) : Option Lexer := do
  guard (lexer.inFlow || lexer.keyAllowed)
  let opened := lexer.openBlock lexer.column lexer.found.length .blockSequenceStart lexer.mark
  let lexer ← opened.dropKey?
  pure ({ lexer with keyAllowed := true }.take 1 .blockEntry)

/-- A question mark before a key. -/
def explicitKey? (lexer : Lexer) : Option Lexer := do
  guard (lexer.inFlow || lexer.keyAllowed)
  let opened := lexer.openBlock lexer.column lexer.found.length .blockMappingStart lexer.mark
  let lexer ← opened.dropKey?
  pure ({ lexer with keyAllowed := !lexer.inFlow }.take 1 .key)

/-- A colon before a value: behind a possible key it makes that a key. -/
def value? (lexer : Lexer) : Option Lexer :=
  match lexer.possible with
  | some key =>
    let announced := (lexer.insertAt key.number .key key.mark).openBlock key.mark.column key.number
      .blockMappingStart key.mark
    some ({ announced with possible := none, keyAllowed := false }.take 1 .value)
  | none => do
    guard (lexer.inFlow || lexer.keyAllowed)
    let opened := lexer.openBlock lexer.column lexer.found.length .blockMappingStart lexer.mark
    pure ({ opened with keyAllowed := !lexer.inFlow }.take 1 .value)

/-- The name behind a mark of an anchor or alias. -/
def anchorName? (text : List Cell) : Option (List Char × List Cell) :=
  let (name, rest) := splitWhile isNameChar text
  let next := charAt rest 0
  if name ≠ [] ∧ (isGapOrEnd next ∨ next ∈ ['?', ':', ',', ']', '\x7d', '%', '@', '\x60']) then
    some (name, rest)
  else none

/-- A character of a tag's address; a comma or bracket only in one between angle brackets. -/
def isAddressChar (delimited : Bool) (c : Char) : Bool :=
  isNameChar c || c ∈ [';', '/', '?', ':', '@', '&', '=', '+', '$', '.', '!', '~', '*', '\'', '(', ')'] ||
    (delimited && (c == ',' || c == '[' || c == ']'))

/-- The bytes that a percent sign and two digits each spell, as many as one character takes, and what
follows them. -/
def escapedBytes? : (count : Nat) → List Cell → Option (List UInt8 × List Cell)
  | 0, text => some ([], text)
  | count + 1, percent :: a :: b :: rest => do
    guard (percent.char = '%')
    let a ← Json.hexValue? a.char
    let b ← Json.hexValue? b.char
    let (bytes, rest) ← escapedBytes? count rest
    pure (UInt8.ofNat (a * 16 + b) :: bytes, rest)
  | _, _ => none

/-- The character that percent signs with two digits each spell. -/
def escapedChar? (text : List Cell) : Option (Char × List Cell) := do
  let (first, _) ← escapedBytes? 1 text
  let count ← match first with
    | [byte] =>
      if byte < 0x80 then some 1
      else if byte &&& 0xE0 = 0xC0 then some 2
      else if byte &&& 0xF0 = 0xE0 then some 3
      else if byte &&& 0xF8 = 0xF0 then some 4
      else none
    | _ => none
  let (bytes, rest) ← escapedBytes? count text
  match Utf8.decode? bytes with
  | some [c] => some (c, rest)
  | _ => none

/-- The address at the start of a text. The first argument bounds its length. -/
def address? (delimited : Bool) : Nat → List Cell → Option (List Char × List Cell)
  | 0, _ => none
  | bound + 1, text =>
    let c := charAt text 0
    if c = '%' then do
      let (c, rest) ← escapedChar? text
      let (more, rest) ← address? delimited bound rest
      pure (c :: more, rest)
    else if isAddressChar delimited c then do
      let (more, rest) ← address? delimited bound (text.drop 1)
      pure (c :: more, rest)
    else some ([], text)

/-- The handle of a tag behind its exclamation mark, with that mark and the one that may end it. -/
def tagHandle (text : List Cell) : List Char × List Cell :=
  let (name, rest) := splitWhile isNameChar text
  if charAt rest 0 = '!' then ('!' :: name ++ ['!'], rest.drop 1) else ('!' :: name, rest)

/-- A tag behind its exclamation mark: its handle and its suffix, and what follows. A handle that does not
end in an exclamation mark is the start of a suffix of the handle `!`; `!` alone is a suffix. -/
def tagParts? (text : List Cell) : Option (List Char × List Char × List Cell) :=
  if charAt text 0 = '<' then do
    let (suffix, rest) ← address? true text.length (text.drop 1)
    guard (suffix ≠ [] ∧ charAt rest 0 = '>')
    pure ([], suffix, rest.drop 1)
  else do
    let (handle, rest) := tagHandle text
    let (more, rest) ← address? false (rest.length + 1) rest
    if 1 < handle.length ∧ handle.getLast? = some '!' then
      guard (more ≠ [])
      pure (handle, more, rest)
    else
      match handle.drop 1 ++ more with
      | [] => pure ([], ['!'], rest)
      | suffix => pure (['!'], suffix, rest)

/-- A tag, which a blank or, between brackets, a comma has to follow. -/
def tag? (lexer : Lexer) : Option Lexer := do
  let start := lexer.mark
  let lexer ← lexer.saveKey?
  let (handle, suffix, rest) ← tagParts? (lexer.rest.drop 1)
  guard ((lexer.inFlow && charAt rest 0 == ',') || isGapOrEnd (charAt rest 0))
  pure ({ lexer with rest, keyAllowed := false }.push (.tag handle suffix) start)

/-- An anchor or an alias. -/
def anchor? (lexer : Lexer) (kind : List Char → TokenKind) : Option Lexer := do
  let start := lexer.mark
  let lexer ← lexer.saveKey?
  let (name, rest) ← anchorName? (lexer.rest.drop 1)
  pure ({ lexer with rest, keyAllowed := false }.push (kind name) start)

/-- A number in a directive, of at most nine digits. -/
def versionNumber? (text : List Cell) : Option (Nat × List Cell) :=
  let (digits, rest) := splitWhile Json.isDigit text
  if digits ≠ [] ∧ digits.length ≤ 9 then
    some (digits.foldl (fun n c => n * 10 + Json.digitValue c) 0, rest)
  else none

/-- What a directive says, and what follows it on its line. -/
def directiveKind? (text : List Cell) : Option (TokenKind × List Cell) := do
  let (name, rest) := splitWhile isNameChar text
  guard (isGapOrEnd (charAt rest 0))
  if name = ['Y', 'A', 'M', 'L'] then
    let (major, rest) ← versionNumber? (skipBlanks rest)
    guard (charAt rest 0 = '.')
    let (minor, rest) ← versionNumber? (rest.drop 1)
    pure (.versionDirective major minor, rest)
  else if name = ['T', 'A', 'G'] then
    let rest := skipBlanks rest
    guard (charAt rest 0 = '!')
    let (handle, rest) := tagHandle (rest.drop 1)
    guard (handle.getLast? = some '!' ∧ isBlank (charAt rest 0))
    let rest := skipBlanks rest
    let (lead, rest) ← address? true (rest.length + 1) rest
    guard (lead ≠ [] ∧ isGapOrEnd (charAt rest 0))
    pure (.tagDirective handle lead, rest)
  else none

/-- A directive, on a line of its own. -/
def directive? (lexer : Lexer) : Option Lexer := do
  let lexer ← (lexer.unindent (-1)).dropKey?
  let (kind, rest) ← directiveKind? (lexer.rest.drop 1)
  let rest ← lineEnd? rest
  pure ({ lexer with rest, keyAllowed := false }.push kind lexer.mark)

/-- A block scalar. -/
def blockScalar? (lexer : Lexer) (literal : Bool) : Option Lexer := do
  let start := lexer.mark
  let lexer ← lexer.dropKey?
  let (text, rest) ← blockText literal lexer.indent (lexer.rest.drop 1)
  pure ({ lexer with rest, keyAllowed := true }.push (.scalar text false) start)

/-- A quoted scalar. -/
def quotedScalar? (lexer : Lexer) (quote : Char) : Option Lexer := do
  let start := lexer.mark
  let lexer ← lexer.saveKey?
  let (text, rest) ← quotedText quote (lexer.rest.length + 1) (lexer.rest.drop 1)
  pure ({ lexer with rest, keyAllowed := false }.push (.scalar text false) start)

/-- A plain scalar. A key may start behind one that a line break ends. -/
def plainScalar? (lexer : Lexer) : Option Lexer := do
  let start := lexer.mark
  let lexer ← lexer.saveKey?
  let (text, broken, rest) ←
    plainText lexer.inFlow (lexer.indent + 1) (lexer.rest.length + 1) .none lexer.rest
  pure ({ lexer with rest, keyAllowed := broken }.push (.scalar text true) start)

/-- Whether a plain scalar can start with a character before another. -/
def startsPlain (flow : Bool) (c next : Char) : Bool :=
  if c == '-' then !isBlank next
  else if c == '?' || c == ':' then !flow && !isGapOrEnd next
  else !isGapOrEnd c && !isFlowMark c &&
    c ∉ ['#', '&', '*', '!', '|', '>', '\'', '"', '%', '@', '\x60']

/-- Go to the next token and take it. -/
def step? (lexer : Lexer) : Option Lexer := do
  let (rest, keyAllowed) :=
    skipBetween lexer.inFlow lexer.keyAllowed (lexer.rest.length + 1) lexer.rest
  let lexer ← { lexer with rest, keyAllowed }.dropStale?
  let lexer : Lexer := lexer.unindent lexer.column
  let c := charAt lexer.rest 0
  let next := charAt lexer.rest 1
  let indicates := lexer.inFlow || isGapOrEnd next
  if c = '\x00' then lexer.finish?
  else if lexer.column = 0 ∧ c = '%' then lexer.directive?
  else if atDocumentMark lexer.rest then
    lexer.documentMark? (if c = '-' then .documentStart else .documentEnd)
  else if c = '[' then lexer.openFlow? .flowSequenceStart
  else if c = '\x7b' then lexer.openFlow? .flowMappingStart
  else if c = ']' then lexer.closeFlow? .flowSequenceEnd
  else if c = '\x7d' then lexer.closeFlow? .flowMappingEnd
  else if c = ',' then lexer.flowEntry?
  else if c = '-' ∧ isGapOrEnd next then lexer.blockEntry?
  else if c = '?' ∧ indicates then lexer.explicitKey?
  else if c = ':' ∧ indicates then lexer.value?
  else if c = '*' then lexer.anchor? .alias
  else if c = '&' then lexer.anchor? .anchor
  else if c = '!' then lexer.tag?
  else if c = '|' ∧ lexer.inFlow = false then lexer.blockScalar? true
  else if c = '>' ∧ lexer.inFlow = false then lexer.blockScalar? false
  else if c = '\'' ∨ c = '"' then lexer.quotedScalar? c
  else if startsPlain lexer.inFlow c next then lexer.plainScalar?
  else none

/-- Take all tokens. The first argument bounds their number. -/
def run? : Nat → Lexer → Option (List Token)
  | 0, _ => none
  | bound + 1, lexer =>
    match lexer.step? with
    | none => none
    | some next =>
      match next.found with
      | ⟨.streamEnd, _⟩ :: _ => some next.found.reverse
      | _ => run? bound next

end Lexer

/-- The tokens of a text. -/
def Token.ofText? (text : List Char) : Option (List Token) :=
  if text.all isAllowed then
    Lexer.run? (text.length + 2) ⟨cells text, [], -1, [], none, [], true⟩
  else none

end ExerciseAudit.Yaml
