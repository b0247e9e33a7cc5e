import ExerciseAudit.Text.Utf8
import ExerciseAudit.Toml.Scalar

/-!
# TOML documents

A document is a row of lines, each of which sets a key, opens a table, or adds a table to an array of
tables. `parse` gives the table that they make up, or nothing if a line is not of the grammar or says again
what has been said. Tables written between braces and plain arrays are complete; tables that a dotted key
made grow by dotted keys only from where they were made.
-/

namespace ExerciseAudit.Toml

/-- How deep arrays and tables between braces may nest. -/
def maxDepth : Nat := 80

/-- Rebuild the table to which some keys lead, with tables made where they are missing. Arrays of tables
are entered at their last table. -/
def descend (viaDots : Bool) (change : TableKind → List Member → Option (List Member)) :
    List Key → TableKind → List Member → Option (List Member)
  | [], kind, members => change kind members
  | key :: path, _, members =>
    match member? key.text members with
    | none => do
      let kind := if viaDots then .dotted else .implied
      let inner ← descend viaDots change path kind []
      pure (members ++ [(key, key.span, .table kind inner)])
    | some (_, span, .table kind inner) =>
      if kind = .inline ∨ (viaDots ∧ kind = .headed) then none
      else do
        let inner ← descend viaDots change path kind inner
        pure (replaceMember key.text span (.table kind inner) members)
    | some (_, span, .array true items) =>
      match items.getLast? with
      | some (lastSpan, .table kind inner) => do
        let inner ← descend viaDots change path kind inner
        pure (replaceMember key.text span
          (.array true (items.dropLast ++ [(lastSpan, .table kind inner)])) members)
      | _ => none
    | some _ => none

/-- Set a dotted key in a table. -/
def setKey (path : List Key) (span : Span) (value : Value) (kind : TableKind)
    (members : List Member) : Option (List Member) :=
  match path.getLast? with
  | none => none
  | some key =>
    descend true
      (fun kind members =>
        if (path.length ≠ 1 ∧ kind ≠ .dotted) ∨ (member? key.text members).isSome then none
        else some (members ++ [(key, span, value)]))
      path.dropLast kind members

/-- Open the table of a header. -/
def openTable (path : List Key) (span : Span) (members : List Member) : Option (List Member) :=
  match path.getLast? with
  | none => none
  | some key =>
    descend false
      (fun _ members =>
        match member? key.text members with
        | none => some (members ++ [(key, span, .table .headed [])])
        | some (_, _, .table .implied inner) =>
          some (replaceMember key.text span (.table .headed inner) members)
        | some _ => none)
      path.dropLast .headed members

/-- Add a table to the array of a doubly bracketed header. -/
def addTable (path : List Key) (span : Span) (members : List Member) : Option (List Member) :=
  match path.getLast? with
  | none => none
  | some key =>
    descend false
      (fun _ members =>
        match member? key.text members with
        | none => some (members ++ [(key, span, .array true [(span, .table .headed [])])])
        | some (_, old, .array true items) =>
          some (replaceMember key.text old (.array true (items ++ [(span, .table .headed [])])) members)
        | some _ => none)
      path.dropLast .headed members

/-- The stretch between two rests of a text. -/
def spanOf (start stop : List Char) : Span :=
  ⟨Utf8.size start, Utf8.size stop⟩

/-- A character of a key without quotes. -/
def isBareKeyChar (c : Char) : Bool :=
  ('a' ≤ c && c ≤ 'z') || ('A' ≤ c && c ≤ 'Z') || Json.isDigit c || c == '_' || c == '-'

/-- One part of a key. -/
def simpleKey? (text : List Char) : Option (Key × List Char) := do
  let (name, rest) ← match text with
    | '"' :: rest => basicString rest
    | '\'' :: rest => literalString rest
    | text =>
      if (text.takeWhile isBareKeyChar).isEmpty then none
      else some (text.takeWhile isBareKeyChar, text.dropWhile isBareKeyChar)
  pure (⟨String.ofList name, spanOf text rest⟩, rest)

/-- A key of one or more parts, and the blanks after it. The first argument bounds their number. -/
def dottedKey? : Nat → List Char → Option (List Key × List Char)
  | 0, _ => none
  | bound + 1, text => do
    let (key, rest) ← simpleKey? (skipBlanks text)
    match skipBlanks rest with
    | '.' :: rest =>
      let (keys, rest) ← dottedKey? bound rest
      pure (key :: keys, rest)
    | rest => pure ([key], rest)

/-- A reader of values: the value and where it is written, and what follows it. -/
abbrev ValueReader := List Char → Option ((Span × Value) × List Char)

/-- A key with its value. -/
def assignment? (value : ValueReader) (text : List Char) :
    Option ((List Key × Span × Value) × List Char) := do
  let (path, rest) ← dottedKey? (text.length + 1) text
  match rest with
  | '=' :: rest =>
    let (value, rest) ← value (skipBlanks rest)
    pure ((path, value), rest)
  | _ => none

/-- The items of an array behind its opening bracket, of which the first argument bounds the number. -/
def arrayItems? (value : ValueReader) : Nat → List Char → Option (List (Span × Value) × List Char)
  | 0, _ => none
  | bound + 1, text =>
    match skipLines text with
    | ']' :: rest => some ([], rest)
    | text => do
      let (item, rest) ← value text
      match skipLines rest with
      | ']' :: rest => pure ([item], rest)
      | ',' :: rest =>
        let (items, rest) ← arrayItems? value bound rest
        pure (item :: items, rest)
      | _ => none

/-- The members of a table behind its opening brace, added to those before, of which the first argument
bounds the number. -/
def inlineMembers? (value : ValueReader) :
    Nat → List Member → List Char → Option (List Member × List Char)
  | 0, _, _ => none
  | bound + 1, members, text =>
    match skipLines text with
    | '\x7d' :: rest => some (members, rest)
    | text => do
      let ((path, span, item), rest) ← assignment? value text
      let members ← setKey path span item .inline members
      match skipLines rest with
      | '\x7d' :: rest => pure (members, rest)
      | ',' :: rest => inlineMembers? value bound members rest
      | _ => none

/-- A value in which arrays and tables nest at most `depth` deep. -/
def value? : (depth : Nat) → ValueReader
  | depth, text =>
    let located (value : Value) (rest : List Char) : (Span × Value) × List Char :=
      ((spanOf text rest, value), rest)
    match anyString? text with
    | some piece => piece.map fun (string, rest) => located (.string (String.ofList string)) rest
    | none =>
      match text, depth with
      | '[' :: rest, depth + 1 => do
        let (items, rest) ← arrayItems? (value? depth) (rest.length + 1) rest
        pure (located (.array false items) rest)
      | '\x7b' :: rest, depth + 1 => do
        let (members, rest) ← inlineMembers? (value? depth) (rest.length + 1) [] rest
        pure (located (.table .inline members) rest)
      | text, _ =>
        let (word, rest) := splitWord text
        (wordValue? word).map fun value => located value rest

/-- A document part way through: the whole table, and the header below which keys are set. -/
structure Draft where
  members : List Member
  header : List Key

/-- Add a line to a document, and go on behind it. -/
def line? (draft : Draft) (text : List Char) : Option (Draft × List Char) :=
  match skipBlanks text with
  | '[' :: '[' :: inner => do
    let (path, rest) ← dottedKey? (inner.length + 1) inner
    match rest with
    | ']' :: ']' :: rest =>
      let members ← addTable path (spanOf (skipBlanks text) rest) draft.members
      pure (⟨members, path⟩, ← lineEnd? rest)
    | _ => none
  | '[' :: inner => do
    let (path, rest) ← dottedKey? (inner.length + 1) inner
    match rest with
    | ']' :: rest =>
      let members ← openTable path (spanOf (skipBlanks text) rest) draft.members
      pure (⟨members, path⟩, ← lineEnd? rest)
    | _ => none
  | start =>
    match lineEnd? start with
    | some rest => some (draft, rest)
    | none => do
      let ((path, span, item), rest) ← assignment? (value? maxDepth) start
      let members ← descend false (setKey path span item) draft.header .headed draft.members
      pure (⟨members, draft.header⟩, ← lineEnd? rest)

/-- Add all lines of a text to a document. The first argument bounds their number. -/
def lines? : Nat → Draft → List Char → Option (List Member)
  | _, draft, [] => some draft.members
  | 0, _, _ => none
  | bound + 1, draft, text => do
    let (draft, rest) ← line? draft text
    lines? bound draft rest

/-- A text without a byte order mark at its start. -/
def skipMark : List Char → List Char
  | '\uFEFF' :: rest => rest
  | rest => rest

/-- The members of the table that a text spells, if it is a document. -/
def parse? (text : List Char) : Option (List Member) :=
  lines? (text.length + 1) ⟨[], []⟩ (skipMark text)

end ExerciseAudit.Toml
