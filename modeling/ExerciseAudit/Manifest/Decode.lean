import ExerciseAudit.Json.Reader
import ExerciseAudit.Manifest.Basic

/-!
# Manifests as JSON

A manifest is a record with the members `docs`, `references` and `outputs`, all optional; a record may also
be written as a list of its members' values in that order. Members of other names are skipped. An entry of
`docs` is read whole before its shape is looked at, so a fault inside it counts more than a wrong shape.
-/

namespace ExerciseAudit

open Json (Cause Fault Outcome Value)

/-- A member of a record, read once: the record is given up when it is met again. -/
def readOnce {α : Type} (field : String) (before : Option α) (read : List Char → Outcome α)
    (rest : List Char) : Outcome α :=
  if before.isSome then .error (.before (.repeatedField field) (Json.objectGivenUpAt rest))
  else match Json.readColon rest with
    | .error fault => .error fault
    | .ok rest => read rest

/-- A member that nobody asks for. -/
def skipMember (rest : List Char) : Except Fault (List Char) :=
  match Json.readColon rest with
  | .error fault => .error fault
  | .ok rest => Json.skipValue rest

/-- An item of a list that may be shorter: the item, or nothing at the end of the list. -/
def readItemOrEnd {α : Type} (first : Bool) (read : List Char → Outcome α) (text : List Char) :
    Outcome (Option α) :=
  match Json.nextItem first text with
  | .error fault => .error fault
  | .ok (.close _) => .ok (none, text)
  | .ok (.item rest) => (read rest).map fun (value, rest) => (some value, rest)

/-- A list of strings. -/
def readTexts (text : List Char) : Outcome (List String) :=
  Json.readArray Json.readText text

/-- The strings in a list of strings. -/
def textsOf? : Value → Option (List String)
  | .array items => items.mapM fun
    | .string text => some text
    | _ => none
  | _ => none

/-- The values of the members of a name. -/
def membersOf (name : String) (members : List (String × Value)) : List Value :=
  (members.filter (·.1 = name)).map (·.2)

namespace DocSpec

/-- The document that a record declares: a path, once, and at most one list of required sections. -/
def ofMembers? (members : List (String × Value)) : Option DocSpec :=
  match membersOf "path" members, membersOf "requiredSections" members with
  | [.string path], [] => some ⟨path, []⟩
  | [.string path], [sections] => (textsOf? sections).map (⟨path, ·⟩)
  | _, _ => none

/-- The document that a record or a list of its members' values declares. -/
def ofValue? : Value → Option DocSpec
  | .object members => ofMembers? members
  | .array [.string path] => some ⟨path, []⟩
  | .array [.string path, sections] => (textsOf? sections).map (⟨path, ·⟩)
  | _ => none

end DocSpec

namespace DocRef

/-- The entry that a value writes. -/
def ofValue? : Value → Option DocRef
  | .string bare => some (.path bare)
  | value => (DocSpec.ofValue? value).map .record

/-- How deep brackets may nest in an entry, which itself stands inside two. -/
def maxDepth : Nat := Json.maxDepth - 2

/-- An entry of `docs`. The list is given up for an entry of no known shape. -/
def read (text : List Char) : Outcome DocRef :=
  match Json.readValue maxDepth text with
  | .error fault => .error fault
  | .ok (value, rest) =>
    match ofValue? value with
    | some entry => .ok (entry, rest)
    | none => .error (.before (.noShape "untagged enum DocRef") (Json.listGivenUpAt rest))

end DocRef

namespace OutputSpec

/-- The members of an output's record that have been read so far. -/
structure Draft where
  fixture : Option (Option String)
  requiredSections : Option (List String)

/-- The output that the members declare. -/
def Draft.finish (members : Draft) : OutputSpec :=
  ⟨members.fixture.getD none, members.requiredSections.getD []⟩

/-- A member of an output's record. -/
def readMember (members : Draft) (name : String) (rest : List Char) : Outcome Draft :=
  if name = "fixture" then
    (readOnce name members.fixture Json.readTextOrNull rest).map fun (fixture, rest) =>
      (⟨some fixture, members.requiredSections⟩, rest)
  else if name = "requiredSections" then
    (readOnce name members.requiredSections readTexts rest).map fun (sections, rest) =>
      (⟨members.fixture, some sections⟩, rest)
  else (skipMember rest).map fun rest => (members, rest)

/-- The values of an output's members in a list whose opening bracket has been read. -/
def readPositional (text : List Char) : Except Fault (OutputSpec × List Char) := do
  let (fixture, rest) ← readItemOrEnd true Json.readTextOrNull text
  let (sections, rest) ←
    if fixture.isNone then pure (none, rest) else readItemOrEnd false readTexts rest
  let rest ← Json.closeList rest
  pure (⟨fixture.getD none, sections.getD []⟩, rest)

/-- An entry of `outputs`. -/
def read (text : List Char) : Outcome OutputSpec :=
  match Json.skipSpace text with
  | '[' :: rest => readPositional rest
  | '\x7b' :: rest =>
    (Json.readObject readMember ⟨none, none⟩ rest).map fun (members, rest) => (members.finish, rest)
  | rest => .error (Json.unwanted "struct OutputSpec" rest)

end OutputSpec

namespace Manifest

/-- The members of a manifest that have been read so far. -/
structure Draft where
  docs : Option (List DocRef)
  references : Option (List String)
  outputs : Option (List OutputSpec)

/-- The manifest that the members declare. -/
def Draft.finish (members : Draft) : Manifest :=
  ⟨members.docs.getD [], members.references.getD [], members.outputs.getD []⟩

/-- A member of a manifest. -/
def readMember (members : Draft) (name : String) (rest : List Char) : Outcome Draft :=
  if name = "docs" then
    (readOnce name members.docs (Json.readArray DocRef.read) rest).map fun (docs, rest) =>
      (⟨some docs, members.references, members.outputs⟩, rest)
  else if name = "references" then
    (readOnce name members.references readTexts rest).map fun (references, rest) =>
      (⟨members.docs, some references, members.outputs⟩, rest)
  else if name = "outputs" then
    (readOnce name members.outputs (Json.readArray OutputSpec.read) rest).map fun (outputs, rest) =>
      (⟨members.docs, members.references, some outputs⟩, rest)
  else (skipMember rest).map fun rest => (members, rest)

/-- The values of a manifest's members in a list whose opening bracket has been read. -/
def readPositional (text : List Char) : Except Fault (Manifest × List Char) := do
  let (docs, rest) ← readItemOrEnd true (Json.readArray DocRef.read) text
  let (references, rest) ←
    if docs.isNone then pure (none, rest) else readItemOrEnd false readTexts rest
  let (outputs, rest) ←
    if references.isNone then pure (none, rest)
    else readItemOrEnd false (Json.readArray OutputSpec.read) rest
  let rest ← Json.closeList rest
  pure (⟨docs.getD [], references.getD [], outputs.getD []⟩, rest)

/-- A manifest at the start of a text. -/
def read (text : List Char) : Outcome Manifest :=
  match Json.skipSpace text with
  | '[' :: rest => readPositional rest
  | '\x7b' :: rest =>
    (Json.readObject readMember ⟨none, none, none⟩ rest).map fun (members, rest) =>
      (members.finish, rest)
  | rest => .error (Json.unwanted "struct Manifest" rest)

/-- The manifest that a whole text spells. -/
def decode (text : List Char) : Except Fault Manifest := do
  let (manifest, rest) ← read text
  Json.readEnd rest
  pure manifest

/-- Why and where a text is not a manifest. -/
structure Refusal where
  reason : String
  line : Nat
  column : Nat
  deriving DecidableEq, Repr

/-- A refusal with its place, in one line. -/
def Refusal.message (refusal : Refusal) : String :=
  refusal.reason ++ " at line " ++ refusal.line.repr ++ " column " ++ refusal.column.repr

/-- The manifest that a text spells, or why it spells none. -/
def ofText (text : String) : Except Refusal Manifest :=
  match decode text.toList with
  | .ok manifest => .ok manifest
  | .error fault =>
    let position := fault.position text.toList
    .error ⟨fault.cause.message, position.line, position.column⟩

end Manifest

end ExerciseAudit
