import ExerciseAudit.Config.Basic
import ExerciseAudit.Text.Quoted
import ExerciseAudit.Yaml.Value

/-!
# Settings in YAML

The output mode is named by a scalar, or by a tag of the application on an empty one. A document that is
empty, or null under `output`, sets nothing. Keys of no meaning are passed over.
-/

namespace ExerciseAudit.Config

/-- Why a node does not give settings. -/
inductive YamlMismatch where
  /-- A node of one type stands where another is wanted. -/
  | wrongType (found wanted : String)
  /-- A text stands where another value is wanted. -/
  | wrongValue (text wanted : String)
  | unknownMode (name : String)
  | repeatedOutput
  deriving DecidableEq, Repr

/-- How a mismatch is reported. -/
def YamlMismatch.message : YamlMismatch → String
  | wrongType found wanted => "invalid type: " ++ found ++ ", expected " ++ wanted
  | wrongValue text wanted => "invalid value: string " ++ Text.quoted text ++ ", expected " ++ wanted
  | unknownMode name => OutputMode.unknownMessage name
  | repeatedOutput => "duplicate field \x60output\x60"

/-- A mismatch with the path to the node and the mark at which it is reported. The path is empty at the top
of the document. -/
structure YamlMisfit where
  mismatch : YamlMismatch
  path : String
  mark : Yaml.Mark
  deriving DecidableEq, Repr

/-- How a misfit is reported; the place is left out if it is the start of the text. -/
def YamlMisfit.message (misfit : YamlMisfit) : String :=
  let place :=
    if misfit.mark.line = 0 ∧ misfit.mark.column = 0 then ""
    else " at line " ++ (misfit.mark.line + 1).repr ++ " column " ++ (misfit.mark.column + 1).repr
  (if misfit.path.isEmpty then "" else misfit.path ++ ": ") ++ misfit.mismatch.message ++ place

/-- What the type of a scalar is called, with its value. -/
def scalarType (tag : Option String) (text : String) (plain : Bool) : String :=
  match Yaml.Meaning.ofScalar tag text plain with
  | .null => "unit value"
  | .bool value => "boolean \x60" ++ toString value ++ "\x60"
  | .integer value _ => "integer \x60" ++ toString value ++ "\x60"
  | .real value => "floating point \x60" ++ value.write ++ "\x60"
  | .string | .mistagged => "string " ++ Text.quoted text

/-- The node that a node stands for. -/
def followed (document : Yaml.Node) : Yaml.Node → Yaml.Node
  | .alias mark number => (document.target? number).getD (.absent mark)
  | node => node

/-- The mode of a name, or the misfit of a name that no mode has. -/
def yamlMode (path : String) (mark : Yaml.Mark) (name : String) : Except YamlMisfit OutputMode :=
  match OutputMode.ofName? name with
  | some mode => .ok mode
  | none => .error ⟨.unknownMode name, path, mark⟩

/-- Whether a scalar leaves its value out or says null. -/
def isNullText (text : String) : Bool :=
  text.isEmpty || Yaml.isNull text

/-- The mode that a tag of the application names; its node must be empty. A name that no mode has is
reported at the top. -/
def taggedMode (top : Yaml.Mark) (path name : String) (node : Yaml.Node) : Except YamlMisfit OutputMode :=
  match yamlMode "" top name, node with
  | .error misfit, _ => .error misfit
  | .ok mode, .scalar properties text plain =>
    if plain ∧ isNullText text then .ok mode
    else .error ⟨.wrongValue text "null", path, properties.mark⟩
  | .ok _, .sequence properties _ => .error ⟨.wrongType "sequence" "unit", path, properties.mark⟩
  | .ok _, .mapping properties _ => .error ⟨.wrongType "map" "unit", path, properties.mark⟩
  | .ok mode, .alias .. => .ok mode

/-- The mode that a node under `output` names, if it is not null. The node is no alias. -/
def yamlOutput (top : Yaml.Mark) (path : String) (node : Yaml.Node) : Except YamlMisfit (Option OutputMode) :=
  let withoutTag (properties : Yaml.Properties) (found : String) : Except YamlMisfit (Option OutputMode) :=
    .error ⟨.wrongType found "a YAML tag starting with '!'", path, properties.mark⟩
  match node with
  | .alias .. => .ok none
  | .scalar properties text plain =>
    if plain ∧ properties.tag = none ∧ isNullText text then .ok none
    else if plain ∧ properties.tag = some (Yaml.standardTag "null") then
      if Yaml.isNull text then .ok none else .error ⟨.wrongValue text "null", "", top⟩
    else match Yaml.localTag? properties.tag with
      | some name => (taggedMode top path name node).map some
      | none => (yamlMode path properties.mark text).map some
  | .sequence properties _ =>
    match Yaml.localTag? properties.tag with
    | some name => (taggedMode top path name node).map some
    | none => withoutTag properties "sequence"
  | .mapping properties _ =>
    match Yaml.localTag? properties.tag with
    | some name => (taggedMode top path name node).map some
    | none => withoutTag properties "map"

/-- What the members of a document set, after what those before them have set. -/
def ofYamlMembers (document : Yaml.Node) (top : Yaml.Mark) :
    Option (Option OutputMode) → List (Yaml.Node × Yaml.Node) → Except YamlMisfit Config
  | sofar, [] => .ok ⟨sofar.join⟩
  | sofar, (key, value) :: rest =>
    match followed document key with
    | .sequence properties _ => .error ⟨.wrongType "sequence" "field identifier", "", properties.mark⟩
    | .mapping properties _ => .error ⟨.wrongType "map" "field identifier", "", properties.mark⟩
    | .alias .. => ofYamlMembers document top sofar rest
    | .scalar _ text _ =>
      if text ≠ "output" then ofYamlMembers document top sofar rest
      else if sofar.isSome then .error ⟨.repeatedOutput, "", top⟩
      else
        let path := match key with
          | .scalar .. => "output"
          | _ => "?"
        match yamlOutput top path (followed document value) with
        | .error misfit => .error misfit
        | .ok mode => ofYamlMembers document top (some mode) rest

/-- Settings from the only node of a document. -/
def ofNode (document : Yaml.Node) : Except YamlMisfit Config :=
  let wanted := "struct ExverifyConfig"
  match document with
  | .alias .. => .ok .unset
  | .scalar properties text plain =>
    if plain ∧ text.isEmpty then .ok .unset
    else .error ⟨.wrongType (scalarType properties.tag text plain) wanted, "", properties.mark⟩
  | .sequence properties _ => .error ⟨.wrongType "sequence" wanted, "", properties.mark⟩
  | .mapping properties members => ofYamlMembers document properties.mark none members

/-- Settings from a text in YAML, given what is told of one that is no document. -/
def ofYaml (told : String) (text : List Char) : Except Fault Config :=
  match Yaml.Node.ofText? text with
  | none => .error (@Fault.malformed told)
  | some none => .ok .unset
  | some (some document) =>
    match ofNode document with
    | .ok config => .ok config
    | .error misfit =>
      if (Yaml.Value.ofDocument? document).isSome then .error (.misfit misfit.message)
      else .error (@Fault.malformed told)

end ExerciseAudit.Config
