import ExerciseAudit.Config.Basic
import ExerciseAudit.Toml.Document
import ExerciseAudit.Toml.Excerpt

/-!
# Settings in TOML

The output mode is named by a string, or by the only key of a table whose value is empty. Keys of no meaning
are passed over, but the numbers below them must be of a size that can be held.
-/

namespace ExerciseAudit.Config

open Toml (Span Value)

/-- Why a value does not name an output mode. -/
inductive TomlMismatch where
  | unknownMode (name : String)
  | noMember
  | manyMembers
  | tableNotEmpty
  | arrayNotEmpty
  | notTable (kind : String)
  | notStringOrTable
  deriving DecidableEq, Repr

/-- How a mismatch is reported. -/
def TomlMismatch.message : TomlMismatch → String
  | unknownMode name => OutputMode.unknownMessage name
  | noMember => "wanted exactly 1 element, found 0 elements"
  | manyMembers => "wanted exactly 1 element, more than 1 element"
  | tableNotEmpty => "expected empty table"
  | arrayNotEmpty => "expected empty array"
  | notTable kind => "expected table, found " ++ kind
  | notStringOrTable => "wanted string or table"

/-- The mode of a name, or the mismatch at the stretch where the name stands. -/
def tomlMode (span : Span) (name : String) : Except (TomlMismatch × Span) OutputMode :=
  match OutputMode.ofName? name with
  | some mode => .ok mode
  | none => .error (.unknownMode name, span)

/-- The mode that a value names, or a mismatch and where it is. -/
def tomlOutput (span : Span) : Value → Except (TomlMismatch × Span) OutputMode
  | .string name => tomlMode span name
  | .table _ [] => .error (.noMember, span)
  | .table _ [(key, inner, value)] =>
    match tomlMode key.span key.text with
    | .error mismatch => .error mismatch
    | .ok mode =>
      match value with
      | .table _ [] | .array _ [] => .ok mode
      | .table .. => .error (.tableNotEmpty, inner)
      | .array .. => .error (.arrayNotEmpty, inner)
      | other => .error (.notTable other.kindName, inner)
  | .table _ _ => .error (.manyMembers, span)
  | _ => .error (.notStringOrTable, span)

/-- Settings from the members of a document: the member of the name `output`, if there is one. -/
def ofMembers (members : List Toml.Member) : Except (TomlMismatch × Span) Config :=
  match Toml.member? "output" members with
  | none => .ok .unset
  | some (_, span, value) => (tomlOutput span value).map fun mode => ⟨some mode⟩

/-- Settings from a text in TOML, given what is told of one that is no document. -/
def ofToml (told : String) (text : List Char) : Except Fault Config :=
  match Toml.parse? text with
  | none => .error (@Fault.malformed told)
  | some members =>
    match ofMembers members with
    | .error (mismatch, span) =>
      if Toml.allMembers (fitsSigned 64) members then .error (.misfit (Toml.excerpt text span mismatch.message))
      else .error (@Fault.malformed told)
    | .ok config =>
      if Toml.allMembers (fitsWord 128) members then .ok config else .error (@Fault.malformed told)

end ExerciseAudit.Config
