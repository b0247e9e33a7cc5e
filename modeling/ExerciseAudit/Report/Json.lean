import ExerciseAudit.Json.Value
import ExerciseAudit.Path.Relative
import ExerciseAudit.Report.Basic

/-!
# Reports as JSON

Two forms of a report as a JSON value. `Report.toJson` holds its fields as they are; `Report.document`, the
form that is printed, adds each violation's message and names manifests relative to the root.
-/

namespace ExerciseAudit

open Json (Value)

/-- The members of a violation's record, `kind` first, with the manifest shown as `shown` says. -/
def Violation.members (shown : Path → String) (violation : Violation) : List (String × Value) :=
  ("kind", .string violation.kind) :: match violation with
    | .missingBase root => [("root", .string root.display)]
    | .invalidManifest manifest reason line column =>
      [("manifest", .string (shown manifest)), ("reason", .string reason),
        ("line", .ofNat line), ("column", .ofNat column)]
    | .unreadableManifest manifest reason =>
      [("manifest", .string (shown manifest)), ("reason", .string reason)]
    | .missingDoc manifest path | .missingReference manifest path | .missingFixture manifest path =>
      [("manifest", .string (shown manifest)), ("path", .string path)]
    | .missingHeading manifest heading path entry =>
      [("manifest", .string (shown manifest)), ("heading", .string heading),
        ("path", .string path), ("entry", .string entry.label)]
    | .unreadableDocument manifest path entry reason =>
      [("manifest", .string (shown manifest)), ("path", .string path),
        ("entry", .string entry.label), ("reason", .string reason)]

/-- The counts as a record. -/
def Summary.toJson (summary : Summary) : Value :=
  .object [("errors", .ofNat summary.errors), ("manifests", .ofNat summary.manifests),
    ("documents", .ofNat summary.documents)]

namespace Report

/-- A report's fields as a record. -/
def toJson (report : Report) : Value :=
  .object [
    ("violations", .array (report.violations.map fun v => .object (v.members Path.display))),
    ("summary", report.summary.toJson)]

/-- The record of a violation in the printed form. -/
def item (root : Path) (violation : Violation) : Value :=
  .object (violation.members (·.shownFrom root) ++ [("message", .string violation.message)])

/-- The printed form of a report on a root. -/
def document (report : Report) (root : Path) : Value :=
  .object [
    ("ok", .bool report.isOk),
    ("violations", .array (report.violations.map (item root))),
    ("summary", report.summary.toJson)]

end Report

end ExerciseAudit
