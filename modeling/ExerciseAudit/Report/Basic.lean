import ExerciseAudit.Violation

/-!
# Reports

What an audit of a tree finds: its violations in order, and three counts. A tree is in order when there
are no violations, whatever the counts say.
-/

namespace ExerciseAudit

/-- The counts of an audit. -/
structure Summary where
  errors : Nat
  manifests : Nat
  documents : Nat
  deriving DecidableEq, Repr

/-- The outcome of an audit. -/
structure Report where
  violations : List Violation
  summary : Summary
  deriving DecidableEq, Repr

namespace Report

/-- Whether an audit found nothing wrong. -/
def isOk (report : Report) : Bool :=
  report.violations.isEmpty

/-- The messages of a report, one for each violation and in its order. -/
def messages (report : Report) : List String :=
  report.violations.map Violation.message

end Report

end ExerciseAudit
