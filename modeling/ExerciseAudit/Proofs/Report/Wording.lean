import ExerciseAudit.Proofs.Audit.Obligation
import ExerciseAudit.Proofs.Manifest.Extent
import ExerciseAudit.Proofs.Text.Line
import ExerciseAudit.Report.Basic

/-!
# How violations are worded

A message is made of fixed words, numbers, the reason of a fault and the names that the violation
shows. The names stand in it as they are given, and all else is on one line; so a message is on one
line just if the names are (`Audit.oneLine_message_iff`).
-/

namespace ExerciseAudit

open Text (OneLine)

/-! ## Reasons -/

theorem Json.Found.oneLine_describe (found : Json.Found) : OneLine found.describe := by
  cases found with
  | bool value => cases value <;> decide
  | number number =>
    cases number with
    | integer value =>
      dsimp only [describe]
      rw [Text.oneLine_append, Text.oneLine_append]
      exact ⟨⟨by decide, Text.oneLine_int value⟩, by decide⟩
    | float value =>
      dsimp only [describe]
      rw [Text.oneLine_append, Text.oneLine_append]
      exact ⟨⟨by decide, Decimal.oneLine_write _ value⟩, by decide⟩
  | string text => exact (Text.oneLine_append _ _).mpr ⟨by decide, Text.oneLine_quoted text⟩
  | null | array | object => decide

/-- What was found is quoted, so even a string of many lines is told on one. -/
theorem Json.Cause.oneLine_message {cause : Json.Cause} (known : cause.Known) :
    OneLine cause.message := by
  cases cause with
  | wrongKind found wanted =>
    have named : OneLine wanted := by
      simp only [Known, List.mem_cons, List.not_mem_nil, or_false] at known
      rcases known with rfl | rfl | rfl | rfl <;> decide
    dsimp only [message]
    rw [Text.oneLine_append, Text.oneLine_append, Text.oneLine_append]
    exact ⟨⟨⟨by decide, found.oneLine_describe⟩, by decide⟩, named⟩
  | repeatedField field =>
    simp only [Known, List.mem_cons, List.not_mem_nil, or_false] at known
    rcases known with rfl | rfl | rfl | rfl | rfl <;> decide
  | noShape type =>
    obtain rfl := known
    decide
  | _ => decide

/-- A manifest is refused in one line. -/
theorem Manifest.oneLine_reason {text : String} {refusal : Manifest.Refusal}
    (refused : Manifest.ofText text = .error refusal) : OneLine refusal.reason := by
  obtain ⟨fault, _, known, _, reason, _⟩ := Manifest.exists_fault_of_refused refused
  rw [reason]
  exact Json.Cause.oneLine_message known

theorem FileFault.oneLine_message (fault : FileFault) : OneLine fault.message := by
  cases fault <;> decide

/-! ## Messages -/

theorem Entry.oneLine_label (entry : Entry) : OneLine entry.label := by
  cases entry <;> decide

namespace Violation

/-- The names that a violation shows: where it was found, and what the manifest there declares. -/
def names : Violation → List String
  | missingBase root => [root.display]
  | invalidManifest manifest .. | unreadableManifest manifest _ => [manifest.display]
  | missingDoc manifest path | missingReference manifest path | missingFixture manifest path
  | unreadableDocument manifest path .. => [manifest.display, path]
  | missingHeading manifest heading path _ => [manifest.display, heading, path]

/-- Why a violation's file could not be read, or is no manifest. -/
def reason? : Violation → Option String
  | invalidManifest _ reason .. | unreadableManifest _ reason
  | unreadableDocument _ _ _ reason => some reason
  | _ => none

/-- A message is one line exactly if the names in it are. -/
theorem oneLine_message_iff {violation : Violation}
    (reasoned : ∀ reason ∈ violation.reason?, OneLine reason) :
    OneLine violation.message ↔ ∀ name ∈ violation.names, OneLine name := by
  cases violation <;>
    simp_all +decide [message, names, reason?, Entry.oneLine_label, and_assoc]

/-- Every message has a colon in it, behind what it is about. -/
theorem colon_mem_message (violation : Violation) : ':' ∈ violation.message.toList := by
  cases violation <;> simp [message]

end Violation

namespace Audit

variable {tree : FileTree} {root : Path} {violation : Violation}

/-- Reasons that are reported are one line each, whatever the files hold. -/
theorem Breaks.oneLine_reason {path : Path} {part : Part}
    (broken : Breaks tree root path part violation) :
    ∀ reason ∈ violation.reason?, OneLine reason := by
  intro reason given
  cases broken with
  | unreadable =>
    obtain rfl := Option.some.inj given
    exact FileFault.oneLine_message _
  | invalid _ refused =>
    obtain rfl := Option.some.inj given
    exact Manifest.oneLine_reason refused
  | declared _ _ broken =>
    cases broken with
    | reference => cases given
    | @document entry _ _ _ _ _ broken =>
      cases broken with
      | missing => cases entry <;> cases given
      | heading => cases given
      | unreadable =>
        obtain rfl := Option.some.inj given
        exact FileFault.oneLine_message _

/-- The message of what a run finds is on one line just if the names in it are. -/
theorem oneLine_message_iff (member : violation ∈ (run tree root).violations) :
    OneLine violation.message ↔ ∀ name ∈ violation.names, OneLine name := by
  apply violation.oneLine_message_iff
  by_cases base : tree.has (basePath root) = true
  · obtain ⟨_, _, broken⟩ := ((accounts_run base).mem_iff violation).mp member
    exact broken.oneLine_reason
  · simp only [run, base, Bool.false_eq_true, ↓reduceIte, List.mem_singleton] at member
    simp [member, Violation.reason?]

end Audit

end ExerciseAudit
