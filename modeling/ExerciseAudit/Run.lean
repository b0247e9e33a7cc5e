import ExerciseAudit.Audit
import ExerciseAudit.CommandLine.Reader
import ExerciseAudit.Config.Selection
import ExerciseAudit.Json.Printer
import ExerciseAudit.Report.Json
import ExerciseAudit.Text.Styled

/-!
# Runs

What a run of the program on a tree prints, and the exit code with which it ends: 0 if nothing is wrong, 1
if there are violations, 2 if the command line or the configuration is in error and nothing was checked.
Results go to the standard output, all else to the standard error, where only labels and the line of counts
are styled.
-/

namespace ExerciseAudit

open Text (Stretch)

/-- What a run leaves behind, its standard error as styled text. -/
structure Outcome where
  exitCode : Nat
  output : String
  diagnostics : List Stretch
  deriving DecidableEq, Repr

namespace Outcome

/-- A line of diagnostics that starts with a label. -/
def labelled (colour : Text.Colour) (label text : String) : List Stretch :=
  [.tinted colour label, .plain (" " ++ text ++ "\n")]

/-- The outcome of a command line that does not lead to a run: its text goes to the standard error only if
it reports an error. -/
def ofRefusal (refusal : CommandLine.Refusal) : Outcome :=
  if refusal.isError then ⟨refusal.exitCode, "", [.plain refusal.message]⟩
  else ⟨refusal.exitCode, refusal.message, []⟩

/-- The outcome of a configuration in error. -/
def ofConfigError (error : Config.Error) : Outcome :=
  ⟨2, "", labelled .red "error:" error.message⟩

/-- The only line of results when there are no violations. -/
def successMessage : String := "Exercise verification passed"

/-- The line of counts. -/
def countsLine (summary : Summary) : String :=
  "— Summary — errors=" ++ summary.errors.repr ++ " manifests=" ++ summary.manifests.repr ++
    " documents=" ++ summary.documents.repr

/-- A report for people: one line of results for each violation, or one that says there are none. -/
def humanOutput (report : Report) : String :=
  if report.isOk then successMessage ++ "\n"
  else String.join (report.messages.map (· ++ "\n"))

/-- What people are told beside the results: that no configuration file was found, what was scanned, and the
counts if there are violations. -/
def humanDiagnostics (settings : Config.Effective) (report : Report) : List Stretch :=
  (if settings.source.isNone then labelled .cyan "note:" "No exverify.toml found; using defaults."
    else []) ++
  (if 0 < report.summary.manifests then
    labelled .blue "info:" ("Scanned " ++ report.summary.manifests.repr ++ " manifest(s) under " ++
      (basePath settings.root).display)
    else []) ++
  (if report.isOk then [] else [.bold (countsLine report.summary), .plain "\n"])

/-- The exit code for a report. -/
def reportCode (report : Report) : Nat :=
  if report.isOk then 0 else 1

/-- The outcome of an audit, as the settings want it printed. -/
def ofReport (settings : Config.Effective) (report : Report) : Outcome :=
  match settings.output with
  | .human => ⟨reportCode report, humanOutput report, humanDiagnostics settings report⟩
  | .json => ⟨reportCode report, (report.document settings.root).pretty ++ "\n", []⟩

/-- The outcome of a run on a tree with the arguments of a command line, given how configuration files are
read. -/
def run (tree : FileTree) (arguments : List String)
    (decode : Config.Decoder := Config.ofText .standIn) : Outcome :=
  match CommandLine.ofArguments arguments with
  | .error refusal => ofRefusal refusal
  | .ok asked =>
    match Config.resolveWith decode tree asked.root asked.output with
    | .error error => ofConfigError error
    | .ok settings => ofReport settings (Audit.run tree settings.root)

/-- The standard error of a run in an environment with this variable `NO_COLOR`. -/
def errorOutput (outcome : Outcome) (noColor : Option String) : String :=
  Text.write noColor outcome.diagnostics

end Outcome

/-- What is seen of a run from outside. -/
structure Transcript where
  exitCode : Nat
  output : String
  errors : String
  deriving DecidableEq, Repr

/-- What is seen of a run in an environment with this variable `NO_COLOR`. -/
def Outcome.transcript (outcome : Outcome) (noColor : Option String) : Transcript :=
  ⟨outcome.exitCode, outcome.output, outcome.errorOutput noColor⟩

end ExerciseAudit
