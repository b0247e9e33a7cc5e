import ExerciseAudit.Run

/-!
# Runs and their settings

A run on an accepted command line is settled by the configuration file of its root: if that cannot
be loaded, the run reports this alone (`Outcome.run_of_load_error`), and otherwise it prints the
report on the root in the mode that is in force (`Outcome.run_of_load`).
-/

namespace ExerciseAudit

namespace CommandLine

/-- A command line is accepted, and asks for a root and perhaps for an output mode. -/
def Asks (arguments : List String) (root : Path) (output : Option OutputMode) : Prop :=
  ∃ asked, ofArguments arguments = .ok ⟨asked, output⟩ ∧ asked.getD Config.defaultRoot = root

theorem ofString_root (value : String) :
    Argument.ofString ("--root=" ++ value) = .long "root" (some value) := by
  simp [Argument.ofString]

theorem ofString_output (mode : OutputMode) :
    Argument.ofString ("--output=" ++ mode.name) = .long "output" (some mode.name) := by
  cases mode <;> decide

/-- Any root but an empty one can be asked for, in either mode. -/
theorem asks_root {value : String} (given : value ≠ "") (mode : OutputMode) :
    Asks ["--root=" ++ value, "--output=" ++ mode.name] (.ofString value) (some mode) := by
  refine ⟨some (.ofString value), ?_, rfl⟩
  have root : Setting.ofName? "root" = some .root := by decide
  have output : Setting.ofName? "output" = some .output := by decide
  have named : OutputMode.ofName? mode.name = some mode := by cases mode <;> decide
  have inhabited : mode.name ≠ "" := by cases mode <;> decide
  simp [ofArguments, Progress.read, Progress.start, Progress.settle, Progress.give, Progress.set,
    ofString_root, ofString_output, root, output, named, given, inhabited, Except.map]

end CommandLine

/-- A configuration file of a root stands at a location. -/
def Config.StandsAt (tree : FileTree) (root : Path) (location : Location) : Prop :=
  ∃ candidate ∈ candidates root, tree.resolve candidate.1 true = .ok location

namespace Outcome

variable {tree : FileTree} {arguments : List String} {root : Path} {output : Option OutputMode}
  {decode : Config.Decoder}

/-- Settings that cannot be used are all that a run reports. -/
theorem run_of_load_error (asks : CommandLine.Asks arguments root output) {error : Config.Error}
    (failed : Config.load decode tree root = .error error) :
    run tree arguments decode = ofConfigError error := by
  obtain ⟨asked, accepted, rfl⟩ := asks
  simp only [run, accepted, Config.resolveWith, failed]

/-- The output mode in force: the one asked for, or the one of the configuration file, or the
default. -/
def modeInForce (output : Option OutputMode) (found : Option (Path × Config)) : OutputMode :=
  (output.or (found.bind fun file => file.2.output)).getD .human

/-- Otherwise a run reports what is found under the root, in the mode in force. -/
theorem run_of_load (asks : CommandLine.Asks arguments root output)
    {found : Option (Path × Config)} (loaded : Config.load decode tree root = .ok found) :
    run tree arguments decode =
      ofReport ⟨root, modeInForce output found, found.map Prod.fst⟩ (Audit.run tree root) := by
  obtain ⟨asked, accepted, rfl⟩ := asks
  simp only [run, accepted, Config.resolveWith, loaded]
  cases found with
  | none => simp [modeInForce]
  | some file => rfl

end Outcome

end ExerciseAudit
