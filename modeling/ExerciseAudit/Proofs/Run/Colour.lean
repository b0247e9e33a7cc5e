import ExerciseAudit.FileTree.Edit
import ExerciseAudit.Proofs.Run.Settings
import ExerciseAudit.Proofs.Text.Styled
import Mathlib.Data.Nat.Digits.Defs

/-!
# Colour

Whether the environment asks for plain text has no influence on the exit code and on the results of
a run, and only on the styles of what is printed beside them (`Outcome.colour_decorates`). Only
labels and the line of counts are styled, and these hold no escape characters. Names may hold some,
but they stand in lines that end without a style, so no sequence of theirs runs into one of ours.

A run that asks for JSON has nothing to print beside its results, so the environment has no influence
on it at all, except where there are no results: an error of the configuration is printed before the
mode is looked at, and styled as for people (`Outcome.colour_under_json`).
-/

namespace ExerciseAudit.Outcome

open Text (escape unstyled)

/-! ## What is styled -/

theorem escape_notMem_repr (n : Nat) : escape ∉ n.repr.toList := by
  rw [Nat.toList_repr]
  intro member
  have digit := Nat.isDigit_of_mem_toDigits (by decide) (by decide) member
  exact absurd digit (by decide)

theorem escape_notMem_countsLine (summary : Summary) : escape ∉ (countsLine summary).toList := by
  have append {first second : String} (left : escape ∉ first.toList)
      (right : escape ∉ second.toList) : escape ∉ (first ++ second).toList := by
    rw [String.toList_append, List.mem_append]
    exact fun member => member.elim left right
  have counted {word : String} (plain : escape ∉ word.toList) (n : Nat) :
      escape ∉ (word ++ n.repr).toList := append plain (escape_notMem_repr n)
  exact counted (append (counted (append (counted (by decide) _) (by decide)) _)
    (by decide)) _

/-- A label is styled only as a whole. -/
theorem tidy_labelled (colour : Text.Colour) {label : String} (plain : escape ∉ label.toList)
    (text : String) : ∀ stretch ∈ labelled colour label text, stretch.Tidy := by
  rw [labelled, List.forall_mem_cons, List.forall_mem_singleton]
  exact ⟨plain, " " ++ text, rfl⟩

/-- Diagnostics of a report are styled only in their labels. -/
theorem tidy_humanDiagnostics (settings : Config.Effective) (report : Report) :
    ∀ stretch ∈ humanDiagnostics settings report, stretch.Tidy := by
  rw [humanDiagnostics, List.forall_mem_append, List.forall_mem_append]
  refine ⟨⟨?_, ?_⟩, ?_⟩
  · split
    case isTrue => exact tidy_labelled _ (by decide) _
    case isFalse => simp
  · split
    case isTrue => exact tidy_labelled _ (by decide) _
    case isFalse => simp
  · split
    case isTrue => simp
    case isFalse =>
      rw [List.forall_mem_cons, List.forall_mem_singleton]
      exact ⟨escape_notMem_countsLine _, "", rfl⟩

/-- What remains of the standard error of a run is the same with and without styles. -/
theorem unstyled_diagnostics (decode : Config.Decoder) (tree : FileTree) (arguments : List String)
    (first second : Option String) :
    unstyled (Text.write first (run tree arguments decode).diagnostics) =
      unstyled (Text.write second (run tree arguments decode).diagnostics) := by
  unfold run
  split
  case h_1 refusal _ =>
    unfold ofRefusal
    split <;> rfl
  case h_2 asked _ =>
    split
    case h_1 error _ => exact Text.unstyled_write_of_tidy (tidy_labelled _ (by decide) _) _ _
    case h_2 settings _ =>
      unfold ofReport
      split
      case h_1 => exact Text.unstyled_write_of_tidy (tidy_humanDiagnostics _ _) _ _
      case h_2 => rfl

/-! ## Runs with and without colour -/

/-- **Colour is only decoration.** A run ends with the same exit code and prints the same results
whatever `NO_COLOR` is. If it is set, its value does not matter, not even an empty one. If what is
then printed beside the results has no escape character, the same is printed without `NO_COLOR` but
for sequences that select a style; and if it has some, the same remains of both when all such
sequences are deleted. -/
theorem colour_decorates (decode : Config.Decoder) (tree : FileTree) (arguments : List String) :
    (∀ first second : Option String,
      ((run tree arguments decode).transcript first).exitCode =
        ((run tree arguments decode).transcript second).exitCode ∧
      ((run tree arguments decode).transcript first).output =
        ((run tree arguments decode).transcript second).output) ∧
    (∀ first second : String,
      ((run tree arguments decode).transcript (some first)).errors =
        ((run tree arguments decode).transcript (some second)).errors) ∧
    (∀ value : String,
      escape ∉ ((run tree arguments decode).transcript (some value)).errors.toList →
      unstyled ((run tree arguments decode).transcript none).errors =
        ((run tree arguments decode).transcript (some value)).errors) ∧
    ∀ value : String, unstyled ((run tree arguments decode).transcript none).errors =
      unstyled ((run tree arguments decode).transcript (some value)).errors := by
  refine ⟨fun first second => ⟨rfl, rfl⟩, fun first second => ?_, fun value plain => ?_,
    fun value => ?_⟩
  · exact (Text.write_some first _).trans (Text.write_some second _).symm
  · exact Text.unstyled_write plain
  · exact unstyled_diagnostics decode tree arguments none (some value)

/-- A run on the empty tree, which has a violation to report. -/
theorem colour_decorates_empty :
    escape ∉ ((run .empty []).transcript (some "")).errors.toList ∧
    unstyled ((run .empty []).transcript none).errors =
      ((run .empty []).transcript (some "")).errors := by
  have plain : escape ∉ ((run .empty []).transcript (some "")).errors.toList := by
    decide +kernel
  exact ⟨plain, (colour_decorates (Config.ofText .standIn) .empty []).2.2.1 "" plain⟩

/-! ## Runs that ask for JSON -/

/-- What is seen of a configuration in error. The label shows its style, and the rest has none. -/
theorem transcript_ofConfigError (error : Config.Error) (noColor : Option String) :
    (ofConfigError error).transcript noColor =
      ⟨2, "", (Text.Stretch.tinted .red "error:").write noColor ++
        (" " ++ error.message ++ "\n")⟩ := by
  cases noColor <;>
    simp [transcript, errorOutput, ofConfigError, labelled, Text.write, Text.Stretch.text,
      Text.Stretch.escaped, String.join]

/-- The label of an error shows whether `NO_COLOR` is set. -/
theorem write_error_ne (value rest : String) :
    (Text.Stretch.tinted .red "error:").write none ++ rest ≠
      (Text.Stretch.tinted .red "error:").write (some value) ++ rest := by
  intro same
  have label := (String.append_left_inj _).mp same
  rw [Text.Stretch.write_none, Text.Stretch.write_some] at label
  exact absurd label (by decide)

section Json

variable {tree : FileTree} {arguments : List String} {root : Path} {decode : Config.Decoder}

/-- **Under JSON only an error of the configuration is coloured.** A run that asks for JSON is the
same with and without `NO_COLOR` just if the configuration can be loaded, and then prints nothing on
its standard error. If the configuration cannot be loaded, the run ends with code 2 and tells why,
behind a label that is red unless `NO_COLOR` is set. -/
theorem colour_under_json (asks : CommandLine.Asks arguments root (some .json)) :
    (∀ value : String,
      (run tree arguments decode).transcript none =
          (run tree arguments decode).transcript (some value) ↔
        ∃ found, Config.load decode tree root = .ok found) ∧
    (∀ found, Config.load decode tree root = .ok found →
      ∀ noColor, ((run tree arguments decode).transcript noColor).errors = "") ∧
    ∀ error, Config.load decode tree root = .error error →
      ∃ told : String, ∀ value : String,
        (run tree arguments decode).transcript none =
          ⟨2, "", "\x1b[1m\x1b[31merror:\x1b[39m\x1b[0m" ++ told⟩ ∧
        (run tree arguments decode).transcript (some value) = ⟨2, "", "error:" ++ told⟩ := by
  have failing (error : Config.Error)
      (failed : Config.load decode tree root = .error error) (noColor : Option String) :=
    run_of_load_error asks failed ▸ transcript_ofConfigError error noColor
  refine ⟨fun value => ⟨fun same => ?_, fun ⟨found, loaded⟩ => ?_⟩, fun found loaded noColor => ?_,
    fun error failed => ⟨_, fun value => ⟨failing error failed none, failing error failed _⟩⟩⟩
  · cases loading : Config.load decode tree root with
    | ok found => exact ⟨found, rfl⟩
    | error error =>
      rw [failing error loading, failing error loading] at same
      exact absurd (congrArg Transcript.errors same) (write_error_ne _ _)
  -- The mode asked for is in force, whatever the file sets, and it prints the document alone.
  · rw [run_of_load asks loaded]
    rfl
  · rw [run_of_load asks loaded]
    rfl

end Json

/-- A tree whose configuration file names no output mode. -/
def misconfiguredTree : FileTree :=
  FileTree.empty.put (.ofString "exverify.yaml") (.file (Utf8.encode "output: xml\n".toList))

theorem colour_under_json_misconfiguredTree :
    CommandLine.Asks ["--root", ".", "--output", "json"] (.ofString ".") (some .json) ∧
    (run .empty ["--root", ".", "--output", "json"]).transcript none =
      (run .empty ["--root", ".", "--output", "json"]).transcript (some "1") ∧
    (run misconfiguredTree ["--root", ".", "--output", "json"]).transcript none ≠
      (run misconfiguredTree ["--root", ".", "--output", "json"]).transcript (some "1") := by
  have asks : CommandLine.Asks ["--root", ".", "--output", "json"] (.ofString ".") (some .json) :=
    ⟨some (.ofString "."), by decide +kernel, rfl⟩
  have unset : Config.load (Config.ofText .standIn) .empty (.ofString ".") = .ok none := by
    decide +kernel
  have failed : (Config.load (Config.ofText .standIn) misconfiguredTree
      (.ofString ".")).toOption = none := by
    decide +kernel
  refine ⟨asks, ((colour_under_json asks).1 "1").mpr ⟨none, unset⟩, fun same => ?_⟩
  obtain ⟨found, loaded⟩ := ((colour_under_json asks).1 "1").mp same
  rw [loaded] at failed
  cases failed

/-- What is said of that file. -/
def misconfiguredMessage : String :=
  "invalid config ./exverify.yaml: output: " ++
    "unknown variant `xml`, expected `human` or `json` at line 1 column 9"

/-- An error of the configuration is coloured even if the results are wanted in JSON. -/
theorem error_coloured_under_json :
    CommandLine.ofArguments ["--root", ".", "--output", "json"] =
      .ok ⟨some (.ofString "."), some .json⟩ ∧
    (run misconfiguredTree ["--root", ".", "--output", "json"]).transcript none =
      ⟨2, "", "\x1b[1m\x1b[31merror:\x1b[39m\x1b[0m " ++ misconfiguredMessage ++ "\n"⟩ ∧
    (run misconfiguredTree ["--root", ".", "--output", "json"]).transcript (some "1") =
      ⟨2, "", "error: " ++ misconfiguredMessage ++ "\n"⟩ := by
  decide +kernel

end ExerciseAudit.Outcome
