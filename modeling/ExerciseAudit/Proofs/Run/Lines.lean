import ExerciseAudit.Proofs.Report.Wording
import ExerciseAudit.Proofs.Run.Modes

/-!
# Lines for people

A run for people that finds violations prints their messages, each with a line feed behind it. They
are the lines of what it prints just if no name that a violation shows holds a line feed
(`Outcome.lines_exact`). A name may hold one, as the text of a manifest can spell any character; then
one violation takes several lines, and they can look like anything, the line of a success included
(`Outcome.lines_forged`).
-/

namespace ExerciseAudit

namespace Outcome

variable {tree : FileTree} {arguments : List String} {root : Path} {output : Option OutputMode}
  {decode : Config.Decoder}

/-- The line of a success is not what is said of a violation. -/
theorem successMessage_notMem_messages (report : Report) : successMessage ∉ report.messages := by
  intro member
  obtain ⟨violation, _, same⟩ := List.mem_map.mp member
  have colon := violation.colon_mem_message
  rw [same] at colon
  exact absurd colon (by decide)

/-- **Results for people are lines.** A run for people that finds violations ends with code 1 and
prints the messages of the violations, as many as are counted and each with a line feed behind it.
They are the lines of what it prints if no name in a violation holds a line feed, and only then; and
then the line of a success is none of them. -/
theorem lines_exact (asks : CommandLine.Asks arguments root output)
    {found : Option (Path × Config)} (loaded : Config.load decode tree root = .ok found)
    (human : modeInForce output found = .human) (wrong : (Audit.run tree root).violations ≠ []) :
    (run tree arguments decode).exitCode = 1 ∧
    (Audit.run tree root).messages.length = (Audit.run tree root).summary.errors ∧
    (run tree arguments decode).output =
      String.join ((Audit.run tree root).messages.map (· ++ "\n")) ∧
    (Text.segments (run tree arguments decode).output.toList =
        (Audit.run tree root).messages.map String.toList ++ [[]] ↔
      ∀ violation ∈ (Audit.run tree root).violations,
        ∀ name ∈ violation.names, Text.OneLine name) ∧
    ((∀ violation ∈ (Audit.run tree root).violations,
        ∀ name ∈ violation.names, Text.OneLine name) →
      successMessage.toList ∉ Text.segments (run tree arguments decode).output.toList) := by
  have printed : (run tree arguments decode).output =
      String.join ((Audit.run tree root).messages.map (· ++ "\n")) := by
    rw [run_of_load asks loaded, human]
    exact humanOutput_of_ne_nil wrong
  have lines : Text.segments (run tree arguments decode).output.toList =
        (Audit.run tree root).messages.map String.toList ++ [[]] ↔
      ∀ violation ∈ (Audit.run tree root).violations,
        ∀ name ∈ violation.names, Text.OneLine name := by
    rw [printed, Text.segments_join_iff, Report.messages, List.forall_mem_map]
    exact forall₂_congr fun _ member => Audit.oneLine_message_iff member
  refine ⟨?_, ?_, printed, lines, fun clean shown => ?_⟩
  · rw [run_of_load asks loaded, exitCode_ofReport]
    exact (reportCode_eq_one_iff _).mpr wrong
  · rw [Audit.errors_run, Report.messages, List.length_map]
  · rw [lines.mpr clean, List.mem_append, List.mem_singleton] at shown
    rcases shown with shown | empty
    · obtain ⟨message, member, same⟩ := List.mem_map.mp shown
      rw [String.toList_inj] at same
      exact successMessage_notMem_messages _ (same ▸ member)
    · exact absurd empty (by decide +kernel)

/-- Two messages of one line each. -/
theorem lines_exact_plainTree :
    Config.load (Config.ofText .standIn) Audit.plainTree (.ofString ".") = .ok none ∧
    (run Audit.plainTree ["--root=" ++ ".", "--output=" ++ OutputMode.human.name]).exitCode = 1 ∧
    Text.segments
        (run Audit.plainTree ["--root=" ++ ".", "--output=" ++ OutputMode.human.name]).output.toList =
      ["./docs/exercises/m.manifest.json: missing heading 'B' in /d".toList,
        "./docs/exercises/m.manifest.json: missing reference ../r".toList, []] := by
  have loaded : Config.load (Config.ofText .standIn) Audit.plainTree (.ofString ".") = .ok none := by
    decide +kernel
  have violations : (Audit.run Audit.plainTree (.ofString ".")).violations =
      [.missingHeading (.ofString "./docs/exercises/m.manifest.json") "B" "/d" .doc,
        .missingReference (.ofString "./docs/exercises/m.manifest.json") "../r"] := by decide +kernel
  have clean : ∀ violation ∈ (Audit.run Audit.plainTree (.ofString ".")).violations,
      ∀ name ∈ violation.names, Text.OneLine name := by
    rw [violations]
    decide +kernel
  have asks := @CommandLine.asks_root "." (by decide) .human
  obtain ⟨code, _, _, lines, _⟩ := lines_exact asks loaded rfl (by simp [violations])
  refine ⟨loaded, code, ?_⟩
  rw [lines.mpr clean, Report.messages, violations]
  decide +kernel

/-- A tree with a manifest that declares a document of two lines. -/
def forgingTree : FileTree :=
  FileTree.empty.put (.ofString "docs/exercises/a.manifest.json") (.file (Utf8.encode
    "\x7b\"docs\":[\"a\\nExercise verification passed\"]\x7d".toList))

/-- A run may find one violation and print two lines, of which one is the line of a success. -/
theorem lines_forged :
    (Audit.run forgingTree (.ofString ".")).summary.errors = 1 ∧
    (run forgingTree ["--root", "."]).exitCode = 1 ∧
    Text.segments (run forgingTree ["--root", "."]).output.toList =
      ["./docs/exercises/a.manifest.json: missing doc a".toList, successMessage.toList, []] := by
  decide +kernel

end Outcome

end ExerciseAudit
