import ExerciseAudit.Proofs.Audit.Related
import ExerciseAudit.Proofs.FileTree.Content
import ExerciseAudit.Proofs.FileTree.Reading
import ExerciseAudit.Proofs.Heading.LineEnds

/-!
# How the lines of documents end

Of a document a run uses nothing but its headings, and these do not depend on how lines end. So the
report on a tree is the same when files that are no manifests end their lines in another way
(`Audit.lineEnds_irrelevant`): with carriage returns or without, with blanks or without.
-/

namespace ExerciseAudit

open FileTree Text

namespace Audit

/-- What two files contain is text with the same lines up to their ends. -/
structure LinesAlike (content content' : List UInt8) (text text' : String) : Prop where
  spelled : Utf8.decode? content = some text.toList
  spelled' : Utf8.decode? content' = some text'.toList
  lines : SameLines text.toList text'.toList

/-- Two trees differ at most in how lines end in files at some locations. -/
structure Respaced (places : Location → Prop) (tree other : FileTree) : Prop where
  home : tree.workingDirectory = other.workingDirectory
  here : ∀ location, places location → ∃ content content' text text',
    tree.lookup location = some (.file content) ∧ other.lookup location = some (.file content') ∧
      LinesAlike content content' text text'
  elsewhere : ∀ location, ¬ places location → tree.lookup location = other.lookup location

variable {places : Location → Prop} {tree other : FileTree} {root path : Path}

/-- A respaced tree is the same tree but for texts at the places that are respaced. -/
theorem Respaced.sameBut (respaced : Respaced places tree other) : SameBut places tree other where
  outline := {
    home := respaced.home
    nodes := by
      intro location
      by_cases changed : places location
      · obtain ⟨_, _, _, _, file, file', _⟩ := respaced.here location changed
        rw [file, file']
        rfl
      · rw [respaced.elsewhere location changed] }
  elsewhere := respaced.elsewhere

/-- A path reads as the same text in both trees, or as two texts with the same headings. -/
theorem Respaced.reads (respaced : Respaced places tree other) (path : Path) :
    tree.readText path = other.readText path ∨
      ∃ text text', tree.readText path = .ok text ∧ other.readText path = .ok text' ∧
        Heading.ofText text = Heading.ofText text' := by
  by_cases leads : ∃ location, tree.resolve path true = .ok location ∧ places location
  · obtain ⟨location, led, changed⟩ := leads
    obtain ⟨_, _, text, text', file, file', alike⟩ := respaced.here location changed
    have led' := led
    rw [respaced.sameBut.outline.resolve_eq] at led'
    exact .inr ⟨text, text', readText_of_resolve led file alike.spelled,
      readText_of_resolve led' file' alike.spelled', Heading.ofText_eq_of_sameLines alike.lines⟩
  · exact .inl (respaced.sameBut.readText_eq fun location led changed =>
      leads ⟨location, led, changed⟩)

/-- The same headings are missing from a respaced document. -/
theorem sections_respaced (respaced : Respaced places tree other) (entry : Entry) (name : String)
    (required : List String) :
    sections tree root path entry name required = sections other root path entry name required := by
  unfold sections
  rcases respaced.reads (root.join (.ofString name)) with
    same | ⟨text, text', read, read', headings⟩
  · rw [same]
  · simp only [read, read', headings]

/-- What is found of one document is the same in a respaced tree. -/
theorem found_respaced (respaced : Respaced places tree other) (entry : Entry) (spec : DocSpec) :
    found tree root path entry spec = found other root path entry spec := by
  simp only [found, document, respaced.sameBut.outline.has_eq, sections_respaced respaced]

theorem composes_eq : Findings.Composes Eq where
  nil := rfl
  append left right := by rw [left, right]

theorem related_eq {findings findings' : Findings} (same : findings = findings') :
    Findings.Related Eq findings findings' :=
  ⟨congrArg _ same, congrArg _ same⟩

/-- What is found in a manifest is the same if the manifest itself reads the same. -/
theorem related_manifest_respaced (respaced : Respaced places tree other)
    (apart : ∀ location, tree.resolve path true = .ok location → ¬ places location) :
    Findings.Related Eq (manifest tree root path) (manifest other root path) := by
  refine related_manifest (respaced.sameBut.readText_eq apart) (fun _ => rfl) (fun _ _ _ => rfl) ?_
  intro decoded _
  refine related_declared composes_eq (fun entry spec _ => ?_) fun name _ => ?_
  · exact related_eq (found_respaced respaced entry spec)
  · exact related_eq (by simp only [reference, respaced.sameBut.outline.has_eq])

/-- A run reports the same on a respaced tree, if no manifest is among what is respaced. -/
theorem run_respaced (respaced : Respaced places tree other)
    (unlisted : ∀ path ∈ tree.manifests (basePath root), ∀ location,
      tree.resolve path true = .ok location → ¬ places location) :
    run other root = run tree root := by
  have same := respaced.sameBut.outline
  obtain ⟨violations, documents⟩ : Findings.Related Eq
      (.gather (manifest tree root) (tree.manifests (basePath root)))
      (.gather (manifest other root) (tree.manifests (basePath root))) :=
    Findings.related_gather composes_eq fun path found =>
      related_manifest_respaced respaced (unlisted path found)
  simp only [run, ← same.has_eq, ← same.manifests_eq, violations, documents]

/-- A tree with a file in place of another differs in how its lines end, if both are so alike. -/
theorem respaced_insert {location : Location} {content content' : List UInt8} {text text' : String}
    (file : tree.lookup location = some (.file content))
    (alike : LinesAlike content content' text text') :
    Respaced (· = location) tree (tree.insert location (.file content')) where
  home := (tree.workingDirectory_insert location _).symm
  here place same := by
    subst same
    exact ⟨content, content', text, text', file, by rw [lookup_insert_file file, if_pos rfl], alike⟩
  elsewhere place apart := by rw [lookup_insert_file file, if_neg apart]

/-- **Line ends do not matter.** Texts have the same headings if they have as many line feeds and
what stands between these is the same up to blanks at its end: so it is with a carriage return put
in front of every line feed, and with blanks put at the end of a line. A run finds the same in two
trees if files that no discovered manifest leads to differ in that way. -/
theorem lineEnds_irrelevant :
    (∀ text other : String, SameLines text.toList other.toList →
      Heading.ofText text = Heading.ofText other) ∧
    (∀ text, SameLines text (withReturns text) ∧ SameLines (withReturns text) text) ∧
    (∀ front blanks rest : List Char, (∀ c ∈ blanks, isBlank c = true) → '\n' ∉ blanks →
      (rest = [] ∨ rest.head? = some '\n') →
        SameLines (front ++ rest) (front ++ (blanks ++ rest)) ∧
        SameLines (front ++ (blanks ++ rest)) (front ++ rest)) ∧
    ∀ (places : Location → Prop) (tree other : FileTree) (root : Path),
      Respaced places tree other →
      (∀ path ∈ tree.manifests (basePath root), ∀ location,
        tree.resolve path true = .ok location → ¬ places location) →
      run other root = run tree root := by
  refine ⟨fun _ _ => Heading.ofText_eq_of_sameLines, fun text => ?_, ?_, ?_⟩
  · exact ⟨sameLines_withReturns text, (sameLines_withReturns text).symm⟩
  · intro front blanks rest blank clean ends
    have same := sameLines_of_blanks front blank clean ends
    exact ⟨same, same.symm⟩
  · intro places tree other root respaced unlisted
    exact run_respaced respaced unlisted

/-- A document that gets blanks, a carriage return and a last line without an end. -/
theorem lineEnds_irrelevant_plainTree :
    SameLines "# A\n".toList "# A \t\r\n\r".toList ∧
    SameLines ("# A".toList ++ ['\n']) ("# A".toList ++ ([' ', '\t'] ++ ['\n'])) ∧
    Respaced (· = [Utf8.encode "d".toList]) plainTree
      (plainTree.insert [Utf8.encode "d".toList]
        (.file (Utf8.encode "# A \t\r\n\r".toList))) ∧
    (∀ path ∈ plainTree.manifests (basePath (.ofString ".")), ∀ location,
      plainTree.resolve path true = .ok location →
        ¬ location = [Utf8.encode "d".toList]) ∧
    Heading.ofText "# A\n" = Heading.ofText "# A \t\r\n\r" ∧
    run (plainTree.insert [Utf8.encode "d".toList]
        (.file (Utf8.encode "# A \t\r\n\r".toList))) (.ofString ".") =
      run plainTree (.ofString ".") := by
  have lines : SameLines "# A\n".toList "# A \t\r\n\r".toList :=
    List.Forall₂.cons (by decide) (.cons (by decide) .nil)
  have file : plainTree.lookup [Utf8.encode "d".toList] =
      some (.file (Utf8.encode "# A\n".toList)) := by decide +kernel
  have alike : LinesAlike (Utf8.encode "# A\n".toList) (Utf8.encode "# A \t\r\n\r".toList)
      "# A\n" "# A \t\r\n\r" :=
    ⟨by decide +kernel, by decide +kernel, lines⟩
  have unlisted : ∀ path ∈ plainTree.manifests (basePath (.ofString ".")), ∀ location,
      plainTree.resolve path true = .ok location →
        ¬ location = [Utf8.encode "d".toList] := by
    intro path found location leads same
    have apart : ∀ path ∈ plainTree.manifests (basePath (.ofString ".")),
        plainTree.resolve path true ≠ .ok [Utf8.encode "d".toList] := by decide +kernel
    exact apart path found (same ▸ leads)
  obtain ⟨headings, _, blanks, runs⟩ := lineEnds_irrelevant
  have blank : ∀ c ∈ [' ', '\t'], isBlank c = true :=
    List.forall_mem_cons.mpr ⟨by decide, List.forall_mem_singleton.mpr (by decide)⟩
  have spaced := blanks "# A".toList [' ', '\t'] ['\n'] blank (by decide) (.inr rfl)
  have respaced := respaced_insert file alike
  exact ⟨lines, spaced.1, respaced, unlisted, headings _ _ lines,
    runs _ _ _ _ respaced unlisted⟩

end Audit

end ExerciseAudit
