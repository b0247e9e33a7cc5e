import ExerciseAudit.Proofs.Audit.Dependence
import ExerciseAudit.Proofs.FileTree.Content
import ExerciseAudit.Proofs.FileTree.Reading

/-!
# Which files matter

A run reads the files to which discovered manifests lead, and those to which documents lead of which
such a manifest requires sections (`Audit.Consulted`). What any other file contains has no influence
on the report (`Audit.content_irrelevant`), even if it is declared without required sections or is a
manifest that stands elsewhere.
-/

namespace ExerciseAudit

open FileTree

namespace Audit

variable {tree other : FileTree} {root path : Path} {location : Location}

/-- A document leads to a location of which a discovered manifest requires sections. -/
def RequiredAt (tree : FileTree) (root : Path) (location : Location) : Prop :=
  ∃ path ∈ tree.manifests (basePath root), ∃ decoded, load tree path = .ok decoded ∧
    ∃ spec, decoded.Declares spec ∧ spec.requiredSections ≠ [] ∧
      tree.resolve (root.join (.ofString spec.path)) true = .ok location

/-- A link leads to a location that is discovered as a manifest. -/
def LinkedAt (tree : FileTree) (root : Path) (location : Location) : Prop :=
  ∃ path ∈ tree.manifests (basePath root), ∃ target, tree.nodeAt? path = some (.link target) ∧
    tree.resolve path true = .ok location

/-- A location is not below the directory to which the base leads. -/
def OutsideBase (tree : FileTree) (root : Path) (location : Location) : Prop :=
  ∀ base, tree.resolve (basePath root) true = .ok base → ¬ base <+: location

/-- A run reads the file at a location: a discovered manifest leads there, or a document of which
such a manifest requires sections. -/
inductive Consulted (tree : FileTree) (root : Path) (location : Location) : Prop
  | manifest {path : Path} (found : path ∈ tree.manifests (basePath root))
    (leads : tree.resolve path true = .ok location)
  | document (required : RequiredAt tree root location)

/-- A run finds the same in trees that differ only in files that it does not read. -/
theorem run_eq_of_sameBut {places : Location → Prop} (same : SameBut places tree other)
    (unread : ∀ location, places location → ¬ Consulted tree root location) :
    run tree root = run other root := by
  have checks : ∀ path ∈ tree.manifests (basePath root),
      manifest tree root path = manifest other root path := by
    intro path found
    apply manifest_eq
    · exact same.readText_eq fun location leads differs =>
        unread location differs (.manifest found leads)
    · intro decoded loaded
      refine ⟨fun _ _ => same.outline.has_eq _, fun spec declared required => ?_⟩
      unfold ReadsAlike
      rw [same.readText_eq fun location leads differs =>
        unread location differs (.document ⟨path, found, decoded, loaded, spec, declared, required,
          leads⟩)]
  have findings : Findings.gather (manifest tree root) (tree.manifests (basePath root)) =
      Findings.gather (manifest other root) (tree.manifests (basePath root)) :=
    Findings.gather_congr checks
  simp only [run, ← same.outline.has_eq, ← same.outline.manifests_eq, findings]

/-- Outside the base, a run reads only where links or documents lead. -/
theorem Consulted.linked_or_required (consulted : Consulted tree root location)
    (outside : OutsideBase tree root location) :
    LinkedAt tree root location ∨ RequiredAt tree root location := by
  cases consulted with
  | document required => exact .inr required
  | @manifest path found leads =>
    obtain ⟨node, met, named, file⟩ := mem_manifests_iff.mp found
    have short := (resolve_ok leads).2.2.1
    by_cases isLink : ∃ target, node = .link target
    · obtain ⟨target, rfl⟩ := isLink
      exact .inl ⟨path, found, target, nodeAt?_of_mem_entriesFrom met short, leads⟩
    · rcases mem_entriesFrom_iff.mp met with ⟨rfl, _⟩ | ⟨base, led, _, below⟩
      · simp [isManifestName_lastName_basePath] at named
      · obtain ⟨names, _, resolved⟩ := resolve_of_mem_entriesBelow led below
          (fun target same => isLink ⟨target, same⟩) short
        rw [leads] at resolved
        cases resolved
        exact absurd (List.prefix_append base names) (outside base led)

/-- **Content is read in scope alone.** Other content in a file that a run does not read changes
nothing in the report. So it is with a file outside the base unless a link to it is discovered as a
manifest, or a manifest requires sections of it. -/
theorem content_irrelevant {old : List UInt8} (file : tree.lookup location = some (.file old))
    (content : List UInt8) :
    (¬ Consulted tree root location →
      run (tree.insert location (.file content)) root = run tree root) ∧
    (OutsideBase tree root location → ¬ LinkedAt tree root location →
      ¬ RequiredAt tree root location →
        run (tree.insert location (.file content)) root = run tree root) := by
  have unread (apart : ¬ Consulted tree root location) :
      run (tree.insert location (.file content)) root = run tree root :=
    (run_eq_of_sameBut (sameBut_insert file) fun _ same => same ▸ apart).symm
  refine ⟨unread, fun outside unlinked free => unread fun consulted => ?_⟩
  rcases consulted.linked_or_required outside with linked | required
  · exact unlinked linked
  · exact free required

/-- A tree with two more files, which nothing declares: one of a manifest's name outside the base, and
a configuration file. -/
def widerTree : FileTree :=
  (plainTree.put (.ofString "e.manifest.json") (.file (Utf8.encode "\x7b".toList))).put
    (.ofString "exverify.toml") (.file (Utf8.encode "output = \"json\"".toList))

/-- A run on this tree looks into the manifest below its base and into the document that this
declares. -/
theorem consulted_widerTree (consulted : Consulted widerTree (.ofString ".") location) :
    location = ["w", "docs", "exercises", "m.manifest.json"].map (Utf8.encode ·.toList) ∨
      location = [Utf8.encode "d".toList] := by
  have only : widerTree.manifests (basePath (.ofString ".")) =
      [.ofString "./docs/exercises/m.manifest.json"] := by decide +kernel
  rcases consulted with ⟨found, leads⟩ | ⟨_, found, _, loaded, _, declared, _, leads⟩
  · have here : widerTree.resolve (.ofString "./docs/exercises/m.manifest.json") true = .ok
        (["w", "docs", "exercises", "m.manifest.json"].map (Utf8.encode ·.toList)) := by
      decide +kernel
    rw [only, List.mem_singleton] at found
    rw [found, here] at leads
    cases leads
    exact .inl rfl
  · have loads : load widerTree (.ofString "./docs/exercises/m.manifest.json") =
        .ok ⟨[.record ⟨"/d", ["A", "B"]⟩], ["../r"], []⟩ := by decide +kernel
    have there : widerTree.resolve ((Path.ofString ".").join (.ofString "/d")) true =
        .ok [Utf8.encode "d".toList] := by decide +kernel
    rw [only, List.mem_singleton] at found
    rw [found, loads] at loaded
    cases loaded
    obtain rfl := List.mem_singleton.mp (Manifest.declares_iff.mp declared)
    rw [DocRef.spec, there] at leads
    cases leads
    exact .inr rfl

/-- A manifest beside the base is not consulted, and may hold anything. -/
theorem content_irrelevant_widerTree :
    widerTree.lookup (["w", "e.manifest.json"].map (Utf8.encode ·.toList)) =
      some (.file (Utf8.encode "\x7b".toList)) ∧
    ¬ Consulted widerTree (.ofString ".")
      (["w", "e.manifest.json"].map (Utf8.encode ·.toList)) ∧
    run (widerTree.insert (["w", "e.manifest.json"].map (Utf8.encode ·.toList)) (.file [0xFF]))
      (.ofString ".") = run widerTree (.ofString ".") := by
  have file : widerTree.lookup (["w", "e.manifest.json"].map (Utf8.encode ·.toList)) =
      some (.file (Utf8.encode "\x7b".toList)) := by decide +kernel
  have unread : ¬ Consulted widerTree (.ofString ".")
      (["w", "e.manifest.json"].map (Utf8.encode ·.toList)) :=
    fun consulted => absurd (consulted_widerTree consulted) (by decide +kernel)
  exact ⟨file, unread, (content_irrelevant file [0xFF]).1 unread⟩

end Audit

end ExerciseAudit
