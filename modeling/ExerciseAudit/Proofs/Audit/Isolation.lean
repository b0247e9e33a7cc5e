import ExerciseAudit.Proofs.Audit.Dependence
import ExerciseAudit.Proofs.FileTree.Reading

/-!
# Manifests are checked apart

What a run reports of one manifest stands together, and nothing else in the report belongs to that
manifest. It is settled by the content of the manifest and by what the manifest declares: two trees
that agree on these report the same of it (`Audit.manifest_isolated`), whatever other manifests
either of them holds.
-/

namespace ExerciseAudit.Audit

variable {tree other : FileTree} {root path : Path} {violation : Violation}

/-- What breaks an obligation of a manifest is reported under that manifest. -/
theorem Breaks.manifest?_eq {part : Part} (broken : Breaks tree root path part violation) :
    violation.manifest? = some path := by
  cases broken with
  | unreadable => rfl
  | invalid => rfl
  | declared _ _ broken =>
    cases broken with
    | reference => rfl
    | @document entry _ _ _ _ _ broken =>
      cases broken with
      | missing => cases entry <;> rfl
      | unreadable => rfl
      | heading => rfl

/-- A manifest that is decoded is decoded from what is read of the file to which its path leads. -/
theorem exists_text_of_target? {file : Node} {decoded : Manifest}
    (ends : tree.target? path = some file) (loaded : load tree path = .ok decoded) :
    ∃ text, file.read = .ok text ∧ Manifest.ofText text = .ok decoded := by
  obtain ⟨text, read, given⟩ := load_eq_ok_iff.mp loaded
  rw [FileTree.readText_of_target? ends] at read
  exact ⟨text, read, given⟩

/-- A manifest that is decoded is decoded from what is read of the file as which it is discovered. -/
theorem exists_text_of_load {base : Path} {file : Node} {decoded : Manifest}
    (discovered : tree.Discovered base path file) (loaded : load tree path = .ok decoded) :
    ∃ text, file.read = .ok text ∧ Manifest.ofText text = .ok decoded := by
  obtain ⟨text, read, _⟩ := load_eq_ok_iff.mp loaded
  have short : path.bytes.length < pathByteLimit := by
    by_contra long
    obtain ⟨fault, nowhere⟩ := tree.exists_resolve_eq_error_of_long (Nat.not_lt.mp long) true
    simp [FileTree.readText, nowhere] at read
  exact exists_text_of_target? (FileTree.target?_of_discovered discovered short) loaded

/-- What is found in a manifest belongs to it. -/
theorem manifest?_of_mem (member : violation ∈ (manifest tree root path).violations) :
    violation.manifest? = some path := by
  obtain ⟨_, broken⟩ := ((accounts_manifest tree root path).mem_iff violation).mp member
  exact broken.manifest?_eq

/-- Violations of a run are those of its manifests, one manifest behind the other. -/
theorem violations_run (base : tree.has (basePath root) = true) :
    (run tree root).violations =
      (tree.manifests (basePath root)).flatMap fun path => (manifest tree root path).violations := by
  unfold run
  rw [if_pos base]
  exact Findings.violations_gather _ _

/-- What is found in a discovered manifest stands in one place of a report, and nothing else in the
report belongs to it. -/
theorem exists_violations_run_eq (base : tree.has (basePath root) = true)
    (found : path ∈ tree.manifests (basePath root)) :
    ∃ before after,
      (run tree root).violations = before ++ (manifest tree root path).violations ++ after ∧
        ∀ violation ∈ before ++ after, violation.manifest? ≠ some path := by
  have distinct := tree.nodup_manifests (basePath root)
  obtain ⟨front, back, split⟩ := List.append_of_mem found
  rw [split, List.nodup_middle, List.nodup_cons] at distinct
  refine ⟨front.flatMap fun path => (manifest tree root path).violations,
    back.flatMap fun path => (manifest tree root path).violations, ?_, ?_⟩
  · rw [violations_run base, split, List.flatMap_append, List.flatMap_cons, List.append_assoc]
  · intro violation member same
    rw [← List.flatMap_append] at member
    obtain ⟨origin, listed, inside⟩ := List.mem_flatMap.mp member
    have owner : origin = path := Option.some.inj ((manifest?_of_mem inside).symm.trans same)
    exact distinct.1 (owner ▸ listed)

/-- **Manifests are isolated.** A manifest that is discovered as the same file in two trees, which
agree on what it declares, has the same violations in the reports on both. In each of the reports
they stand together, and no other violation there belongs to the manifest. -/
theorem manifest_isolated {file : Node} (base : tree.has (basePath root) = true)
    (otherBase : other.has (basePath root) = true)
    (discovered : tree.Discovered (basePath root) path file)
    (otherDiscovered : other.Discovered (basePath root) path file)
    (agree : ∀ text decoded, file.read = .ok text → Manifest.ofText text = .ok decoded →
      Agree tree other root decoded) :
    ∃ block before after before' after',
      (run tree root).violations = before ++ block ++ after ∧
      (run other root).violations = before' ++ block ++ after' ∧
      (∀ violation ∈ block, violation.manifest? = some path) ∧
      (∀ violation ∈ before ++ after, violation.manifest? ≠ some path) ∧
      ∀ violation ∈ before' ++ after', violation.manifest? ≠ some path := by
  have same : manifest tree root path = manifest other root path := by
    apply manifest_eq (FileTree.readText_eq_of_discovered discovered otherDiscovered)
    intro decoded loaded
    obtain ⟨text, read, given⟩ := exists_text_of_load discovered loaded
    exact agree text decoded read given
  obtain ⟨before, after, here, apart⟩ := exists_violations_run_eq base discovered.found
  obtain ⟨before', after', there, apart'⟩ :=
    exists_violations_run_eq otherBase otherDiscovered.found
  rw [← same] at there
  exact ⟨_, before, after, before', after', here, there, fun _ => manifest?_of_mem, apart, apart'⟩

/-- A tree with one more manifest, which is broken and stands in front of the other. -/
def crowdedTree : FileTree :=
  plainTree.put (.ofString "docs/exercises/a.manifest.json") (.file (Utf8.encode "\x7b".toList))

/-- With the further manifest, the tree agrees with what it was before on all that the other manifest
declares. -/
theorem agree_plainTree_crowdedTree :
    Agree plainTree crowdedTree (.ofString ".") ⟨[.record ⟨"/d", ["A", "B"]⟩], ["../r"], []⟩ where
  present name named := by
    have checked : ∀ name ∈ (⟨[.record ⟨"/d", ["A", "B"]⟩], ["../r"], []⟩ : Manifest).paths,
        plainTree.has ((Path.ofString ".").join (.ofString name)) =
          crowdedTree.has ((Path.ofString ".").join (.ofString name)) := by decide +kernel
    exact checked name (Manifest.names_iff.mp named)
  read spec declared _ := by
    obtain rfl : spec = ⟨"/d", ["A", "B"]⟩ := by
      simpa [Manifest.documents, DocRef.spec] using Manifest.declares_iff.mp declared
    unfold FileTree.ReadsAlike
    decide +kernel

/-- The shared manifest's violations stand together in both reports. -/
theorem manifest_isolated_plainTree_crowdedTree :
    plainTree.has (basePath (.ofString ".")) = true ∧
    crowdedTree.has (basePath (.ofString ".")) = true ∧
    ∃ block before after before' after',
      (run plainTree (.ofString ".")).violations = before ++ block ++ after ∧
      (run crowdedTree (.ofString ".")).violations = before' ++ block ++ after' ∧
      (∀ violation ∈ block,
        violation.manifest? = some (.ofString "./docs/exercises/m.manifest.json")) ∧
      (∀ violation ∈ before ++ after,
        violation.manifest? ≠ some (.ofString "./docs/exercises/m.manifest.json")) ∧
      ∀ violation ∈ before' ++ after',
        violation.manifest? ≠ some (.ofString "./docs/exercises/m.manifest.json") := by
  have base : plainTree.has (basePath (.ofString ".")) = true := by decide +kernel
  have otherBase : crowdedTree.has (basePath (.ofString ".")) = true := by decide +kernel
  have discovered : plainTree.Discovered (basePath (.ofString "."))
      (.ofString "./docs/exercises/m.manifest.json") (.file (Utf8.encode sharedText.toList)) :=
    .file (by decide +kernel) (by decide +kernel) rfl
  have otherDiscovered : crowdedTree.Discovered (basePath (.ofString "."))
      (.ofString "./docs/exercises/m.manifest.json") (.file (Utf8.encode sharedText.toList)) :=
    .file (by decide +kernel) (by decide +kernel) rfl
  refine ⟨base, otherBase, manifest_isolated base otherBase discovered otherDiscovered ?_⟩
  intro text decoded read given
  have characters : (Node.file (Utf8.encode sharedText.toList)).read = .ok sharedText := by
    decide +kernel
  have declares : Manifest.ofText sharedText =
      .ok ⟨[.record ⟨"/d", ["A", "B"]⟩], ["../r"], []⟩ := by decide +kernel
  rw [characters] at read
  cases read
  rw [declares] at given
  cases given
  exact agree_plainTree_crowdedTree

end ExerciseAudit.Audit
