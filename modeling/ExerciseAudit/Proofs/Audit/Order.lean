import ExerciseAudit.Proofs.Audit.Obligation
import ExerciseAudit.Proofs.Manifest.Members

/-!
# The order of a report

The violations of a run follow the manifests in the order of their paths, and in each manifest the
sections in one fixed order and then the order of declaration. Where the sections stand in the text
of a manifest has no part in it.
-/

namespace ExerciseAudit.Audit

open Json

variable {tree : FileTree} {root path : Path}

/-- What a manifest that decodes declares is all that is looked at. -/
theorem manifest_eq_declared {text : String} {decoded : Manifest}
    (read : tree.readText path = .ok text)
    (given : (Manifest.ofText text).toOption = some decoded) :
    manifest tree root path = declared tree root path decoded := by
  unfold manifest load
  rw [read]
  cases result : Manifest.ofText text with
  | error refusal =>
    rw [result] at given
    cases given
  | ok other =>
    rw [result] at given
    cases given
    simp only [result]

/-- What is found in a manifest is what its members declare in any other order of theirs. -/
theorem manifest_eq_declared_of_perm {members others : List (Member Writing)}
    (same : members.Perm others) {before opening after before' opening' after' : List Blank}
    {decoded : Manifest} (read : tree.readText path = .ok (objectText before opening members after))
    (given : Manifest.ofText (objectText before' opening' others after') = .ok decoded) :
    manifest tree root path = declared tree root path decoded := by
  apply manifest_eq_declared read
  rw [Manifest.toOption_ofText_perm same before opening after before' opening' after', given]
  rfl

/-- **Violations are ordered.** The violations of a run are those of the broken obligations of
discovered manifests, in the strictly increasing order of the obligations' keys. What is found in a
manifest is the same, in the same order, as what its text declares with the members rearranged. -/
theorem violations_ordered (base : tree.has (basePath root) = true) :
    (∃ located : List ((Path × Part) × Violation),
      located.map Prod.snd = (run tree root).violations ∧
      (located.Pairwise fun first second => key tree root first.1 < key tree root second.1) ∧
      ∀ obligation violation, (obligation, violation) ∈ located ↔
        obligation.1 ∈ tree.manifests (basePath root) ∧
          Breaks tree root obligation.1 obligation.2 violation) ∧
    ∀ (path : Path) (before opening after before' opening' after' : List Blank)
      (members others : List (Member Writing)) (decoded : Manifest), members.Perm others →
        tree.readText path = .ok (objectText before opening members after) →
        Manifest.ofText (objectText before' opening' others after') = .ok decoded →
        manifest tree root path = declared tree root path decoded := by
  refine ⟨accounts_run base, ?_⟩
  intro path before opening after before' opening' after' members others decoded same read given
  exact manifest_eq_declared_of_perm same read given

/-- A tree with one manifest, which declares an output in front of a document. -/
def declaringTree : FileTree where
  entries := [
    ([Utf8.encode "docs".toList], .directory),
    ([Utf8.encode "docs".toList, Utf8.encode "exercises".toList], .directory),
    ([Utf8.encode "docs".toList, Utf8.encode "exercises".toList, Utf8.encode manifestSuffix],
      .file (Utf8.encode
        "\x7b\"outputs\":[\x7b\"fixture\":\"f\"\x7d],\"docs\":[\"d\"]\x7d".toList))]
  workingDirectory := []
  distinct := by decide +kernel
  below := by decide +kernel
  named := by decide +kernel
  held := by decide +kernel
  settled := .inl rfl

/-- A missing document and a missing fixture, in the order of the lists that declare them. -/
theorem violations_ordered_declaringTree :
    declaringTree.has (basePath (.ofString ".")) = true ∧
      ∃ located : List ((Path × Part) × Violation),
        located.map Prod.snd =
          [.missingDoc ((basePath (.ofString ".")).join ⟨Utf8.encode manifestSuffix⟩) "d",
            .missingFixture ((basePath (.ofString ".")).join ⟨Utf8.encode manifestSuffix⟩) "f"] ∧
        located.Pairwise fun first second =>
          key declaringTree (.ofString ".") first.1 <
            key declaringTree (.ofString ".") second.1 := by
  have base : declaringTree.has (basePath (.ofString ".")) = true := by decide +kernel
  have found : (run declaringTree (.ofString ".")).violations =
      [.missingDoc ((basePath (.ofString ".")).join ⟨Utf8.encode manifestSuffix⟩) "d",
        .missingFixture ((basePath (.ofString ".")).join ⟨Utf8.encode manifestSuffix⟩) "f"] := by
    decide +kernel
  obtain ⟨located, violations, ordered, _⟩ := (violations_ordered base).1
  exact ⟨base, located, violations.trans found, ordered⟩

end ExerciseAudit.Audit
