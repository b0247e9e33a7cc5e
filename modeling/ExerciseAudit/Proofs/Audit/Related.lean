import ExerciseAudit.Proofs.Audit.Dependence

/-!
# Related findings

Two audits are compared check by check. What is declared comes down to the documents of the two
kinds of entries and the references (`Audit.declared_eq_found`), so audits whose checks of these are
related, one to one, are related as a whole (`Audit.related_declared`), if the relation is one that
passes from parts to rows of them.
-/

namespace ExerciseAudit

namespace Findings

@[simp]
theorem gather_cons {α : Type} (check : α → Findings) (item : α) (rest : List α) :
    gather check (item :: rest) = check item ++ gather check rest := rfl

theorem gather_map {α β : Type} (check : β → Findings) (view : α → β) (items : List α) :
    gather check (items.map view) = gather (fun item => check (view item)) items := by
  unfold gather
  rw [List.foldr_map]

theorem none_append (findings : Findings) : none ++ findings = findings := by
  obtain ⟨violations, documents⟩ := findings
  exact congrArg (Findings.mk violations) (Nat.zero_add documents)

/-- Items of which a view shows nothing are not checked. -/
theorem gather_filterMap {α β : Type} (check : β → Findings) (view : α → Option β)
    (items : List α) :
    gather check (items.filterMap view) =
      gather (fun item => (view item).elim none check) items := by
  induction items with
  | nil => rfl
  | cons item rest ih =>
    rw [List.filterMap_cons, gather_cons, ← ih]
    cases view item with
    | none => rw [Option.elim_none, none_append]
    | some found => rw [Option.elim_some, gather_cons]

/-- Two findings count the same documents, and their violations are related. -/
structure Related (alike : List Violation → List Violation → Prop) (first second : Findings) :
    Prop where
  violations : alike first.violations second.violations
  documents : first.documents = second.documents

/-- A relation of rows that passes from parts to wholes. -/
structure Composes (alike : List Violation → List Violation → Prop) : Prop where
  nil : alike [] []
  append : ∀ {first second first' second'}, alike first first' → alike second second' →
    alike (first ++ second) (first' ++ second')

variable {alike : List Violation → List Violation → Prop}

theorem Related.none (composes : Composes alike) : Related alike .none .none :=
  ⟨composes.nil, rfl⟩

/-- Findings related part by part are related. -/
theorem Related.append (composes : Composes alike) {first second first' second' : Findings}
    (left : Related alike first first') (right : Related alike second second') :
    Related alike (first ++ second) (first' ++ second') :=
  ⟨composes.append left.violations right.violations,
    congrArg₂ (· + ·) left.documents right.documents⟩

/-- Checks related item by item give related findings. -/
theorem related_gather (composes : Composes alike) {α : Type} {check other : α → Findings}
    {items : List α} (each : ∀ item ∈ items, Related alike (check item) (other item)) :
    Related alike (gather check items) (gather other items) := by
  induction items with
  | nil => exact .none composes
  | cons item rest ih =>
    obtain ⟨here, later⟩ := List.forall_mem_cons.mp each
    exact here.append composes (ih later)

end Findings

namespace Audit

open Findings (Related Composes)

/-- Check a document that an entry declares. -/
def found (tree : FileTree) (root path : Path) (entry : Entry) (spec : DocSpec) : Findings :=
  ⟨document tree root path entry spec, (tree.has (root.join (.ofString spec.path))).toNat⟩

variable {tree other : FileTree} {root root' path path' : Path} {manifest : Manifest}

/-- A document entry asks for its document. -/
theorem doc_eq_found (spec : DocSpec) :
    doc tree root path spec = found tree root path .doc spec := by
  unfold doc found document
  split
  case isTrue present => rw [present]; rfl
  case isFalse absent => rw [Bool.not_eq_true] at absent; rw [absent]; rfl

theorem output_eq_found (spec : OutputSpec) :
    output tree root path spec = spec.document?.elim .none (found tree root path .fixture) := by
  unfold output found document OutputSpec.document?
  cases spec.fixturePath? with
  | none => rfl
  | some fixture =>
    simp only [Option.map_some, Option.elim_some]
    split
    case isTrue present => rw [present]; rfl
    case isFalse absent => rw [Bool.not_eq_true] at absent; rw [absent]; rfl

/-- What a manifest declares is checked by the documents of its entries and its references. An
output without a fixture has no part in it. -/
theorem declared_eq_found (tree : FileTree) (root path : Path) (manifest : Manifest) :
    declared tree root path manifest =
      .gather (found tree root path .doc) (manifest.docs.map DocRef.spec) ++
        .gather (reference tree root path) manifest.references ++
        .gather (found tree root path .fixture)
          (manifest.outputs.filterMap OutputSpec.document?) := by
  unfold declared
  rw [Findings.gather_filterMap, Findings.gather_congr fun spec _ => doc_eq_found spec,
    Findings.gather_congr fun spec _ => output_eq_found spec]

/-- Findings in what a manifest declares are related if they are so document by document and
reference by reference. -/
theorem related_declared {alike : List Violation → List Violation → Prop}
    (composes : Composes alike)
    (documents : ∀ entry spec, manifest.Declares spec →
      Related alike (found tree root path entry spec) (found other root' path' entry spec))
    (references : ∀ name ∈ manifest.references,
      Related alike (reference tree root path name) (reference other root' path' name)) :
    Related alike (declared tree root path manifest) (declared other root' path' manifest) := by
  have docs : Related alike (.gather (found tree root path .doc) (manifest.docs.map DocRef.spec))
      (.gather (found other root' path' .doc) (manifest.docs.map DocRef.spec)) :=
    Findings.related_gather composes fun spec given =>
      documents .doc spec (Manifest.declares_iff.mpr (List.mem_append_left _ given))
  have outputs : Related alike
      (.gather (found tree root path .fixture) (manifest.outputs.filterMap OutputSpec.document?))
      (.gather (found other root' path' .fixture)
        (manifest.outputs.filterMap OutputSpec.document?)) :=
    Findings.related_gather composes fun spec given =>
      documents .fixture spec (Manifest.declares_iff.mpr (List.mem_append_right _ given))
  rw [declared_eq_found, declared_eq_found]
  exact (docs.append composes (Findings.related_gather composes references)).append composes outputs

/-- Findings in a manifest that reads alike in two trees are related if the two ways of refusing it
are, and what is found in it once it is decoded. -/
theorem related_manifest {alike : List Violation → List Violation → Prop}
    (read : tree.readText path = other.readText path')
    (unreadable : ∀ fault, alike [.unreadableManifest path fault] [.unreadableManifest path' fault])
    (invalid : ∀ reason line column,
      alike [.invalidManifest path reason line column] [.invalidManifest path' reason line column])
    (declares : ∀ decoded, load tree path = .ok decoded →
      Related alike (declared tree root path decoded) (declared other root' path' decoded)) :
    Related alike (Audit.manifest tree root path) (Audit.manifest other root' path') := by
  unfold Audit.manifest load
  rw [← read]
  cases written : tree.readText path with
  | error fault => exact ⟨unreadable _, rfl⟩
  | ok text =>
    cases given : Manifest.ofText text with
    | error refusal =>
      simp only [given]
      exact ⟨invalid _ _ _, rfl⟩
    | ok decoded =>
      simp only [given]
      exact declares decoded (load_eq_ok_iff.mpr ⟨text, written, given⟩)

end Audit

end ExerciseAudit
