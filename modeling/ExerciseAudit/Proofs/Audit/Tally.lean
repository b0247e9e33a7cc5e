import ExerciseAudit.Proofs.Audit.Related

/-!
# The counts of a report

Each declared document is counted, or it is reported missing, and never both. The two kinds of
finding are made apart from each other, so this balance is kept for each check and carried through
everything that is checked (`Audit.summary_exact`). What fails to be a manifest declares nothing,
and a document that cannot be read is counted like any other.
-/

namespace ExerciseAudit

/-- Whether a violation says that a document of an entry is not there. -/
def Violation.isMissing : Entry → Violation → Bool
  | .doc, .missingDoc .. => true
  | .fixture, .missingFixture .. => true
  | _, _ => false

/-- How many documents of an entry some violations report missing. -/
def missingCount (entry : Entry) (violations : List Violation) : Nat :=
  violations.countP (Violation.isMissing entry)

/-- Whether an output has a fixture; an empty path is none. -/
def OutputSpec.hasFixture (output : OutputSpec) : Bool :=
  output.fixture.any (· ≠ "")

/-- The path that an entry of `docs` is written with. -/
def DocRef.name : DocRef → String
  | path bare => bare
  | record full => full.path

/-- The document that an entry declares is the one that the code takes it for. -/
theorem DocRef.name_eq (written : DocRef) : written.name = written.spec.path := by
  cases written <;> rfl

theorem sum_map_toNat {α : Type} (items : List α) (holds : α → Bool) :
    (items.map fun item => (holds item).toNat).sum = items.countP holds := by
  induction items with
  | nil => rfl
  | cons item rest ih => cases given : holds item <;> simp [given, ih]; omega

/-- Adding up what some items are made into, those of which nothing is made count for nothing. -/
theorem sum_map_filterMap {α β : Type} (made : α → Option β) (size : β → Nat) (items : List α) :
    ((items.filterMap made).map size).sum =
      (items.map fun item => (made item).elim 0 size).sum := by
  induction items with
  | nil => rfl
  | cons item rest ih => cases given : made item <;> simp [given, ih]

namespace Findings

/-- Findings count the documents that are there, and with those that are reported missing they come
to all that are declared. -/
structure Tallies (findings : Findings) (declared present : Nat) : Prop where
  present : findings.documents = present
  declared : findings.documents + missingCount .doc findings.violations +
    missingCount .fixture findings.violations = declared

theorem tallies_none : Tallies none 0 0 := ⟨rfl, rfl⟩

/-- Counts of two findings add up. -/
theorem Tallies.append {first second : Findings} {declared present declared' present' : Nat}
    (left : Tallies first declared present) (right : Tallies second declared' present') :
    Tallies (first ++ second) (declared + declared') (present + present') where
  present := by
    rw [← left.present, ← right.present]
    rfl
  declared := by
    have violations : (first ++ second).violations = first.violations ++ second.violations := rfl
    have documents : (first ++ second).documents = first.documents + second.documents := rfl
    rw [← left.declared, ← right.declared, violations, documents]
    simp only [missingCount, List.countP_append]
    omega

/-- Counts of several checks add up. -/
theorem tallies_gather {α : Type} {check : α → Findings} {declared present : α → Nat}
    (each : ∀ item, Tallies (check item) (declared item) (present item)) (items : List α) :
    Tallies (gather check items) (items.map declared).sum (items.map present).sum := by
  induction items with
  | nil => exact tallies_none
  | cons item rest ih => exact (each item).append ih

/-- Checks each of which is for at most one document tally with how many are for one, and how many
of these are there. -/
theorem tallies_gather_countP {α : Type} {check : α → Findings} {declared present : α → Bool}
    (each : ∀ item, Tallies (check item) (declared item).toNat (present item).toNat)
    (items : List α) :
    Tallies (gather check items) (items.countP declared) (items.countP present) := by
  have all := tallies_gather each items
  rwa [sum_map_toNat, sum_map_toNat] at all

end Findings

namespace Manifest

/-- How many documents a manifest declares. -/
def documentCount (manifest : Manifest) : Nat :=
  manifest.docs.length + manifest.outputs.countP OutputSpec.hasFixture

/-- How many of the documents that a manifest declares are there. -/
def presentCount (manifest : Manifest) (tree : FileTree) (root : Path) : Nat :=
  manifest.docs.countP (fun entry => tree.has (root.join (.ofString entry.name))) +
    manifest.outputs.countP fun output =>
      output.fixture.any fun path => path ≠ "" && tree.has (root.join (.ofString path))

end Manifest

namespace Audit

open Findings (Tallies)

/-- The manifest at a path, if there is one that can be read and decoded. -/
def decodedAt? (tree : FileTree) (path : Path) : Option Manifest :=
  (tree.readText path).toOption.bind fun text => (Manifest.ofText text).toOption

/-- The manifests that can be read and decoded, in the order in which they are found. -/
def decoded (tree : FileTree) (root : Path) : List Manifest :=
  (tree.manifests (basePath root)).filterMap (decodedAt? tree)

variable (tree : FileTree) (root path : Path)

/-- What is wrong with a document that is there is not that it is missing. -/
theorem missingCount_sections (entry declaring : Entry) (name : String) (required : List String) :
    missingCount entry (sections tree root path declaring name required) = 0 := by
  unfold sections missingCount
  rw [List.countP_eq_zero]
  intro violation member
  split at member
  · cases member
  · split at member
    · obtain rfl := List.mem_singleton.mp member
      cases entry <;> simp [Violation.isMissing]
    · obtain ⟨heading, _, rfl⟩ := List.mem_map.mp member
      cases entry <;> simp [Violation.isMissing]

/-- A document counts as declared, and as present if it is there. -/
theorem tallies_found (entry : Entry) (spec : DocSpec) :
    Tallies (found tree root path entry spec) 1
      (tree.has (root.join (.ofString spec.path))).toNat := by
  unfold found document
  split
  case isTrue present =>
    rw [present]
    exact ⟨rfl, by simp only [missingCount_sections]; rfl⟩
  case isFalse absent =>
    rw [Bool.not_eq_true] at absent
    rw [absent]
    exact ⟨rfl, by cases entry <;> rfl⟩

theorem tallies_reference (name : String) : Tallies (reference tree root path name) 0 0 := by
  unfold reference
  split
  · exact Findings.tallies_none
  · exact ⟨rfl, rfl⟩

/-- An output counts like the document it names, and for nothing if it names none. -/
theorem tallies_output (spec : OutputSpec) :
    Tallies (output tree root path spec) spec.hasFixture.toNat
      (spec.fixture.any fun path =>
        path ≠ "" && tree.has (root.join (.ofString path))).toNat := by
  obtain ⟨fixture, required⟩ := spec
  rw [output_eq_found]
  unfold OutputSpec.document? OutputSpec.fixturePath? OutputSpec.hasFixture
  cases fixture with
  | none => exact Findings.tallies_none
  | some fixture =>
    by_cases vacant : fixture = ""
    · subst vacant
      exact Findings.tallies_none
    · have tallies := tallies_found tree root path .fixture ⟨fixture, required⟩
      simpa [Option.filter, vacant] using tallies

/-- What is counted of a decoded manifest is what it declares and what is there of that. -/
theorem tallies_declared (manifest : Manifest) :
    Tallies (declared tree root path manifest) manifest.documentCount
      (manifest.presentCount tree root) := by
  let entry (written : DocRef) : Findings := found tree root path .doc written.spec
  have docs : Tallies (.gather entry manifest.docs) (manifest.docs.countP fun _ => true) _ :=
    Findings.tallies_gather_countP
      (fun written => written.name_eq ▸ tallies_found tree root path .doc written.spec) _
  have references : Tallies (.gather (reference tree root path) manifest.references)
      (manifest.references.map fun _ => 0).sum (manifest.references.map fun _ => 0).sum :=
    Findings.tallies_gather (tallies_reference tree root path) _
  have outputs := Findings.tallies_gather_countP (tallies_output tree root path) manifest.outputs
  have all := (docs.append references).append outputs
  simp only [List.countP_true, List.map_const', List.sum_replicate_nat, mul_zero, add_zero] at all
  unfold declared
  rw [Findings.gather_map, Findings.gather_congr fun written _ => doc_eq_found written.spec]
  exact all

/-- A manifest that does not decode counts for nothing. -/
theorem tallies_manifest :
    Tallies (manifest tree root path) ((decodedAt? tree path).elim 0 Manifest.documentCount)
      ((decodedAt? tree path).elim 0 (Manifest.presentCount · tree root)) := by
  unfold manifest load decodedAt?
  cases tree.readText path with
  | error fault => exact ⟨rfl, rfl⟩
  | ok text =>
    simp only [Except.toOption, Option.bind_some]
    cases Manifest.ofText text with
    | error refusal => exact ⟨rfl, rfl⟩
    | ok manifest => exact tallies_declared tree root path manifest

/-- **The summary accounts for the report.** It counts the violations. With a base, it counts the
manifests that are found, and the documents that are there of those that readable manifests declare:
together with the documents that are reported missing, these are all that are declared. Without a
base there is one violation and nothing else. -/
theorem summary_exact (tree : FileTree) (root : Path) :
    (run tree root).summary.errors = (run tree root).violations.length ∧
    if tree.has (basePath root) then
      (run tree root).summary.manifests = (tree.manifests (basePath root)).length ∧
      (run tree root).summary.documents + missingCount .doc (run tree root).violations +
        missingCount .fixture (run tree root).violations =
          ((decoded tree root).map Manifest.documentCount).sum ∧
      (run tree root).summary.documents =
        ((decoded tree root).map (Manifest.presentCount · tree root)).sum
    else (run tree root).summary = ⟨1, 0, 0⟩ := by
  by_cases base : tree.has (basePath root) = true
  · have all := Findings.tallies_gather (tallies_manifest tree root)
      (tree.manifests (basePath root))
    rw [← sum_map_filterMap, ← sum_map_filterMap] at all
    simp only [run, base, ↓reduceIte, true_and]
    exact ⟨all.declared, all.present⟩
  · simp [run, base]

end Audit

end ExerciseAudit
