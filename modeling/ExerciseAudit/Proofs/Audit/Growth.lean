import ExerciseAudit.Proofs.Audit.Appending
import Mathlib.Data.List.Forall2

/-!
# Manifests that ask for more

A manifest `Grows` when entries are put into its lists and sections into the lists that its records
require, at any places. Each check stands alone, so whatever was found of the smaller manifest is
found of the larger one, in the same order and with more in between, and no fewer documents are
counted (`Audit.growth_hides_nothing`).
-/

namespace ExerciseAudit

open FileTree

/-- An entry of `docs` with any sections added to those that it requires. A bare path has no place
for them. -/
inductive DocRef.Grows : DocRef → DocRef → Prop
  | path (bare : String) : Grows (.path bare) (.path bare)
  | record (path : String) {sections sections' : List String} (added : sections.Sublist sections') :
    Grows (.record ⟨path, sections⟩) (.record ⟨path, sections'⟩)

/-- An entry of `outputs` with any sections added to those that it requires. -/
structure OutputSpec.Grows (output output' : OutputSpec) : Prop where
  fixture : output.fixture = output'.fixture
  added : output.requiredSections.Sublist output'.requiredSections

/-- A manifest with any entries put among its own, which may grow themselves. -/
structure Manifest.Grows (manifest manifest' : Manifest) : Prop where
  docs : List.SublistForall₂ DocRef.Grows manifest.docs manifest'.docs
  references : manifest.references.Sublist manifest'.references
  outputs : List.SublistForall₂ OutputSpec.Grows manifest.outputs manifest'.outputs

/-! ## Findings among more findings -/

namespace Findings

/-- All that some findings tell is told by others, in the same order. -/
structure Among (findings others : Findings) : Prop where
  violations : findings.violations.Sublist others.violations
  documents : findings.documents ≤ others.documents

namespace Among

theorem refl (findings : Findings) : Among findings findings :=
  ⟨List.Sublist.refl _, le_rfl⟩

theorem none (findings : Findings) : Among .none findings :=
  ⟨List.nil_sublist _, Nat.zero_le _⟩

theorem append {first first' second second' : Findings} (left : Among first first')
    (right : Among second second') : Among (first ++ second) (first' ++ second') :=
  ⟨left.violations.append right.violations, Nat.add_le_add left.documents right.documents⟩

end Among

/-- Findings in a row of items are among those in a row that has a check with more findings for each
of them, in the same order. -/
theorem among_gather {α β : Type} {relates : α → β → Prop} {check : α → Findings}
    {other : β → Findings} {items : List α} {others : List β}
    (rows : List.SublistForall₂ relates items others)
    (each : ∀ item ∈ items, ∀ item', relates item item' → Among (check item) (other item')) :
    Among (gather check items) (gather other others) := by
  induction rows with
  | nil => exact .none _
  | cons here _ ih =>
    obtain ⟨first, later⟩ := List.forall_mem_cons.mp each
    exact (first _ here).append (ih later)
  | cons_right _ ih =>
    rw [gather_cons, ← none_append (gather check _)]
    exact (Among.none _).append (ih each)

end Findings

namespace Audit

open Findings (Among)

variable {tree other : FileTree} {root path : Path} {location : Location}

/-! ## Checks of more -/

/-- More required headings never hide one that was missing. -/
theorem sections_sublist (entry : Entry) (name : String) {sections' required : List String}
    (added : required.Sublist sections')
    (read : required ≠ [] → tree.readText (root.join (.ofString name)) =
      other.readText (root.join (.ofString name))) :
    (sections tree root path entry name required).Sublist
      (sections other root path entry name sections') := by
  by_cases vacant : required = []
  · subst vacant
    exact List.nil_sublist _
  · have inhabited : sections' ≠ [] := by
      rintro rfl
      exact vacant (List.sublist_nil.mp added)
    simp only [sections, List.isEmpty_iff, vacant, inhabited, if_false, read vacant]
    cases other.readText (root.join (.ofString name)) with
    | error fault => exact List.Sublist.refl _
    | ok text => exact (added.filter _).map _

/-- A document of which more is required has all that was found of it, if it still reads the same. -/
theorem among_found (present : ∀ place, tree.has place = other.has place) (entry : Entry)
    {spec : DocSpec} {sections' : List String} (added : spec.requiredSections.Sublist sections')
    (read : spec.requiredSections ≠ [] → tree.readText (root.join (.ofString spec.path)) =
      other.readText (root.join (.ofString spec.path))) :
    Among (found tree root path entry spec) (found other root path entry ⟨spec.path, sections'⟩) where
  violations := by
    simp only [found, document, present]
    split
    · exact sections_sublist entry spec.path added read
    · exact List.Sublist.refl _
  documents := by simp only [found, present, le_refl]

/-- Documents of which a manifest requires sections read alike in two trees. -/
def ReadsRequired (tree other : FileTree) (root : Path) (manifest : Manifest) : Prop :=
  ∀ spec, manifest.Declares spec → spec.requiredSections ≠ [] →
    tree.readText (root.join (.ofString spec.path)) =
      other.readText (root.join (.ofString spec.path))

/-- What is found of a manifest is among what is found of one that asks for more. -/
theorem among_declared {manifest manifest' : Manifest} (grows : manifest.Grows manifest')
    (present : ∀ place, tree.has place = other.has place)
    (read : ReadsRequired tree other root manifest) :
    Among (declared tree root path manifest) (declared other root path manifest') := by
  have docs : Among (.gather (fun ref => found tree root path .doc ref.spec) manifest.docs)
      (.gather (fun ref => found other root path .doc ref.spec) manifest'.docs) := by
    refine Findings.among_gather grows.docs fun ref listed ref' grown => ?_
    have declared : manifest.Declares ref.spec :=
      Manifest.declares_iff.mpr (List.mem_append_left _ (List.mem_map_of_mem listed))
    have readHere := read ref.spec declared
    cases grown with
    | path bare => exact among_found present .doc (List.Sublist.refl _) readHere
    | record name added => exact among_found present .doc added readHere
  have references : Among (.gather (reference tree root path) manifest.references)
      (.gather (reference other root path) manifest'.references) := by
    have rows : List.SublistForall₂ Eq manifest.references manifest'.references :=
      List.sublistForall₂_iff.mpr ⟨_, List.forall₂_eq_eq_eq ▸ rfl, grows.references⟩
    refine Findings.among_gather rows fun name _ name' same => ?_
    subst same
    simp only [reference, present]
    exact .refl _
  have outputs : Among (.gather (output tree root path) manifest.outputs)
      (.gather (output other root path) manifest'.outputs) := by
    refine Findings.among_gather grows.outputs fun spec listed spec' grown => ?_
    have fixture : spec'.fixturePath? = spec.fixturePath? := by
      rw [OutputSpec.fixturePath?, OutputSpec.fixturePath?, grown.fixture]
    rw [output_eq_found, output_eq_found, OutputSpec.document?, OutputSpec.document?, fixture]
    cases given : spec.fixturePath? with
    | none => exact .none _
    | some name =>
      have document : manifest.Declares ⟨name, spec.requiredSections⟩ :=
        Manifest.declares_iff.mpr (List.mem_append_right _ (List.mem_filterMap.mpr
          ⟨spec, listed, by simp [OutputSpec.document?, given]⟩))
      exact among_found present .fixture grown.added (read _ document)
  simp only [declared, Findings.gather_map, doc_eq_found]
  exact (docs.append references).append outputs

/-- **Asking for more hides nothing.** When a file is rewritten so that a manifest grows, and this
file is none of the documents of which the manifest requires sections, then what was found of the
manifest is found again, in the same order and with more in between, and no fewer documents are
counted. -/
theorem growth_hides_nothing {content content' : List UInt8} {manifest manifest' : Manifest}
    (file : tree.lookup location = some (.file content))
    (loaded : load tree path = .ok manifest)
    (rewritten : load (tree.insert location (.file content')) path = .ok manifest')
    (grows : manifest.Grows manifest')
    (apart : ∀ spec, manifest.Declares spec → spec.requiredSections ≠ [] →
      tree.resolve (root.join (.ofString spec.path)) true ≠ .ok location) :
    (Audit.manifest tree root path).violations.Sublist
        (Audit.manifest (tree.insert location (.file content')) root path).violations ∧
      (Audit.manifest tree root path).documents ≤
        (Audit.manifest (tree.insert location (.file content')) root path).documents := by
  have same : FileTree.SameBut (· = location) tree (tree.insert location (.file content')) :=
    sameBut_insert file
  have read : ReadsRequired tree (tree.insert location (.file content')) root manifest :=
    fun spec listed required => same.readText_eq fun _ leads here =>
      apart spec listed required (here ▸ leads)
  have found : Among (declared tree root path manifest)
      (declared (tree.insert location (.file content')) root path manifest') :=
    among_declared grows same.outline.has_eq read
  unfold Audit.manifest
  rw [loaded, rewritten]
  exact ⟨found.violations, found.documents⟩

/-- The manifest of the plain tree with a document before its own, and a section and a reference before
those that it requires. -/
def grownText : String :=
  "\x7b\"docs\":[\"x\",\x7b\"path\":\"/d\",\"requiredSections\":[\"C\",\"A\",\"B\"]\x7d]," ++
    "\"references\":[\"/q\",\"../r\"]\x7d"

/-- The plain tree with that manifest in the place of its own. -/
def grownTree : FileTree :=
  plainTree.insert (["w", "docs", "exercises", "m.manifest.json"].map (Utf8.encode ·.toList))
    (.file (Utf8.encode grownText.toList))

/-- An entry inserted before, a heading inserted in the middle and a reference inserted before. -/
theorem grows_grown : Manifest.Grows ⟨[.record ⟨"/d", ["A", "B"]⟩], ["../r"], []⟩
    ⟨[.path "x", .record ⟨"/d", ["C", "A", "B"]⟩], ["/q", "../r"], []⟩ where
  docs := .cons_right (.cons (.record "/d" (List.sublist_cons_self _ _)) .nil)
  references := List.sublist_cons_self _ _
  outputs := .nil

/-- The manifest of this tree grows by an entry that is missing, a heading and a reference by its
whole path. -/
theorem growth_hides_nothing_plainTree :
    let path := Path.ofString "./docs/exercises/m.manifest.json"
    (manifest plainTree (.ofString ".") path).violations =
      [.missingHeading path "B" "/d" .doc, .missingReference path "../r"] ∧
    (manifest grownTree (.ofString ".") path).violations =
      [.missingDoc path "x", .missingHeading path "C" "/d" .doc,
        .missingHeading path "B" "/d" .doc, .missingReference path "/q",
        .missingReference path "../r"] ∧
    (manifest plainTree (.ofString ".") path).violations.Sublist
      (manifest grownTree (.ofString ".") path).violations ∧
    (manifest plainTree (.ofString ".") path).documents ≤
      (manifest grownTree (.ofString ".") path).documents := by
  have file : plainTree.lookup (["w", "docs", "exercises", "m.manifest.json"].map
      (Utf8.encode ·.toList)) = some (.file (Utf8.encode sharedText.toList)) := by decide +kernel
  have loaded : load plainTree (.ofString "./docs/exercises/m.manifest.json") =
      .ok ⟨[.record ⟨"/d", ["A", "B"]⟩], ["../r"], []⟩ := by decide +kernel
  have rewritten : load grownTree (.ofString "./docs/exercises/m.manifest.json") =
      .ok ⟨[.path "x", .record ⟨"/d", ["C", "A", "B"]⟩], ["/q", "../r"], []⟩ := by
    decide +kernel
  have apart : ∀ spec,
      (⟨[.record ⟨"/d", ["A", "B"]⟩], ["../r"], []⟩ : Manifest).Declares spec →
        spec.requiredSections ≠ [] →
          plainTree.resolve ((Path.ofString ".").join (.ofString spec.path)) true ≠
            .ok (["w", "docs", "exercises", "m.manifest.json"].map (Utf8.encode ·.toList)) := by
    intro spec declared _
    obtain rfl := List.mem_singleton.mp (Manifest.declares_iff.mp declared)
    decide +kernel
  refine ⟨?before, ?after, growth_hides_nothing file loaded rewritten grows_grown apart⟩
  case before =>
    rw [Audit.manifest, loaded]
    decide +kernel
  case after =>
    rw [Audit.manifest, rewritten]
    decide +kernel

end Audit

end ExerciseAudit
