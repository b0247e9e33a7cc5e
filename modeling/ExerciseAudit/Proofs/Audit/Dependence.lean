import ExerciseAudit.FileTree.Edit
import ExerciseAudit.Proofs.Audit.Obligation

/-!
# What a check depends on

The check of a manifest looks at the text of the manifest, at which of the paths that it declares are
there, and at the texts of the documents of which it requires sections. So it finds the same in two
trees that agree on these (`Audit.manifest_eq`), whatever else they hold.
-/

namespace ExerciseAudit

namespace Manifest

/-- A manifest declares a document, in one section or the other. -/
def Declares (manifest : Manifest) (spec : DocSpec) : Prop :=
  ∃ entry index, manifest.DeclaresAt entry index spec

/-- A manifest names a path: that of a document, or a reference. -/
inductive Names (manifest : Manifest) : String → Prop
  | document {spec : DocSpec} (declared : manifest.Declares spec) : Names manifest spec.path
  | reference {name : String} (listed : name ∈ manifest.references) : Names manifest name

/-- The documents that are checked of a manifest, those of its outputs behind the others. -/
def documents (manifest : Manifest) : List DocSpec :=
  manifest.docs.map DocRef.spec ++ manifest.outputs.filterMap OutputSpec.document?

/-- The paths that are checked of a manifest, those of references behind those of documents. -/
def paths (manifest : Manifest) : List String :=
  manifest.documents.map DocSpec.path ++ manifest.references

variable {manifest : Manifest}

/-- All documents are checked that a manifest declares, and no others. -/
theorem declares_iff {spec : DocSpec} : manifest.Declares spec ↔ spec ∈ manifest.documents := by
  have sections : manifest.Declares spec ↔ (∃ index, manifest.document? .doc index = some spec) ∨
      ∃ index, manifest.document? .fixture index = some spec := by
    simp only [Declares, declaresAt_iff]
    constructor
    · rintro ⟨_ | _, index, declared⟩
      · exact .inl ⟨index, declared⟩
      · exact .inr ⟨index, declared⟩
    · rintro (⟨index, declared⟩ | ⟨index, declared⟩)
      · exact ⟨.doc, index, declared⟩
      · exact ⟨.fixture, index, declared⟩
  rw [sections, documents, List.mem_append, List.mem_filterMap, List.mem_iff_getElem?]
  refine or_congr ?_ ?_
  · simp only [document?, List.getElem?_map]
  · simp only [document?, Option.bind_eq_some_iff, List.mem_iff_getElem?]
    constructor
    · rintro ⟨index, output, here, declares⟩
      exact ⟨output, ⟨index, here⟩, declares⟩
    · rintro ⟨output, ⟨index, here⟩, declares⟩
      exact ⟨index, output, here, declares⟩

/-- All paths are checked that a manifest names, and no others. -/
theorem names_iff {name : String} : manifest.Names name ↔ name ∈ manifest.paths := by
  rw [paths, List.mem_append, List.mem_map]
  constructor
  · intro named
    cases named with
    | document declared => exact .inl ⟨_, declares_iff.mp declared, rfl⟩
    | reference listed => exact .inr listed
  · rintro (⟨spec, listed, rfl⟩ | listed)
    · exact .document (declares_iff.mpr listed)
    · exact .reference listed

end Manifest

/-- A path reads as the same text in two trees, or cannot be read for the same reason. -/
def FileTree.ReadsAlike (tree other : FileTree) (path : Path) : Prop :=
  (tree.readText path).mapError FileFault.message = (other.readText path).mapError FileFault.message

theorem Findings.gather_congr {α : Type} {check other : α → Findings} {items : List α}
    (same : ∀ item ∈ items, check item = other item) : gather check items = gather other items := by
  induction items with
  | nil => rfl
  | cons item rest ih =>
    obtain ⟨here, later⟩ := List.forall_mem_cons.mp same
    unfold gather at ih ⊢
    rw [List.foldr_cons, List.foldr_cons, here, ih later]

namespace Audit

/-- Two trees agree on what a manifest declares: the same of its paths are there, and the documents
of which it requires sections read alike. -/
structure Agree (tree other : FileTree) (root : Path) (manifest : Manifest) : Prop where
  present : ∀ name, manifest.Names name →
    tree.has (root.join (.ofString name)) = other.has (root.join (.ofString name))
  read : ∀ spec, manifest.Declares spec → spec.requiredSections ≠ [] →
    tree.ReadsAlike other (root.join (.ofString spec.path))

variable {tree other : FileTree} {root path : Path}

/-- Headings missing from a document are settled by its text, which is read only if there are any.
-/
theorem sections_eq (entry : Entry) {spec : DocSpec}
    (read : spec.requiredSections ≠ [] → tree.ReadsAlike other (root.join (.ofString spec.path))) :
    sections tree root path entry spec.path spec.requiredSections =
      sections other root path entry spec.path spec.requiredSections := by
  unfold sections
  split
  case isTrue => rfl
  case isFalse required =>
    rw [List.isEmpty_iff] at required
    have alike := read required
    unfold FileTree.ReadsAlike at alike
    cases first : tree.readText (root.join (.ofString spec.path)) with
    | error fault =>
      cases second : other.readText (root.join (.ofString spec.path)) with
      | error fault' =>
        have messages : fault.message = fault'.message := by
          simpa [first, second, Except.mapError] using alike
        simp only [messages]
      | ok text => simp [first, second, Except.mapError] at alike
    | ok text =>
      cases second : other.readText (root.join (.ofString spec.path)) with
      | error fault => simp [first, second, Except.mapError] at alike
      | ok text' =>
        have texts : text = text' := by simpa [first, second, Except.mapError] using alike
        simp only [texts]

variable {manifest : Manifest}

/-- What is found of a document that the manifest declares is the same in trees that agree on the
manifest. -/
theorem doc_eq (agree : Agree tree other root manifest) {spec : DocSpec}
    (declared : manifest.Declares spec) :
    doc tree root path spec = doc other root path spec := by
  unfold doc
  rw [agree.present _ (.document declared), sections_eq .doc (agree.read spec declared)]

theorem reference_eq (agree : Agree tree other root manifest) {name : String}
    (declared : name ∈ manifest.references) :
    reference tree root path name = reference other root path name := by
  unfold reference
  rw [agree.present _ (.reference declared)]

theorem output_eq (agree : Agree tree other root manifest) {spec : OutputSpec}
    (declared : spec ∈ manifest.outputs) :
    output tree root path spec = output other root path spec := by
  unfold output
  cases given : spec.fixturePath? with
  | none => rfl
  | some fixture =>
    have document : manifest.Declares ⟨fixture, spec.requiredSections⟩ :=
      Manifest.declares_iff.mpr (List.mem_append_right _ (List.mem_filterMap.mpr
        ⟨spec, declared, by simp [OutputSpec.document?, given]⟩))
    simp only [agree.present _ (.document document), sections_eq .fixture (agree.read _ document)]

/-- What is declared is found alike in trees that agree on it. -/
theorem declared_eq (agree : Agree tree other root manifest) :
    declared tree root path manifest = declared other root path manifest := by
  unfold declared
  rw [Findings.gather_congr fun spec given =>
      doc_eq agree (Manifest.declares_iff.mpr (List.mem_append_left _ given)),
    Findings.gather_congr fun name given => reference_eq agree given,
    Findings.gather_congr fun spec given => output_eq agree given]

/-- A manifest is loaded by reading its text and decoding that. -/
theorem load_eq_ok_iff {decoded : Manifest} :
    load tree path = .ok decoded ↔
      ∃ text, tree.readText path = .ok text ∧ Manifest.ofText text = .ok decoded := by
  unfold load
  cases tree.readText path with
  | error fault => simp
  | ok text => cases given : Manifest.ofText text <;> simp [given]

/-- A manifest that reads alike in two trees, which agree on what it declares, is found alike. -/
theorem manifest_eq (read : tree.readText path = other.readText path)
    (agree : ∀ manifest, load tree path = .ok manifest → Agree tree other root manifest) :
    Audit.manifest tree root path = Audit.manifest other root path := by
  have loads : load tree path = load other path := by
    unfold load
    rw [read]
  unfold Audit.manifest
  rw [← loads]
  cases loaded : load tree path with
  | error violation => rfl
  | ok manifest => exact declared_eq (agree manifest loaded)

/-- A manifest that requires two sections of a document, which it names by its whole path, and refers
to a file above the root. -/
def sharedText : String :=
  "\x7b\"docs\":[\x7b\"path\":\"/d\",\"requiredSections\":[\"A\",\"B\"]\x7d]," ++
    "\"references\":[\"../r\"]\x7d"

/-- A tree with that manifest below the working directory `/w`, a document with one of the sections,
and no file to refer to. -/
def plainTree : FileTree :=
  (((FileTree.empty.insert [Utf8.encode "w".toList] .directory).enter
    [Utf8.encode "w".toList]).put (.ofString "docs/exercises/m.manifest.json")
      (.file (Utf8.encode sharedText.toList))).put
        (.ofString "/d") (.file (Utf8.encode "# A\n".toList))

end Audit

end ExerciseAudit
