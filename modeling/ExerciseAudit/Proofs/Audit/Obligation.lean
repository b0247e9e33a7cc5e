import ExerciseAudit.FileTree.Edit
import ExerciseAudit.Proofs.Audit.Account
import ExerciseAudit.Proofs.Discovery
import Mathlib.Data.Prod.Lex

/-!
# Broken obligations

A discovered manifest has to be there, and what it declares has to be there and to have the sections
that are required of it. `Audit.Breaks` says which of these obligations is broken in a tree and
which violation names it, with no reference to the order in which they are checked. The violations
of a run are those of the broken obligations, each once (`Audit.diagnosis_exact`), in the order of
the manifests and of what they declare (`Audit.violations_ordered`).
-/

namespace ExerciseAudit

/-- The violation that the document of an entry is not there. -/
def Entry.missing : Entry → Path → String → Violation
  | doc => .missingDoc
  | fixture => .missingFixture

/-! ## What a manifest declares -/

/-- An entry of `docs` declares the document of its record, or the one at its bare path, of which no
sections are required. -/
inductive DocRef.Declares : DocRef → DocSpec → Prop
  | path (bare : String) : Declares (.path bare) ⟨bare, []⟩
  | record (full : DocSpec) : Declares (.record full) full

/-- An output declares the document at the path of its fixture, unless it has none or the path is
empty. -/
inductive OutputSpec.Declares : OutputSpec → DocSpec → Prop
  | fixture {path : String} (named : path ≠ "") (sections : List String) :
    Declares ⟨some path, sections⟩ ⟨path, sections⟩

/-- A manifest declares a document at an index in the section of an entry. -/
inductive Manifest.DeclaresAt (manifest : Manifest) : Entry → Nat → DocSpec → Prop
  | doc {index : Nat} {written : DocRef} {spec : DocSpec}
    (here : manifest.docs[index]? = some written) (declares : written.Declares spec) :
    DeclaresAt manifest .doc index spec
  | fixture {index : Nat} {output : OutputSpec} {spec : DocSpec}
    (here : manifest.outputs[index]? = some output) (declares : output.Declares spec) :
    DeclaresAt manifest .fixture index spec

/-- The document that an output is checked for, if it is for one. -/
def OutputSpec.document? (output : OutputSpec) : Option DocSpec :=
  output.fixturePath?.map (⟨·, output.requiredSections⟩)

/-- The document that is checked at an index in the section of an entry. -/
def Manifest.document? (manifest : Manifest) : Entry → Nat → Option DocSpec
  | .doc, index => manifest.docs[index]?.map DocRef.spec
  | .fixture, index => manifest.outputs[index]?.bind OutputSpec.document?

/-- An entry of `docs` is checked for what it declares. -/
theorem DocRef.declares_iff {written : DocRef} {spec : DocSpec} :
    written.Declares spec ↔ written.spec = spec := by
  constructor
  · intro declares
    cases declares with
    | path | record => rfl
  · rintro rfl
    cases written with
    | path bare => exact .path bare
    | record full => exact .record full

/-- An output is checked for what it declares. -/
theorem OutputSpec.declares_iff {output : OutputSpec} {spec : DocSpec} :
    output.Declares spec ↔ output.document? = some spec := by
  constructor
  · intro declares
    cases declares with
    | fixture named sections => simp [document?, fixturePath?, Option.filter, named]
  · intro checked
    obtain ⟨fixture, sections⟩ := output
    cases fixture with
    | none => cases checked
    | some path =>
      by_cases vacant : path = ""
      · subst vacant
        cases checked
      · have made : some (⟨path, sections⟩ : DocSpec) = some spec := by
          simpa [document?, fixturePath?, Option.filter, vacant] using checked
        cases made
        exact .fixture vacant sections

/-- What is checked of a manifest are the documents that it declares. -/
theorem Manifest.declaresAt_iff {manifest : Manifest} {entry : Entry} {index : Nat}
    {spec : DocSpec} :
    manifest.DeclaresAt entry index spec ↔ manifest.document? entry index = some spec := by
  cases entry with
  | doc =>
    simp only [document?, Option.map_eq_some_iff, ← DocRef.declares_iff]
    constructor
    · rintro ⟨here, declares⟩
      exact ⟨_, here, declares⟩
    · rintro ⟨written, here, declares⟩
      exact .doc here declares
  | fixture =>
    simp only [document?, Option.bind_eq_some_iff, ← OutputSpec.declares_iff]
    constructor
    · rintro ⟨⟩
      exact ⟨_, ‹_›, ‹_›⟩
    · rintro ⟨output, here, declares⟩
      exact .fixture here declares

/-! ## What is broken -/

namespace Audit

/-- What a manifest can fall short of. -/
inductive Part where
  /-- The manifest itself is one. -/
  | whole
  /-- A declared document is there and can be read, or it has the section at an index in what is
  required of it. -/
  | document (entry : Entry) (index : Nat) (slot : Option Nat)
  /-- A declared reference is there. -/
  | reference (index : Nat)

/-- The place of a part in a report: the section of the manifest with documents before references
and these before outputs, the index in that section, and the index in the sections required
there. -/
def Part.key : Part → ℕ ×ₗ ℕ ×ₗ ℕ
  | whole => toLex (0, toLex (0, 0))
  | document .doc index slot => toLex (0, toLex (index, slot.getD 0))
  | reference index => toLex (1, toLex (index, 0))
  | document .fixture index slot => toLex (2, toLex (index, slot.getD 0))

section Definitions

variable (tree : FileTree) (root : Path)

/-- A declared document falls short: it is not there, it is there and cannot be read for the
sections required of it, or it can be read and lacks a section. -/
inductive BreaksDocument (path : Path) (entry : Entry) (spec : DocSpec) :
    Option Nat → Violation → Prop
  | missing (absent : tree.has (root.join (.ofString spec.path)) = false) :
    BreaksDocument path entry spec none (entry.missing path spec.path)
  | unreadable {fault : FileFault} (present : tree.has (root.join (.ofString spec.path)) = true)
    (required : spec.requiredSections ≠ [])
    (unread : tree.readText (root.join (.ofString spec.path)) = .error fault) :
    BreaksDocument path entry spec none (.unreadableDocument path spec.path entry fault.message)
  | heading {text heading : String} {index : Nat}
    (read : tree.readText (root.join (.ofString spec.path)) = .ok text)
    (required : spec.requiredSections[index]? = some heading)
    (lacking : heading ∉ Heading.ofText text) :
    BreaksDocument path entry spec (some index) (.missingHeading path heading spec.path entry)

/-- What a manifest declares falls short: a document does, or a reference is not there. -/
inductive BreaksDeclared (path : Path) (manifest : Manifest) : Part → Violation → Prop
  | document {entry : Entry} {index : Nat} {spec : DocSpec} {slot : Option Nat}
    {violation : Violation} (declared : manifest.DeclaresAt entry index spec)
    (broken : BreaksDocument tree root path entry spec slot violation) :
    BreaksDeclared path manifest (.document entry index slot) violation
  | reference {index : Nat} {reference : String}
    (declared : manifest.references[index]? = some reference)
    (absent : tree.has (root.join (.ofString reference)) = false) :
    BreaksDeclared path manifest (.reference index) (.missingReference path reference)

/-- The manifest at a path falls short: it cannot be read, it can be read and is no manifest, or
what it declares falls short. -/
inductive Breaks (path : Path) : Part → Violation → Prop
  | unreadable {fault : FileFault} (unread : tree.readText path = .error fault) :
    Breaks path .whole (.unreadableManifest path fault.message)
  | invalid {text : String} {refusal : Manifest.Refusal} (read : tree.readText path = .ok text)
    (refused : Manifest.ofText text = .error refusal) :
    Breaks path .whole (.invalidManifest path refusal.reason refusal.line refusal.column)
  | declared {text : String} {manifest : Manifest} {part : Part} {violation : Violation}
    (read : tree.readText path = .ok text) (decoded : Manifest.ofText text = .ok manifest)
    (broken : BreaksDeclared tree root path manifest part violation) :
    Breaks path part violation

/-- How many of the manifests below a root stand before a path. -/
def rank (path : Path) : Nat :=
  (tree.manifests (basePath root)).countP (·.before path)

/-- The place of a manifest's part in a report. -/
def key (obligation : Path × Part) : ℕ ×ₗ ℕ ×ₗ ℕ ×ₗ ℕ :=
  toLex (rank tree root obligation.1, obligation.2.key)

end Definitions

variable {tree : FileTree} {root path : Path} {entry : Entry}

/-! ## One declared document -/

/-- What can be read is there. -/
theorem has_of_readText {text : String} (read : tree.readText path = .ok text) :
    tree.has path = true := by
  unfold FileTree.readText at read
  unfold FileTree.has
  cases led : tree.resolve path true with
  | error fault => simp [led] at read
  | ok place => rfl

/-- A document that is not there falls short in that alone. -/
theorem breaksDocument_iff_of_absent {spec : DocSpec} {slot : Option Nat} {violation : Violation}
    (absent : tree.has (root.join (.ofString spec.path)) = false) :
    BreaksDocument tree root path entry spec slot violation ↔
      slot = none ∧ violation = entry.missing path spec.path := by
  constructor
  · intro broken
    cases broken with
    | missing => exact ⟨rfl, rfl⟩
    | unreadable present => simp [absent] at present
    | heading read => simp [has_of_readText read] at absent
  · rintro ⟨rfl, rfl⟩
    exact .missing absent

/-- A document that is there and of which nothing is required does not fall short. -/
theorem not_breaksDocument {spec : DocSpec} {slot : Option Nat} {violation : Violation}
    (present : tree.has (root.join (.ofString spec.path)) = true)
    (nothing : spec.requiredSections = []) :
    ¬ BreaksDocument tree root path entry spec slot violation := by
  intro broken
  cases broken with
  | missing absent => simp [present] at absent
  | unreadable _ required => exact required nothing
  | heading _ required => simp [nothing] at required

/-- A document that is there and has to be read, and cannot be, falls short in that alone. -/
theorem breaksDocument_iff_of_unread {spec : DocSpec} {slot : Option Nat} {violation : Violation}
    {fault : FileFault} (present : tree.has (root.join (.ofString spec.path)) = true)
    (required : spec.requiredSections ≠ [])
    (unread : tree.readText (root.join (.ofString spec.path)) = .error fault) :
    BreaksDocument tree root path entry spec slot violation ↔
      slot = none ∧ violation = .unreadableDocument path spec.path entry fault.message := by
  constructor
  · intro broken
    cases broken with
    | missing absent => simp [present] at absent
    | unreadable _ _ same =>
      rw [unread] at same
      cases same
      exact ⟨rfl, rfl⟩
    | heading read => simp [unread] at read
  · rintro ⟨rfl, rfl⟩
    exact .unreadable present required unread

/-- A document that can be read falls short in the required sections that it lacks. -/
theorem breaksDocument_iff_of_read {spec : DocSpec} {slot : Option Nat} {violation : Violation}
    {text : String} (read : tree.readText (root.join (.ofString spec.path)) = .ok text) :
    BreaksDocument tree root path entry spec slot violation ↔
      ∃ index heading, slot = some index ∧ spec.requiredSections[index]? = some heading ∧
        heading ∉ Heading.ofText text ∧ violation = .missingHeading path heading spec.path entry := by
  constructor
  · intro broken
    cases broken with
    | missing absent => simp [has_of_readText read] at absent
    | unreadable _ _ unread => simp [read] at unread
    | heading readHere required lacking =>
      rw [read] at readHere
      cases readHere
      exact ⟨_, _, rfl, required, lacking, rfl⟩
  · rintro ⟨index, heading, rfl, required, lacking, rfl⟩
    exact .heading read required lacking

/-- Headings reported as missing account for the headings that a document lacks, in their order. -/
theorem accounts_headings {spec : DocSpec} {text : String}
    (read : tree.readText (root.join (.ofString spec.path)) = .ok text) :
    Accounts (·.getD 0) (BreaksDocument tree root path entry spec)
      ((spec.requiredSections.filter (!(Heading.ofText text).contains ·)).map fun heading =>
        .missingHeading path heading spec.path entry) := by
  have flat (required : List String) :
      (required.filter (!(Heading.ofText text).contains ·)).map
          (Violation.missingHeading path · spec.path entry) =
        required.flatMap fun heading => if heading ∈ Heading.ofText text then []
          else [.missingHeading path heading spec.path entry] := by
    induction required with
    | nil => rfl
    | cons heading rest ih =>
      by_cases titled : heading ∈ Heading.ofText text <;> simp [titled, ← ih]
  rw [flat]
  let lackingAt (index : Nat) (slot : Option Nat) (violation : Violation) : Prop :=
    slot = some index ∧ ∃ heading, spec.requiredSections[index]? = some heading ∧
      heading ∉ Heading.ofText text ∧ violation = .missingHeading path heading spec.path entry
  refine (Accounts.flatMap spec.requiredSections _ lackingAt ?_ ?_).congr fun slot violation => ?_
  · intro index heading found
    split
    case isTrue titled =>
      apply Accounts.nil
      rintro _ _ ⟨rfl, other, here, lacking, rfl⟩
      rw [found] at here
      cases here
      exact lacking titled
    case isFalse lacking =>
      apply Accounts.singleton (some index)
      intro slot violation
      simp [lackingAt, found, lacking]
  · rintro index later _ _ _ _ less _ ⟨rfl, _⟩ ⟨rfl, _⟩
    exact less
  · rw [breaksDocument_iff_of_read read]
    constructor
    · rintro ⟨index, _, here, heading, required⟩
      exact ⟨index, heading, here, required⟩
    · rintro ⟨index, heading, here, required, lacking⟩
      exact ⟨index, (List.getElem?_eq_some_iff.mp required).1, here, heading, required, lacking⟩

/-- The violations of a document that an entry declares, as they are checked for. -/
def document (tree : FileTree) (root path : Path) (entry : Entry) (spec : DocSpec) :
    List Violation :=
  if tree.has (root.join (.ofString spec.path)) then
    sections tree root path entry spec.path spec.requiredSections
  else [entry.missing path spec.path]

/-- What is reported of a document accounts for what it breaks: it is missing, or cannot be read, or
lacks headings. -/
theorem accounts_document (tree : FileTree) (root path : Path) (entry : Entry) (spec : DocSpec) :
    Accounts (·.getD 0) (BreaksDocument tree root path entry spec)
      (document tree root path entry spec) := by
  unfold document
  split
  case isFalse absent =>
    rw [Bool.not_eq_true] at absent
    exact .singleton none fun _ _ => breaksDocument_iff_of_absent absent
  case isTrue present =>
    unfold sections
    split
    case isTrue nothing =>
      exact .nil fun _ _ => not_breaksDocument present (List.isEmpty_iff.mp nothing)
    case isFalse required =>
      rw [List.isEmpty_iff] at required
      split
      case h_1 fault unread =>
        exact .singleton none fun _ _ => breaksDocument_iff_of_unread present required unread
      case h_2 text read => exact accounts_headings read

/-- Violations of a document entry are those of the document that it asks for. -/
theorem violations_doc (tree : FileTree) (root path : Path) (spec : DocSpec) :
    (doc tree root path spec).violations = document tree root path .doc spec := by
  unfold doc document
  split <;> rfl

/-- Violations of an output are those of its fixture, if it names one. -/
theorem violations_output (tree : FileTree) (root path : Path) (spec : OutputSpec) :
    (output tree root path spec).violations =
      spec.document?.toList.flatMap (document tree root path .fixture) := by
  unfold output document OutputSpec.document?
  cases spec.fixturePath? with
  | none => rfl
  | some fixture =>
    simp only [Option.map_some, Option.toList_some, List.flatMap_singleton]
    split <;> rfl

/-! ## One manifest -/

/-- Obligations of an earlier entry come before those of a later one, whichever headings they are
about. -/
theorem key_document_lt {index later : Nat} (less : index < later) (slot other : Option Nat) :
    (Part.document entry index slot).key < (Part.document entry later other).key := by
  cases entry <;> simp [Part.key, Prod.Lex.toLex_lt_toLex, less]

/-- A part of the section of an entry falls short. -/
def BreaksSection (tree : FileTree) (root path : Path) (manifest : Manifest) (entry : Entry)
    (part : Part) (violation : Violation) : Prop :=
  ∃ index slot, part = .document entry index slot ∧
    BreaksDeclared tree root path manifest part violation

/-- A part of the section of references falls short. -/
def BreaksReferences (tree : FileTree) (root path : Path) (manifest : Manifest) (part : Part)
    (violation : Violation) : Prop :=
  ∃ index, part = .reference index ∧ BreaksDeclared tree root path manifest part violation

/-- Checks of all items of a list account for a section of a manifest if each item declares at most
the document at its index, and its check looks at that. -/
theorem accounts_section {α : Type} {manifest : Manifest} (items : List α) (check : α → Findings)
    (spec? : α → Option DocSpec)
    (declares : ∀ index, manifest.document? entry index = items[index]?.bind spec?)
    (checks : ∀ item, (check item).violations =
      (spec? item).toList.flatMap (document tree root path entry)) :
    Accounts Part.key (BreaksSection tree root path manifest entry)
      (Findings.gather check items).violations := by
  rw [Findings.violations_gather]
  let brokenAt (index : Nat) (part : Part) (violation : Violation) : Prop :=
    ∃ slot, part = .document entry index slot ∧
      BreaksDeclared tree root path manifest part violation
  refine (Accounts.flatMap _ _ brokenAt ?_ ?_).congr fun part violation => ?_
  · intro index item found
    have here : manifest.document? entry index = spec? item := by simp [declares, found]
    rw [checks]
    cases declared : spec? item with
    | none =>
      apply Accounts.nil
      intro _ _ given
      rcases given with ⟨slot, rfl, broken⟩
      cases broken with
      | document declaredHere _ => simp [Manifest.declaresAt_iff, here, declared] at declaredHere
    | some spec =>
      rw [declared] at here
      rw [Option.toList_some, List.flatMap_singleton]
      have ordered (first second : Option Nat) (less : first.getD 0 < second.getD 0) :
          (Part.document entry index first).key < (Part.document entry index second).key := by
        cases entry <;> simpa [Part.key, Prod.Lex.toLex_lt_toLex] using less
      apply ((accounts_document tree root path entry spec).map _ ordered).congr
      intro part violation
      constructor
      · intro given
        rcases given with ⟨slot, rfl, broken⟩
        exact ⟨slot, rfl, .document (Manifest.declaresAt_iff.mpr here) broken⟩
      · intro given
        rcases given with ⟨slot, rfl, broken⟩
        cases broken with
        | document declaredHere broken =>
          rw [Manifest.declaresAt_iff, here] at declaredHere
          cases declaredHere
          exact ⟨slot, rfl, broken⟩
  · rintro index later _ _ _ _ less _ ⟨slot, rfl, _⟩ ⟨other, rfl, _⟩
    exact key_document_lt less slot other
  · constructor
    · intro given
      rcases given with ⟨index, _, slot, same, broken⟩
      exact ⟨index, slot, same, broken⟩
    · intro given
      rcases given with ⟨index, slot, rfl, broken⟩
      cases broken with
      | document declared broken =>
        refine ⟨index, ?_, slot, rfl, .document declared broken⟩
        rw [Manifest.declaresAt_iff, declares] at declared
        obtain ⟨_, found, _⟩ := Option.bind_eq_some_iff.mp declared
        exact (List.getElem?_eq_some_iff.mp found).1

/-- Missing references are reported in the order of the list. -/
theorem accounts_references (tree : FileTree) (root path : Path) (manifest : Manifest) :
    Accounts Part.key (BreaksReferences tree root path manifest)
      (Findings.gather (reference tree root path) manifest.references).violations := by
  rw [Findings.violations_gather]
  let brokenAt (index : Nat) (part : Part) (violation : Violation) : Prop :=
    part = .reference index ∧ BreaksDeclared tree root path manifest part violation
  refine (Accounts.flatMap _ _ brokenAt ?_ ?_).congr fun part violation => ?_
  · intro index name found
    unfold reference
    split
    case isTrue present =>
      apply Accounts.nil
      intro _ _ given
      rcases given with ⟨rfl, broken⟩
      cases broken with
      | reference declared absent =>
        rw [found] at declared
        cases declared
        simp [present] at absent
    case isFalse absent =>
      rw [Bool.not_eq_true] at absent
      apply Accounts.singleton (.reference index)
      intro part violation
      constructor
      · intro given
        rcases given with ⟨rfl, broken⟩
        cases broken with
        | reference declared _ =>
          rw [found] at declared
          cases declared
          exact ⟨rfl, rfl⟩
      · intro given
        rcases given with ⟨rfl, rfl⟩
        exact ⟨rfl, .reference found absent⟩
  · rintro index later _ _ _ _ less _ ⟨rfl, _⟩ ⟨rfl, _⟩
    simp [Part.key, Prod.Lex.toLex_lt_toLex, less]
  · constructor
    · intro given
      rcases given with ⟨index, _, same, broken⟩
      exact ⟨index, same, broken⟩
    · intro given
      rcases given with ⟨index, rfl, broken⟩
      cases broken with
      | reference declared absent =>
        exact ⟨index, (List.getElem?_eq_some_iff.mp declared).1, rfl, .reference declared absent⟩

/-- What is reported of a decoded manifest accounts for what its declarations break. -/
theorem accounts_declared (tree : FileTree) (root path : Path) (manifest : Manifest) :
    Accounts Part.key (BreaksDeclared tree root path manifest)
      (declared tree root path manifest).violations := by
  have docs : Accounts Part.key (BreaksSection tree root path manifest .doc) _ :=
    accounts_section (manifest.docs.map DocRef.spec) (doc tree root path) some
      (by simp [Manifest.document?]) (by simp [violations_doc])
  have references := accounts_references tree root path manifest
  have outputs : Accounts Part.key (BreaksSection tree root path manifest .fixture) _ :=
    accounts_section manifest.outputs (output tree root path) OutputSpec.document? (fun _ => rfl)
      (violations_output tree root path)
  refine ((docs.append references ?_).append outputs ?_).congr fun part violation => ?_
  · rintro _ _ _ _ ⟨index, slot, rfl, _⟩ ⟨other, rfl, _⟩
    simp [Part.key, Prod.Lex.toLex_lt_toLex]
  · rintro _ _ _ _ (⟨index, slot, rfl, _⟩ | ⟨index, rfl, _⟩) ⟨other, last, rfl, _⟩ <;>
      simp [Part.key, Prod.Lex.toLex_lt_toLex]
  · constructor
    · rintro ((⟨_, _, _, broken⟩ | ⟨_, _, broken⟩) | ⟨_, _, _, broken⟩) <;> exact broken
    · intro broken
      cases broken with
      | reference declared absent => exact .inl (.inr ⟨_, rfl, .reference declared absent⟩)
      | @document entry index spec slot _ declared broken =>
        cases entry with
        | doc => exact .inl (.inl ⟨index, slot, rfl, .document declared broken⟩)
        | fixture => exact .inr ⟨index, slot, rfl, .document declared broken⟩

/-- A manifest that cannot be read falls short in that alone. -/
theorem breaks_iff_of_unread {part : Part} {violation : Violation} {fault : FileFault}
    (unread : tree.readText path = .error fault) :
    Breaks tree root path part violation ↔
      part = .whole ∧ violation = .unreadableManifest path fault.message := by
  constructor
  · intro broken
    cases broken with
    | unreadable same =>
      rw [unread] at same
      cases same
      exact ⟨rfl, rfl⟩
    | invalid read | declared read => simp [unread] at read
  · rintro ⟨rfl, rfl⟩
    exact .unreadable unread

/-- A file that can be read and is no manifest falls short in that alone. -/
theorem breaks_iff_of_refused {part : Part} {violation : Violation} {text : String}
    {refusal : Manifest.Refusal} (read : tree.readText path = .ok text)
    (refused : Manifest.ofText text = .error refusal) :
    Breaks tree root path part violation ↔
      part = .whole ∧
        violation = .invalidManifest path refusal.reason refusal.line refusal.column := by
  constructor
  · intro broken
    cases broken with
    | unreadable unread => simp [read] at unread
    | invalid readHere same =>
      rw [read] at readHere
      cases readHere
      rw [refused] at same
      cases same
      exact ⟨rfl, rfl⟩
    | declared readHere decoded =>
      rw [read] at readHere
      cases readHere
      simp [refused] at decoded
  · rintro ⟨rfl, rfl⟩
    exact .invalid read refused

/-- A manifest that decodes falls short in what it declares. -/
theorem breaks_iff_of_decoded {part : Part} {violation : Violation} {text : String}
    {manifest : Manifest} (read : tree.readText path = .ok text)
    (decoded : Manifest.ofText text = .ok manifest) :
    Breaks tree root path part violation ↔
      BreaksDeclared tree root path manifest part violation := by
  constructor
  · intro broken
    cases broken with
    | unreadable unread => simp [read] at unread
    | invalid readHere refused =>
      rw [read] at readHere
      cases readHere
      simp [decoded] at refused
    | declared readHere same broken =>
      rw [read] at readHere
      cases readHere
      rw [decoded] at same
      cases same
      exact broken
  · exact .declared read decoded

/-- What is reported of a manifest file accounts for what it breaks, the file's own text included. -/
theorem accounts_manifest (tree : FileTree) (root path : Path) :
    Accounts Part.key (Breaks tree root path) (manifest tree root path).violations := by
  unfold manifest load
  cases read : tree.readText path with
  | error fault => exact .singleton .whole fun _ _ => breaks_iff_of_unread read
  | ok text =>
    cases decoded : Manifest.ofText text with
    | error refusal =>
      simp only [decoded]
      exact .singleton .whole fun _ _ => breaks_iff_of_refused read decoded
    | ok manifest =>
      simp only [decoded]
      exact (accounts_declared tree root path manifest).congr fun _ _ =>
        (breaks_iff_of_decoded read decoded).symm

/-! ## All manifests -/

/-- A manifest that is found earlier has the lower rank. -/
theorem rank_lt_rank {first second : Path} (member : first ∈ tree.manifests (basePath root))
    (before : first.before second = true) : rank tree root first < rank tree root second := by
  unfold rank
  rw [List.countP_eq_length_filter, List.countP_eq_length_filter]
  -- what stands before the first stands before the second, and so does the first itself
  have fewer : (tree.manifests (basePath root)).filter (·.before first) =
      ((tree.manifests (basePath root)).filter (·.before second)).filter (·.before first) := by
    rw [List.filter_filter]
    apply List.filter_congr
    intro other _
    by_cases earlier : other.before first = true
    · simp [earlier, Path.before_trans earlier before]
    · simp [earlier]
  rw [fewer, List.length_filter_lt_length_iff_exists]
  exact ⟨first, List.mem_filter.mpr ⟨member, before⟩, Path.not_before_self first⟩

/-- What a run finds accounts for how the discovered manifests fall short. -/
theorem accounts_run (base : tree.has (basePath root) = true) :
    Accounts (key tree root)
      (fun obligation violation => obligation.1 ∈ tree.manifests (basePath root) ∧
        Breaks tree root obligation.1 obligation.2 violation)
      (run tree root).violations := by
  simp only [run, base, ↓reduceIte]
  rw [Findings.violations_gather]
  let brokenAt (index : Nat) (obligation : Path × Part) (violation : Violation) : Prop :=
    (tree.manifests (basePath root))[index]? = some obligation.1 ∧
      Breaks tree root obligation.1 obligation.2 violation
  refine (Accounts.flatMap _ _ brokenAt ?_ ?_).congr fun obligation violation => ?_
  · intro index path found
    have ordered (first second : Part) (less : first.key < second.key) :
        key tree root (path, first) < key tree root (path, second) := by
      simpa [key, Prod.Lex.toLex_lt_toLex] using less
    apply ((accounts_manifest tree root path).map (path, ·) ordered).congr
    intro obligation violation
    constructor
    · intro given
      rcases given with ⟨part, rfl, broken⟩
      exact ⟨found, broken⟩
    · intro given
      rcases given with ⟨here, broken⟩
      rw [found] at here
      cases here
      exact ⟨obligation.2, rfl, broken⟩
  · rintro index later first second _ _ less inside ⟨here, _⟩ ⟨there, _⟩
    have sorted := tree.pairwise_manifests (basePath root)
    obtain ⟨bound, atIndex⟩ := List.getElem?_eq_some_iff.mp here
    obtain ⟨boundLater, atLater⟩ := List.getElem?_eq_some_iff.mp there
    have before := List.pairwise_iff_getElem.mp sorted index later bound boundLater less
    rw [atIndex, atLater] at before
    have lesser := rank_lt_rank (List.mem_of_getElem? here) before
    simp [key, Prod.Lex.toLex_lt_toLex, lesser]
  · constructor
    · intro given
      rcases given with ⟨index, _, here, broken⟩
      exact ⟨List.mem_of_getElem? here, broken⟩
    · intro given
      rcases given with ⟨member, broken⟩
      obtain ⟨index, inside, here⟩ := List.mem_iff_getElem.mp member
      exact ⟨index, inside, List.getElem?_eq_some_iff.mpr ⟨inside, here⟩, broken⟩

/-- **Diagnosis is exact.** Without a base, a run finds that alone. With one, it finds each
violation as often as there are broken obligations of discovered manifests that the violation
names. -/
theorem diagnosis_exact (tree : FileTree) (root : Path) :
    if tree.has (basePath root) then
      ∀ violation, ((run tree root).violations.count violation : ℕ∞) =
        {obligation : Path × Part | obligation.1 ∈ tree.manifests (basePath root) ∧
          Breaks tree root obligation.1 obligation.2 violation}.encard
    else (run tree root).violations = [.missingBase root] := by
  split
  case isTrue base => exact (accounts_run base).count_eq
  case isFalse absent => simp [run, absent]

/-- What is declared may lie above the root, or anywhere below the top of the file system. -/
example :
    (run ((FileTree.empty.put (.ofString "x/docs/exercises/m.manifest.json")
        (.file (Utf8.encode "\x7b\"docs\":[\"../../x\",\"/x/docs\",\"/y\"]\x7d".toList))).enter
        [Utf8.encode "x".toList]) (.ofString ".")).violations =
      [.missingDoc (.ofString "./docs/exercises/m.manifest.json") "/y"] := by
  decide +kernel

end Audit

end ExerciseAudit
