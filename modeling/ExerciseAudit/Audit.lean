import ExerciseAudit.Discovery
import ExerciseAudit.Heading
import ExerciseAudit.Manifest.Decode
import ExerciseAudit.Report.Basic

/-!
# Auditing a tree

Every manifest below the base is checked on its own: documents, then references, then outputs, each in the
order of declaration. A document or fixture that is missing, or that cannot be read, is one violation and
ends the check of that entry alone. A document is read only if some section is required of it.
-/

namespace ExerciseAudit

/-- What checking some obligations finds: violations in order, and how many declared documents are there. -/
structure Findings where
  violations : List Violation
  documents : Nat
  deriving DecidableEq, Repr

namespace Findings

/-- No obligations, no findings. -/
def none : Findings := ⟨[], 0⟩

/-- What two checks find, one after the other. -/
def append (first second : Findings) : Findings :=
  ⟨first.violations ++ second.violations, first.documents + second.documents⟩

instance : Append Findings := ⟨append⟩

/-- What checks of all members of a list find. -/
def gather {α : Type} (check : α → Findings) (items : List α) : Findings :=
  items.foldr (fun item later => check item ++ later) none

end Findings

namespace Audit

/-- The violations of a document that is there: it lacks required sections, or cannot be read for them. -/
def sections (tree : FileTree) (root manifest : Path) (entry : Entry) (path : String)
    (required : List String) : List Violation :=
  if required.isEmpty then []
  else match tree.readText (root.join (.ofString path)) with
    | .error fault => [.unreadableDocument manifest path entry fault.message]
    | .ok text =>
      let headings := Heading.ofText text
      (required.filter (!headings.contains ·)).map fun heading =>
        .missingHeading manifest heading path entry

/-- Check a declared document. -/
def doc (tree : FileTree) (root manifest : Path) (spec : DocSpec) : Findings :=
  if tree.has (root.join (.ofString spec.path)) then
    ⟨sections tree root manifest .doc spec.path spec.requiredSections, 1⟩
  else ⟨[.missingDoc manifest spec.path], 0⟩

/-- Check a declared reference. -/
def reference (tree : FileTree) (root manifest : Path) (path : String) : Findings :=
  if tree.has (root.join (.ofString path)) then .none else ⟨[.missingReference manifest path], 0⟩

/-- Check a declared output; one without a fixture asks for nothing. -/
def output (tree : FileTree) (root manifest : Path) (spec : OutputSpec) : Findings :=
  match spec.fixturePath? with
  | none => .none
  | some fixture =>
    if tree.has (root.join (.ofString fixture)) then
      ⟨sections tree root manifest .fixture fixture spec.requiredSections, 1⟩
    else ⟨[.missingFixture manifest fixture], 0⟩

/-- Check all that a manifest declares. -/
def declared (tree : FileTree) (root path : Path) (manifest : Manifest) : Findings :=
  .gather (doc tree root path) (manifest.docs.map DocRef.spec) ++
    .gather (reference tree root path) manifest.references ++
    .gather (output tree root path) manifest.outputs

/-- The manifest at a path, or the violation that there is none. -/
def load (tree : FileTree) (path : Path) : Except Violation Manifest :=
  match tree.readText path with
  | .error fault => .error (.unreadableManifest path fault.message)
  | .ok text =>
    match Manifest.ofText text with
    | .error refusal => .error (.invalidManifest path refusal.reason refusal.line refusal.column)
    | .ok manifest => .ok manifest

/-- Check the manifest at a path. -/
def manifest (tree : FileTree) (root path : Path) : Findings :=
  match load tree path with
  | .error violation => ⟨[violation], 0⟩
  | .ok manifest => declared tree root path manifest

/-- Audit the exercises below a root. Without a base there is nothing to check, which is a violation. -/
def run (tree : FileTree) (root : Path) : Report :=
  if tree.has (basePath root) then
    let manifests := tree.manifests (basePath root)
    let findings := Findings.gather (manifest tree root) manifests
    ⟨findings.violations, ⟨findings.violations.length, manifests.length, findings.documents⟩⟩
  else ⟨[.missingBase root], ⟨1, 0, 0⟩⟩

end Audit

end ExerciseAudit
