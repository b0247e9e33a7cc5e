import ExerciseAudit.Path.Basic

/-!
# Violations

A violation is one way in which an exercise's documentation falls short of its manifest. Each carries what
a report needs to name it; its one-line message is a function of that.
-/

namespace ExerciseAudit

/-- The section of a manifest from which a checked document comes. -/
inductive Entry where
  | doc
  | fixture
  deriving DecidableEq, Repr

/-- How an entry's section is named in reports. -/
def Entry.label : Entry → String
  | doc => "doc"
  | fixture => "fixture"

/-- A single failed check. -/
inductive Violation where
  /-- There is no directory of exercises below the root. -/
  | missingBase (root : Path)
  /-- A manifest is text, but not a manifest; the place counts lines from one and columns in bytes. -/
  | invalidManifest (manifest : Path) (reason : String) (line column : Nat)
  /-- A manifest cannot be read as text. -/
  | unreadableManifest (manifest : Path) (reason : String)
  /-- A declared document is not there. -/
  | missingDoc (manifest : Path) (path : String)
  /-- A declared reference is not there. -/
  | missingReference (manifest : Path) (path : String)
  /-- A declared output fixture is not there. -/
  | missingFixture (manifest : Path) (path : String)
  /-- A document lacks a section that its entry requires. -/
  | missingHeading (manifest : Path) (heading path : String) (entry : Entry)
  /-- A document whose sections are to be checked cannot be read as text. -/
  | unreadableDocument (manifest : Path) (path : String) (entry : Entry) (reason : String)
  deriving DecidableEq, Repr

namespace Violation

/-- The tag of a violation in reports. -/
def kind : Violation → String
  | missingBase .. => "missing-base"
  | invalidManifest .. => "invalid-manifest"
  | unreadableManifest .. => "unreadable-manifest"
  | missingDoc .. => "missing-doc"
  | missingReference .. => "missing-reference"
  | missingFixture .. => "missing-fixture"
  | missingHeading .. => "missing-heading"
  | unreadableDocument .. => "unreadable-document"

/-- The manifest to which a violation belongs; a missing base belongs to none. -/
def manifest? : Violation → Option Path
  | missingBase _ => none
  | invalidManifest manifest .. | unreadableManifest manifest _ | missingDoc manifest _
  | missingReference manifest _ | missingFixture manifest _ | missingHeading manifest ..
  | unreadableDocument manifest .. => some manifest

/-- The message of a violation. -/
def message : Violation → String
  | missingBase root => root.display ++ ": missing docs/exercises"
  | invalidManifest manifest reason line _ =>
    manifest.display ++ ": invalid JSON (" ++ reason ++ " at line " ++ line.repr ++ ")"
  | unreadableManifest manifest reason =>
    manifest.display ++ ": unreadable manifest (" ++ reason ++ ")"
  | missingDoc manifest path => manifest.display ++ ": missing doc " ++ path
  | missingReference manifest path => manifest.display ++ ": missing reference " ++ path
  | missingFixture manifest path => manifest.display ++ ": missing fixture " ++ path
  | missingHeading manifest heading path _ =>
    manifest.display ++ ": missing heading '" ++ heading ++ "' in " ++ path
  | unreadableDocument manifest path entry reason =>
    manifest.display ++ ": unreadable " ++ entry.label ++ " " ++ path ++ " (" ++ reason ++ ")"

end Violation

end ExerciseAudit
