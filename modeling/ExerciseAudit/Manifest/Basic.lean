/-!
# Manifests

What an exercise declares: the documents it consists of with the sections they must have, other files it
refers to, and fixtures of its outputs.
-/

namespace ExerciseAudit

/-- A declared document. -/
structure DocSpec where
  path : String
  requiredSections : List String
  deriving DecidableEq, Repr

/-- A declared document as it is written: a bare path, or a record. -/
inductive DocRef where
  | path (bare : String)
  | record (full : DocSpec)
  deriving DecidableEq, Repr

/-- The document that is declared; a bare path requires no sections. -/
def DocRef.spec : DocRef → DocSpec
  | path bare => ⟨bare, []⟩
  | record full => full

/-- A declared output. -/
structure OutputSpec where
  fixture : Option String
  requiredSections : List String
  deriving DecidableEq, Repr

/-- The path of an output's fixture; an empty path declares none. -/
def OutputSpec.fixturePath? (output : OutputSpec) : Option String :=
  output.fixture.filter (· ≠ "")

/-- A manifest. -/
structure Manifest where
  docs : List DocRef
  references : List String
  outputs : List OutputSpec
  deriving DecidableEq, Repr

/-- A manifest that declares nothing. -/
def Manifest.empty : Manifest := ⟨[], [], []⟩

end ExerciseAudit
