import ExerciseAudit.Proofs.Audit.Isolation
import ExerciseAudit.Proofs.FileTree.Content

/-!
# What stands at the base

A path that leads anywhere leads to a file or to a directory, since every link on the way is
followed (`FileTree.resolve_settled`). So a run without a base is one whose base leads nowhere. What a
run makes of a base is settled by what it leads to (`Audit.base_decides`): nowhere is the one
violation that the base is missing, a directory is searched for manifests, and a file is passed
without any violation and without any manifest, as is a directory that cannot be searched.
-/

namespace ExerciseAudit

namespace FileTree

variable {tree : FileTree} {path : Path}

/-! ## Where a walk ends -/

/-- Something stands at a location that is no link. -/
def Settled (tree : FileTree) (location : Location) : Prop :=
  ∃ node, tree.lookup location = some node ∧ ∀ target, node ≠ .link target

/-- Where a walk stops, there is something that is no link, or a directory that holds the link. -/
def SettledAt (tree : FileTree) : Halt → Prop
  | .arrived location => tree.Settled location
  | .atLink directory _ _ => tree.lookup directory = some .directory

theorem settled_of_directory {location : Location}
    (directory : tree.lookup location = some .directory) : tree.Settled location :=
  ⟨.directory, directory, by simp⟩

/-- A step leads from a directory to what is no link, unless it meets one. -/
theorem take_settled {location next : Location} {step : Step}
    (taken : tree.take location step = .ok (.place next)) : tree.Settled next := by
  unfold take at taken
  split at taken
  case h_1 => cases taken
  case h_2 free =>
    -- a step that a path's part asks for is taken from a directory that can be passed through
    rcases obstacle?_eq_none_iff.mp free with directory | ⟨locked, rfl⟩
    · split at taken
      case h_1 | h_3 =>
        cases taken
        exact settled_of_directory directory
      case h_2 =>
        cases taken
        exact settled_of_directory rfl
      case h_4 =>
        cases taken
        exact settled_of_directory (lookup_dropLast directory)
      case h_5 name =>
        split at taken
        case isTrue => cases taken
        case isFalse =>
          split at taken
          case h_1 => cases taken
          case h_2 node found =>
            cases node with
            | link target => cases taken
            | _ =>
              cases taken
              exact ⟨_, found, by simp⟩
    · cases taken
      exact ⟨.lockedDirectory, locked, by simp⟩

/-- Every step leads to what is no link, or stops at a link. -/
theorem advance_settled {location : Location} {steps : List Step} {halt : Halt}
    (settled : tree.Settled location) (reached : tree.advance true location steps = .ok halt) :
    tree.SettledAt halt := by
  induction steps generalizing location with
  | nil =>
    cases reached
    exact settled
  | cons step rest ih =>
    simp only [advance] at reached
    cases taken : tree.take location step with
    | error fault => simp [taken] at reached
    | ok reach =>
      cases reach with
      | place next =>
        simp only [taken] at reached
        exact ih (take_settled taken) reached
      | link entry target =>
        simp only [taken, Bool.true_eq_false, and_false, ↓reduceIte] at reached
        cases reached
        exact (take_link taken).1

/-- A walk that follows all links ends at what is no link. -/
theorem walk_settled {links : Nat} {location last : Location} {steps : List Step}
    (settled : tree.Settled location) (arrived : tree.walk true links location steps = .ok last) :
    tree.Settled last := by
  refine walk_induction (motive := fun _ location _ =>
    tree.Settled location → tree.Settled last) ?_ ?_ arrived settled
  · intro _ location steps halt settled
    exact advance_settled settled halt
  · intro _ location steps directory target rest halt _ onward settled
    have held : tree.lookup directory = some .directory := advance_settled settled halt
    exact onward (settled_of_directory (lookup_start target held))

/-- A path that leads anywhere leads to a file or a directory. -/
theorem resolve_settled {location : Location} (reached : tree.resolve path true = .ok location) :
    tree.Settled location := by
  obtain ⟨_, _, _, walked⟩ := resolve_ok reached
  exact walk_settled (settled_of_directory (lookup_start path tree.lookup_workingDirectory)) walked

theorem has_of_target? {node : Node} (leads : tree.target? path = some node) :
    tree.has path = true := by
  unfold target? at leads
  unfold has
  cases reached : tree.resolve path true with
  | error fault => simp [reached] at leads
  | ok place => rfl

/-- A path at whose end nothing stands leads nowhere. -/
theorem has_of_target?_eq_none (nowhere : tree.target? path = none) : tree.has path = false := by
  unfold target? at nowhere
  unfold has
  cases reached : tree.resolve path true with
  | error fault => rfl
  | ok location =>
    obtain ⟨node, here, _⟩ := resolve_settled reached
    simp [reached, here] at nowhere

/-- Where no directory is at the base that can be searched, nothing is discovered. -/
theorem manifests_of_ne {root : Path} (closed : tree.target? (basePath root) ≠ some .directory) :
    tree.manifests (basePath root) = [] := by
  rw [List.eq_nil_iff_forall_not_mem]
  intro path found
  obtain ⟨node, met, named, _⟩ := mem_manifests_iff.mp found
  rcases mem_entriesFrom_iff.mp met with ⟨rfl, _⟩ | ⟨location, led, directory, _⟩
  · simp [isManifestName_lastName_basePath] at named
  · exact closed (by rw [target?, led]; exact directory)

end FileTree

namespace Audit

open FileTree

variable {tree : FileTree} {root : Path}

/-! ## What a run makes of its base -/

/-- A run whose base leads nowhere reports that, and nothing else. -/
theorem run_of_missing (missing : tree.target? (basePath root) = none) :
    run tree root = ⟨[.missingBase root], ⟨1, 0, 0⟩⟩ := by
  rw [run, has_of_target?_eq_none missing]
  rfl

/-- A run whose base is something else than a directory that can be listed reports nothing. -/
theorem run_of_closed {node : Node} (leads : tree.target? (basePath root) = some node)
    (closed : node ≠ .directory) : run tree root = ⟨[], ⟨0, 0, 0⟩⟩ := by
  rw [run, has_of_target? leads, manifests_of_ne (by simpa [leads] using closed)]
  rfl

/-- A manifest is never reported for the lack of a base. -/
theorem missingBase_not_mem_of_base {other : Path} (base : tree.has (basePath root) = true) :
    .missingBase other ∉ (run tree root).violations := by
  rw [violations_run base, List.mem_flatMap]
  rintro ⟨path, _, member⟩
  cases manifest?_of_mem member

/-- Where a base is there, a run has violations if one of its manifests has. -/
theorem violations_run_eq_nil_iff (base : tree.has (basePath root) = true) :
    (run tree root).violations = [] ↔
      ∀ path ∈ tree.manifests (basePath root), (manifest tree root path).violations = [] := by
  rw [violations_run base, List.flatMap_eq_nil_iff]

/-- The base is reported as missing exactly where it leads nowhere, and then under the root of the
run. -/
theorem missingBase_mem_iff {other : Path} :
    .missingBase other ∈ (run tree root).violations ↔
      other = root ∧ tree.target? (basePath root) = none := by
  constructor
  · intro member
    cases leads : tree.target? (basePath root) with
    | none =>
      rw [run_of_missing leads, List.mem_singleton] at member
      cases member
      exact ⟨rfl, rfl⟩
    | some node => exact absurd member (missingBase_not_mem_of_base (has_of_target? leads))
  · rintro ⟨rfl, missing⟩
    rw [run_of_missing missing]
    exact List.mem_singleton_self _

/-- What it means for a run to find nothing wrong. -/
theorem passes_iff :
    (run tree root).violations = [] ↔
      (∃ node, tree.target? (basePath root) = some node ∧ node ≠ .directory) ∨
        tree.target? (basePath root) = some .directory ∧
          ∀ path ∈ tree.manifests (basePath root), (manifest tree root path).violations = [] := by
  cases leads : tree.target? (basePath root) with
  | none => simp [run_of_missing leads]
  | some node =>
    by_cases directory : node = .directory
    · subst directory
      simp [violations_run_eq_nil_iff (has_of_target? leads)]
    · simp [run_of_closed leads directory, directory]

/-- **The base decides.** The violation that the base is missing is reported exactly where the base
leads nowhere, and is then all that is reported, with no manifest searched. A run without violations
has searched a directory and found nothing in any of its manifests, or its base is something else
than a directory that can be searched, which is passed with nothing searched. -/
theorem base_decides (tree : FileTree) (root : Path) :
    (∀ other, .missingBase other ∈ (run tree root).violations ↔
      other = root ∧ tree.target? (basePath root) = none) ∧
    (tree.target? (basePath root) = none → run tree root = ⟨[.missingBase root], ⟨1, 0, 0⟩⟩) ∧
    (∀ node, tree.target? (basePath root) = some node → node ≠ .directory →
      run tree root = ⟨[], ⟨0, 0, 0⟩⟩) ∧
    (tree.target? (basePath root) = some .directory →
      (run tree root).summary.manifests = (tree.manifests (basePath root)).length) ∧
    ((run tree root).violations = [] ↔
      (∃ node, tree.target? (basePath root) = some node ∧ node ≠ .directory) ∨
        tree.target? (basePath root) = some .directory ∧
          ∀ path ∈ tree.manifests (basePath root), (manifest tree root path).violations = []) := by
  refine ⟨fun _ => missingBase_mem_iff, run_of_missing, fun _ => run_of_closed, ?_, passes_iff⟩
  intro directory
  rw [run, has_of_target? directory]
  rfl

/-- A tree with a file in the place of the base, where a link by its whole path leads. -/
def flatTree : FileTree :=
  (FileTree.empty.put (.ofString "docs/exercises") (.link (.ofString "/x"))).put (.ofString "x")
    (.file [])

/-- A root given by its whole path and through `..`, a base that is a file behind a link, one that
leads nowhere and one that is a directory. -/
theorem base_decides_flatTree :
    flatTree.target? (basePath (.ofString "/docs/..")) = some (.file []) ∧
    run flatTree (.ofString "/docs/..") = ⟨[], ⟨0, 0, 0⟩⟩ ∧
    FileTree.empty.target? (basePath (.ofString ".")) = none ∧
    run FileTree.empty (.ofString ".") = ⟨[.missingBase (.ofString ".")], ⟨1, 0, 0⟩⟩ ∧
    plainTree.target? (basePath (.ofString "/w")) = some .directory ∧
    (run plainTree (.ofString "/w")).summary.manifests =
      (plainTree.manifests (basePath (.ofString "/w"))).length := by
  have file : flatTree.target? (basePath (.ofString "/docs/..")) = some (.file []) := by
    decide +kernel
  have missing : FileTree.empty.target? (basePath (.ofString ".")) = none := by decide +kernel
  have directory : plainTree.target? (basePath (.ofString "/w")) = some .directory := by
    decide +kernel
  obtain ⟨_, _, ofFile, _, _⟩ := base_decides flatTree (.ofString "/docs/..")
  obtain ⟨_, ofMissing, _, _, _⟩ := base_decides FileTree.empty (.ofString ".")
  obtain ⟨_, _, _, ofDirectory, _⟩ := base_decides plainTree (.ofString "/w")
  exact ⟨file, ofFile _ file (by simp), missing, ofMissing missing, directory,
    ofDirectory directory⟩

/-- A tree with a file in the place of the base itself. -/
def floorTree : FileTree :=
  FileTree.empty.put (.ofString "docs/exercises") (.file [])

/-- No directory is at this base, and yet the lack of one is not reported: nothing is. -/
theorem missing_directory_passed :
    floorTree.target? (basePath (.ofString ".")) ≠ some .directory ∧
    .missingBase (.ofString ".") ∉ (run floorTree (.ofString ".")).violations ∧
    (run floorTree (.ofString ".")).violations = [] := by
  decide +kernel

end Audit

end ExerciseAudit
