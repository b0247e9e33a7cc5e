import ExerciseAudit.Proofs.FileTree.Resolution

/-!
# What a path looks at

The trail of a path is the list of the locations that are looked up on its way, behind links
included. Trees that hold the same along the trail lead the path to the same place and hold the same
there (`FileTree.Along.target?_eq`), whatever else they hold.
-/

namespace ExerciseAudit

namespace FileTree

/-! ## Trails -/

/-- What a step looks at: where the walk stands, and the entry that the step names if nothing is in
its way. -/
def stepTrail (tree : FileTree) (location : Location) : Step → List Location
  | .part (.name name) =>
    if tree.obstacle? location (.part (.name name)) = none ∧ name.length ≤ maxNameBytes then
      [location, location ++ [name]]
    else [location]
  | _ => [location]

/-- What a walk looks at until the next link that has to be followed. -/
def advanceTrail (tree : FileTree) : Location → List Step → List Location
  | location, [] => [location]
  | location, step :: rest =>
    tree.stepTrail location step ++
      match tree.take location step with
      | .ok (.place next) => tree.advanceTrail next rest
      | _ => []

/-- What a walk looks at that follows at most `links` links. -/
def walkTrail (tree : FileTree) (links : Nat) (location : Location) (steps : List Step) :
    List Location :=
  tree.advanceTrail location steps ++
    match tree.advance true location steps with
    | .error _ => []
    | .ok (.arrived _) => []
    | .ok (.atLink directory target rest) =>
      match links with
      | 0 => []
      | links + 1 =>
        if target.bytes = [] then []
        else tree.walkTrail links (target.start directory) (target.steps ++ rest)

/-- What is looked at to find what a path leads to. -/
def trail (tree : FileTree) (path : Path) : List Location :=
  if 0 ∈ path.bytes ∨ path.bytes = [] ∨ pathByteLimit ≤ path.bytes.length then []
  else tree.walkTrail maxLinks (path.start tree.workingDirectory) path.steps

/-- Two trees hold the same at some locations. -/
def Along (locations : List Location) (tree other : FileTree) : Prop :=
  ∀ location ∈ locations, tree.lookup location = other.lookup location

namespace Along

variable {tree other : FileTree} {first second : List Location}

theorem append_iff :
    Along (first ++ second) tree other ↔ Along first tree other ∧ Along second tree other :=
  List.forall_mem_append

/-! ## The same along the trail -/

theorem lookup_eq_of_stepTrail {location : Location} {step : Step}
    (same : Along (tree.stepTrail location step) tree other) :
    tree.lookup location = other.lookup location := by
  apply same
  unfold stepTrail
  split
  · split <;> simp
  · exact List.mem_singleton_self location

/-- Whether a step is barred is settled by what stands where it starts. -/
theorem obstacle?_eq {location : Location} (here : tree.lookup location = other.lookup location)
    (step : Step) : tree.obstacle? location step = other.obstacle? location step := by
  simp only [obstacle?, here]

/-- A step leads to the same. -/
theorem take_eq {location : Location} {step : Step}
    (same : Along (tree.stepTrail location step) tree other) :
    tree.take location step = other.take location step := by
  simp only [take, ← obstacle?_eq (lookup_eq_of_stepTrail same)]
  cases blocked : tree.obstacle? location step with
  | some fault => rfl
  | none =>
    cases step with
    | directory => rfl
    | part component =>
      cases component with
      | name name =>
        by_cases long : maxNameBytes < name.length
        · simp only [if_pos long]
        · -- nothing is in the way of the step, so the entry that it names is on the trail
          have listed : location ++ [name] ∈ tree.stepTrail location (.part (.name name)) := by
            simp [stepTrail, blocked, Nat.not_lt.mp long]
          simp only [if_neg long, same _ listed]
      | _ => rfl

/-- A walk starts by looking at where it stands. -/
theorem lookup_eq_of_advanceTrail {location : Location} {steps : List Step}
    (same : Along (tree.advanceTrail location steps) tree other) :
    tree.lookup location = other.lookup location := by
  cases steps with
  | nil => exact same location (List.mem_singleton_self location)
  | cons step rest => exact lookup_eq_of_stepTrail (append_iff.mp same).1

/-- A walk goes the same way until the next link; if it arrives before, it finds the same there. -/
theorem advance_eq {location : Location} {steps : List Step}
    (same : Along (tree.advanceTrail location steps) tree other) :
    tree.advance true location steps = other.advance true location steps ∧
      ∀ last, tree.advance true location steps = .ok (.arrived last) →
        tree.lookup last = other.lookup last := by
  induction steps generalizing location with
  | nil =>
    refine ⟨rfl, fun last arrived => ?_⟩
    cases arrived
    exact lookup_eq_of_advanceTrail same
  | cons step rest ih =>
    obtain ⟨first, later⟩ := append_iff.mp same
    simp only [advance, ← take_eq first]
    cases reach : tree.take location step with
    | error fault => exact ⟨rfl, by simp⟩
    | ok reached =>
      cases reached with
      | place next =>
        rw [reach] at later
        exact ih later
      | link entry target => exact ⟨rfl, by simp⟩

/-- A walk arrives at the same location and finds the same there. -/
theorem walk_eq {links : Nat} {location : Location} {steps : List Step}
    (same : Along (tree.walkTrail links location steps) tree other) :
    tree.walk true links location steps = other.walk true links location steps ∧
      ∀ last, tree.walk true links location steps = .ok last →
        tree.lookup last = other.lookup last := by
  induction links generalizing location steps with
  | zero =>
    rw [walkTrail] at same
    obtain ⟨advanced, found⟩ := advance_eq (append_iff.mp same).1
    rw [walk, walk, ← advanced]
    split
    case h_1 => exact ⟨rfl, by simp⟩
    case h_2 place arrived =>
      refine ⟨rfl, fun last here => ?_⟩
      cases here
      exact found place arrived
    case h_3 => exact ⟨rfl, by simp⟩
  | succ links ih =>
    rw [walkTrail] at same
    obtain ⟨first, later⟩ := append_iff.mp same
    obtain ⟨advanced, found⟩ := advance_eq first
    rw [walk, walk, ← advanced]
    split
    case h_1 => exact ⟨rfl, by simp⟩
    case h_2 place arrived =>
      refine ⟨rfl, fun last here => ?_⟩
      cases here
      exact found place arrived
    case h_3 directory target rest halt =>
      rw [halt] at later
      simp only at later ⊢
      split
      case isTrue => exact ⟨rfl, by simp⟩
      case isFalse leads =>
        rw [if_neg leads] at later
        exact ih later

/-- A path leads to the same thing in trees that have the same working directory and are the same
along its trail. -/
theorem target?_eq {path : Path} (home : tree.workingDirectory = other.workingDirectory)
    (same : Along (tree.trail path) tree other) : tree.target? path = other.target? path := by
  unfold trail at same
  unfold target? resolve
  by_cases zero : 0 ∈ path.bytes
  · simp only [if_pos zero]
  by_cases empty : path.bytes = []
  · simp only [if_neg zero, if_pos empty]
  by_cases long : pathByteLimit ≤ path.bytes.length
  · simp only [if_neg zero, if_neg empty, if_pos long]
  rw [if_neg (by simp only [zero, empty, long, or_self, not_false_eq_true])] at same
  obtain ⟨walked, found⟩ := walk_eq same
  simp only [if_neg zero, if_neg empty, if_neg long, ← home, ← walked]
  split
  case h_1 place arrived => exact found place arrived
  case h_2 => rfl

end Along

end FileTree

end ExerciseAudit
