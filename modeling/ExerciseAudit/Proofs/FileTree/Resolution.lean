import ExerciseAudit.Proofs.Path.Join
import Mathlib.Data.List.Induction

/-!
# Following a path step by step

Where a path leads is settled step by step: the steps behind a location that has been reached are
taken from there, with the links that are still allowed. So a path with a name joined to it leads to
the entry of that name in the directory to which the path leads. What files contain has no say in any
of this.
-/

namespace ExerciseAudit

/-- A node without the content of a file. -/
def Node.outline : Node → Node
  | .file _ => .file []
  | node => node

namespace FileTree

variable {tree other : FileTree} {followLast : Bool}

/-! ## What resolution depends on -/

/-- Two trees have the same working directory, the same directories and links, and files in the same
places. -/
structure SameOutline (tree other : FileTree) : Prop where
  home : tree.workingDirectory = other.workingDirectory
  nodes : ∀ location,
    (tree.lookup location).map Node.outline = (other.lookup location).map Node.outline

namespace SameOutline

/-- Where two trees of the same outline hold something different, both hold files. -/
theorem lookup_cases (same : SameOutline tree other) (location : Location) :
    tree.lookup location = other.lookup location ∨
      ∃ content content', tree.lookup location = some (.file content) ∧
        other.lookup location = some (.file content') := by
  have here := same.nodes location
  cases left : tree.lookup location with
  | none => cases right : other.lookup location <;> simp_all
  | some node =>
    cases right : other.lookup location with
    | none => simp_all
    | some node' => cases node <;> cases node' <;> simp_all [Node.outline]

theorem symm (same : SameOutline tree other) : SameOutline other tree :=
  ⟨same.home.symm, fun location => (same.nodes location).symm⟩

/-- What is no file that can be read stands in both trees alike. -/
theorem lookup_eq (same : SameOutline tree other) {location : Location} {node : Node}
    (here : tree.lookup location = some node) (noFile : ∀ content, node ≠ .file content) :
    other.lookup location = some node := by
  rcases same.lookup_cases location with alike | ⟨content, _, file, _⟩
  · rw [← alike, here]
  · exact absurd (Option.some.inj (here.symm.trans file)) (noFile content)

/-- Directories that can be looked into are the same in both trees. -/
theorem directory_iff (same : SameOutline tree other) (location : Location) :
    tree.lookup location = some .directory ↔ other.lookup location = some .directory :=
  ⟨fun here => same.lookup_eq here (by simp), fun there => same.symm.lookup_eq there (by simp)⟩

theorem obstacle?_eq (same : SameOutline tree other) (location : Location) (step : Step) :
    tree.obstacle? location step = other.obstacle? location step := by
  rcases same.lookup_cases location with alike | ⟨_, _, here, there⟩
  · simp only [obstacle?, alike]
  · simp only [obstacle?, here, there]

theorem take_eq (same : SameOutline tree other) (location : Location) (step : Step) :
    tree.take location step = other.take location step := by
  simp only [take, same.obstacle?_eq]
  cases step with
  | directory => rfl
  | part component =>
    cases component with
    | name name =>
      rcases same.lookup_cases (location ++ [name]) with alike | ⟨_, _, here, there⟩
      · simp only [alike]
      · simp only [here, there, Node.reach]
    | _ => rfl

theorem advance_eq (same : SameOutline tree other) (location : Location) (steps : List Step) :
    tree.advance followLast location steps = other.advance followLast location steps := by
  induction steps generalizing location with
  | nil => rfl
  | cons step rest ih => simp only [advance, same.take_eq, ih]

/-- A walk ends at the same place in both trees, links followed. -/
theorem walk_eq (same : SameOutline tree other) (links : Nat) (location : Location)
    (steps : List Step) :
    tree.walk followLast links location steps = other.walk followLast links location steps := by
  induction links generalizing location steps with
  | zero => rw [walk, walk, same.advance_eq]
  | succ links ih =>
    rw [walk, walk, same.advance_eq]
    simp only [ih]

/-- A path leads to the same location in trees of the same outline. -/
theorem resolve_eq (same : SameOutline tree other) (path : Path) :
    tree.resolve path followLast = other.resolve path followLast := by
  simp only [resolve, same.walk_eq, same.home]

end SameOutline

/-! ## Single steps -/

/-- Steps are taken from directories. Only to ask for a directory is possible in a locked one, too. -/
theorem obstacle?_eq_none_iff {location : Location} {step : Step} :
    tree.obstacle? location step = none ↔ tree.lookup location = some .directory ∨
      tree.lookup location = some .lockedDirectory ∧ step = .directory := by
  unfold obstacle?
  split
  case h_1 here => simp [here]
  case h_2 here => simp [here]
  case h_3 noDirectory noLocked =>
    constructor
    · intro free
      cases free
    · rintro (here | ⟨here, _⟩)
      · exact absurd here noDirectory
      · exact absurd here noLocked

/-- A step that leads to a link is one to an entry of a directory, where the link stands. -/
theorem take_link {location entry : Location} {step : Step} {target : Path}
    (met : tree.take location step = .ok (.link entry target)) :
    tree.lookup location = some .directory ∧ tree.lookup entry = some (.link target) := by
  unfold take at met
  split at met
  case h_1 => cases met
  case h_2 free =>
    split at met
    case h_5 name =>
      have directory : tree.lookup location = some .directory := by
        simpa using obstacle?_eq_none_iff.mp free
      split at met
      case isTrue => cases met
      case isFalse =>
        split at met
        case h_1 => cases met
        case h_2 node found =>
          cases node with
          | link other =>
            cases met
            exact ⟨directory, found⟩
          | _ => cases met
    all_goals cases met

/-! ## Taking more steps -/

/-- Steps behind others are taken from where the others end, or are left over at a link. -/
theorem advance_append (location : Location) (steps : List Step) {more : List Step}
    (inhabited : more ≠ []) :
    tree.advance followLast location (steps ++ more) =
      match tree.advance true location steps with
      | .error fault => .error fault
      | .ok (.arrived next) => tree.advance followLast next more
      | .ok (.atLink directory target rest) => .ok (.atLink directory target (rest ++ more)) := by
  induction steps generalizing location with
  | nil => simp only [List.nil_append, advance]
  | cons step rest ih =>
    simp only [List.cons_append, advance]
    cases tree.take location step with
    | error fault => rfl
    | ok reach =>
      cases reach with
      | place next => exact ih next
      | link entry target => simp [inhabited]

/-- A walk that stops without a link has arrived. -/
theorem walk_of_arrived {location last : Location} {steps : List Step}
    (halt : tree.advance followLast location steps = .ok (.arrived last)) (links : Nat) :
    tree.walk followLast links location steps = .ok last := by
  rw [walk.eq_def, halt]

/-- A walk that stops at a link goes on where the link leads, with one link less. -/
theorem walk_of_atLink {location directory : Location} {target : Path} {steps rest : List Step}
    (halt : tree.advance followLast location steps = .ok (.atLink directory target rest))
    (leads : target.bytes ≠ []) (links : Nat) :
    tree.walk followLast (links + 1) location steps =
      tree.walk followLast links (target.start directory) (target.steps ++ rest) := by
  rw [walk, halt]
  exact if_neg leads

/-- What holds of walks that stop without a link, and of those that stop at one if it holds of the
walk from where the link leads, holds of every walk that arrives. -/
theorem walk_induction {last : Location} {motive : Nat → Location → List Step → Prop}
    (arrived : ∀ links location steps,
      tree.advance followLast location steps = .ok (.arrived last) → motive links location steps)
    (link : ∀ links location steps directory target rest,
      tree.advance followLast location steps = .ok (.atLink directory target rest) →
      target.bytes ≠ [] → motive links (target.start directory) (target.steps ++ rest) →
      motive (links + 1) location steps)
    {links : Nat} {location : Location} {steps : List Step}
    (walked : tree.walk followLast links location steps = .ok last) :
    motive links location steps := by
  induction links generalizing location steps with
  | zero =>
    rw [walk] at walked
    split at walked
    case h_1 => cases walked
    case h_2 here halt =>
      cases walked
      exact arrived 0 location steps halt
    case h_3 => cases walked
  | succ links ih =>
    rw [walk] at walked
    split at walked
    case h_1 => cases walked
    case h_2 here halt =>
      cases walked
      exact arrived (links + 1) location steps halt
    case h_3 directory target rest halt =>
      simp only at walked
      split at walked
      case isTrue => cases walked
      case isFalse leads =>
        exact link links location steps directory target rest halt leads (ih walked)

/-- A walk that has arrived goes on from there, with no more links than it was allowed. If it had
been allowed more, it would have as many more left. -/
theorem walk_append_of_links {links : Nat} {location next : Location} {steps : List Step}
    (arrived : tree.walk true links location steps = .ok next) :
    ∃ left ≤ links, ∀ extra followLast more, more ≠ [] →
      tree.walk followLast (links + extra) location (steps ++ more) =
        tree.walk followLast (left + extra) next more := by
  refine walk_induction (motive := fun links location steps =>
    ∃ left ≤ links, ∀ extra followLast more, more ≠ [] →
      tree.walk followLast (links + extra) location (steps ++ more) =
        tree.walk followLast (left + extra) next more) ?_ ?_ arrived
  · intro links location steps halt
    refine ⟨links, Nat.le_refl links, fun extra followLast more inhabited => ?_⟩
    rw [walk.eq_def, advance_append location steps inhabited, halt, walk.eq_def]
  · intro links location steps directory target rest halt leads given
    obtain ⟨left, fewer, onward⟩ := given
    refine ⟨left, Nat.le_succ_of_le fewer, fun extra followLast more inhabited => ?_⟩
    have stop : tree.advance followLast location (steps ++ more) =
        .ok (.atLink directory target (rest ++ more)) := by
      rw [advance_append location steps inhabited, halt]
    rw [Nat.add_right_comm, walk_of_atLink stop leads, ← List.append_assoc]
    exact onward extra followLast more inhabited

/-- A walk goes on from where its first steps arrive, with the links that are left. -/
theorem walk_append {links : Nat} {location next : Location} {steps : List Step}
    (arrived : tree.walk true links location steps = .ok next) :
    ∃ left ≤ links, ∀ followLast more, more ≠ [] →
      tree.walk followLast links location (steps ++ more) =
        tree.walk followLast left next more := by
  obtain ⟨left, fewer, onward⟩ := walk_append_of_links arrived
  exact ⟨left, fewer, onward 0⟩

/-- More links make no difference to a walk that does not run out of them. -/
theorem walk_add_links {links : Nat} {location : Location} {steps : List Step}
    (enough : tree.walk followLast links location steps ≠ .error .tooManyLinks) (more : Nat) :
    tree.walk followLast (links + more) location steps =
      tree.walk followLast links location steps := by
  induction links generalizing location steps with
  | zero =>
    rw [walk] at enough
    rw [walk.eq_def, walk]
    split
    case h_1 => rfl
    case h_2 => rfl
    case h_3 halt => simp [halt] at enough
  | succ links ih =>
    rw [walk] at enough
    rw [Nat.add_right_comm, walk, walk]
    split
    case h_1 => rfl
    case h_2 => rfl
    case h_3 halt =>
      simp only [halt] at enough ⊢
      split
      case isTrue => rfl
      case isFalse leads =>
        rw [if_neg leads] at enough
        exact ih enough

/-- To ask for a directory before another step asks for nothing that this step does not ask for. -/
theorem advance_directory (location : Location) {more : List Step} (inhabited : more ≠ []) :
    tree.advance followLast location (.directory :: more) =
      tree.advance followLast location more := by
  obtain ⟨next, rest, rfl⟩ := List.exists_cons_of_ne_nil inhabited
  have blocked : tree.obstacle? location .directory = none ∨
      ∃ fault, tree.obstacle? location .directory = some fault ∧
        tree.obstacle? location next = some fault := by
    unfold obstacle?
    split <;> simp
  rcases blocked with free | ⟨fault, here, there⟩
  · simp only [advance, take, free]
  · simp only [advance, take, here, there]

/-- Asking for a directory in the middle of a walk changes nothing, since the next step asks for
one. -/
theorem walk_directory (links : Nat) (location : Location) (steps : List Step) {more : List Step}
    (inhabited : more ≠ []) :
    tree.walk followLast links location (steps ++ .directory :: more) =
      tree.walk followLast links location (steps ++ more) := by
  induction links generalizing location steps with
  | zero =>
    rw [walk, walk, advance_append location steps (List.cons_ne_nil _ _),
      advance_append location steps inhabited]
    cases tree.advance true location steps with
    | error fault => rfl
    | ok halt =>
      cases halt with
      | arrived next => simp only [advance_directory next inhabited]
      | atLink directory target rest => rfl
  | succ links ih =>
    rw [walk, walk, advance_append location steps (List.cons_ne_nil _ _),
      advance_append location steps inhabited]
    cases tree.advance true location steps with
    | error fault => rfl
    | ok halt =>
      cases halt with
      | arrived next => simp only [advance_directory next inhabited]
      | atLink directory target rest => simp only [← List.append_assoc, ih]

/-- The separator at the end of a path makes no difference to the steps behind it. -/
theorem walk_steps_append (links : Nat) (location : Location) (path : Path) {more : List Step}
    (inhabited : more ≠ []) :
    tree.walk followLast links location (path.steps ++ more) =
      tree.walk followLast links location (path.parts.map .part ++ more) := by
  unfold Path.steps
  split
  · rw [List.append_assoc]
    exact walk_directory links location (path.parts.map .part) inhabited
  · rw [List.append_nil]

/-! ## Joining a name -/

/-- A path with a name added takes the path's steps and then the name, whether the path ends in a
separator or not. -/
theorem steps_join_name (path : Path) {name : Name} (valid : name.Valid) :
    (path.join ⟨name⟩).steps = path.parts.map .part ++ [.part (.name name)] := by
  have unclosed : (path.join ⟨name⟩).bytes.getLast? ≠ some separator := by
    obtain ⟨front, last, same⟩ := (List.eq_nil_or_concat' name).resolve_left valid.1
    have other : last ≠ separator := fun equal => valid.2.1 (by simp [same, equal])
    rw [Path.bytes_join_name path valid, same]
    split <;> simp [List.getLast?_append, List.getLast?_cons, other]
  rw [Path.steps, if_neg unclosed, List.append_nil, Path.parts_join_name path valid,
    List.map_append, List.map_singleton]

section Entries

variable {location : Location} {name : Name}

theorem take_name_of_none (directory : tree.lookup location = some .directory)
    (valid : name.Valid) (vacant : tree.lookup (location ++ [name]) = none) :
    tree.take location (.part (.name name)) = .error .notFound := by
  have short : ¬ maxNameBytes < name.length := Nat.not_lt.mpr valid.2.2.2.2.2
  simp only [take, obstacle?, directory, short, ↓reduceIte, vacant]

/-- A step to an entry of a directory is settled by what stands there. -/
theorem take_name (directory : tree.lookup location = some .directory) (valid : name.Valid)
    {node : Node} (found : tree.lookup (location ++ [name]) = some node) :
    tree.take location (.part (.name name)) = .ok (node.reach (location ++ [name])) := by
  have short : ¬ maxNameBytes < name.length := Nat.not_lt.mpr valid.2.2.2.2.2
  simp only [take, obstacle?, directory, short, ↓reduceIte, found]

theorem walk_name_of_none (left : Nat) (directory : tree.lookup location = some .directory)
    (valid : name.Valid) (vacant : tree.lookup (location ++ [name]) = none) :
    tree.walk followLast left location [.part (.name name)] = .error .notFound := by
  rw [walk.eq_def, advance, take_name_of_none directory valid vacant]

/-- A walk to a name that a directory holds arrives there, if it need not follow a link. -/
theorem walk_name (left : Nat) (directory : tree.lookup location = some .directory)
    (valid : name.Valid) {node : Node} (found : tree.lookup (location ++ [name]) = some node) :
    tree.walk false left location [.part (.name name)] = .ok (location ++ [name]) := by
  rw [walk.eq_def, advance, take_name directory valid found]
  cases node <;> simp [Node.reach, advance]

/-- Nothing is reached by name from what is no directory or a locked one. -/
theorem walk_name_of_ne (left : Nat) (closed : tree.lookup location ≠ some .directory)
    (name : Name) :
    ∃ fault, tree.walk followLast left location [.part (.name name)] = .error fault := by
  have blocked : ∃ fault, tree.obstacle? location (.part (.name name)) = some fault := by
    unfold obstacle?
    split
    case h_1 directory => exact absurd directory closed
    case h_2 => exact ⟨_, rfl⟩
    case h_3 => exact ⟨_, rfl⟩
  obtain ⟨fault, stopped⟩ := blocked
  refine ⟨fault, ?_⟩
  rw [walk.eq_def, advance, take, stopped]

end Entries

variable {path : Path} {location : Location} {name : Name}

/-- A path that leads somewhere can be walked: it has no zero byte, is not empty and not too long.
-/
theorem resolve_ok (reached : tree.resolve path followLast = .ok location) :
    0 ∉ path.bytes ∧ path.bytes ≠ [] ∧ path.bytes.length < pathByteLimit ∧
      tree.walk followLast maxLinks (path.start tree.workingDirectory) path.steps =
        .ok location := by
  unfold resolve at reached
  split at reached
  case isTrue => cases reached
  case isFalse clean =>
    split at reached
    case isTrue => cases reached
    case isFalse inhabited =>
      split at reached
      case isTrue => cases reached
      case isFalse short => exact ⟨clean, inhabited, Nat.not_le.mp short, reached⟩

/-- With a name added, a path leads to that name in the directory it led to. -/
theorem resolve_join_name (reached : tree.resolve path true = .ok location)
    (valid : name.Valid) (short : (path.join ⟨name⟩).bytes.length < pathByteLimit) :
    ∃ left, ∀ followLast, tree.resolve (path.join ⟨name⟩) followLast =
      tree.walk followLast left location [.part (.name name)] := by
  obtain ⟨clean, inhabited, _, walked⟩ := resolve_ok reached
  obtain ⟨left, _, onward⟩ := walk_append walked
  refine ⟨left, fun followLast => ?_⟩
  rw [resolve, if_neg (Path.zero_not_mem_join_name clean valid),
    if_neg (Path.bytes_join_name_ne_nil path valid), if_neg (Nat.not_le.mpr short),
    Path.start, Path.isAbsolute_join_name inhabited valid, steps_join_name path valid,
    ← walk_steps_append _ _ path (List.cons_ne_nil _ _)]
  exact onward followLast _ (List.cons_ne_nil _ _)

/-- Nothing is met below what cannot be looked into. -/
theorem nodeAt?_join_closed (reached : tree.resolve path true = .ok location)
    (closed : tree.lookup location ≠ some .directory) (valid : name.Valid) :
    tree.nodeAt? (path.join ⟨name⟩) = none := by
  unfold nodeAt?
  by_cases short : (path.join ⟨name⟩).bytes.length < pathByteLimit
  · obtain ⟨left, onward⟩ := resolve_join_name reached valid short
    obtain ⟨fault, nowhere⟩ :
        ∃ fault, tree.walk false left location [.part (.name name)] = .error fault :=
      walk_name_of_ne left closed name
    rw [onward, nowhere]
  · cases found : tree.resolve (path.join ⟨name⟩) false with
    | error fault => rfl
    | ok place => exact absurd (resolve_ok found).2.2.1 short

/-- What is met at a name is what the directory holds under it. -/
theorem nodeAt?_join_name (reached : tree.resolve path true = .ok location)
    (directory : tree.lookup location = some .directory) (valid : name.Valid)
    (short : (path.join ⟨name⟩).bytes.length < pathByteLimit) :
    tree.nodeAt? (path.join ⟨name⟩) = tree.lookup (location ++ [name]) := by
  obtain ⟨left, onward⟩ := resolve_join_name reached valid short
  rw [nodeAt?, onward]
  cases found : tree.lookup (location ++ [name]) with
  | none => rw [walk_name_of_none left directory valid found]
  | some node =>
    rw [walk_name left directory valid found]
    exact found

/-- A name joined to a path leads to the entry of that name, if it is no link. -/
theorem resolve_join_entry (reached : tree.resolve path true = .ok location)
    (directory : tree.lookup location = some .directory) (valid : name.Valid)
    (short : (path.join ⟨name⟩).bytes.length < pathByteLimit) {node : Node}
    (next : tree.lookup (location ++ [name]) = some node)
    (noLink : ∀ target, node ≠ .link target) :
    tree.resolve (path.join ⟨name⟩) true = .ok (location ++ [name]) := by
  obtain ⟨left, onward⟩ := resolve_join_name reached valid short
  rw [onward, walk.eq_def, advance, take_name directory valid next]
  cases node with
  | link target => exact absurd rfl (noLink target)
  | _ => simp only [Node.reach, advance]

/-! ## Links at the end -/

/-- Not following the last link makes a difference only if a link is met last. -/
theorem advance_last (location : Location) (steps : List Step) :
    tree.advance false location steps = tree.advance true location steps ∨
      ∃ last target, tree.advance false location steps = .ok (.arrived last) ∧
        tree.lookup last = some (.link target) := by
  induction steps generalizing location with
  | nil => exact .inl rfl
  | cons step rest ih =>
    simp only [advance]
    cases reach : tree.take location step with
    | error fault => exact .inl rfl
    | ok reached =>
      cases reached with
      | place next => exact ih next
      | link entry target =>
        by_cases final : rest = []
        · exact .inr ⟨entry, target, by simp [final], (take_link reach).2⟩
        · simp [final]

/-- Where a walk that does not follow the last link arrives, the one that does arrives as well,
unless a link stands there. -/
theorem walk_last {links : Nat} {location last : Location} {steps : List Step}
    (arrived : tree.walk false links location steps = .ok last) :
    tree.walk true links location steps = .ok last ∨
      ∃ target, tree.lookup last = some (.link target) := by
  refine walk_induction (motive := fun links location steps =>
    tree.walk true links location steps = .ok last ∨
      ∃ target, tree.lookup last = some (.link target)) ?_ ?_ arrived
  · intro links location steps halt
    rcases tree.advance_last location steps with same | ⟨stop, target, stopped, isLink⟩
    · exact .inl (walk_of_arrived (same ▸ halt) links)
    · rw [stopped] at halt
      cases halt
      exact .inr ⟨target, isLink⟩
  · intro links location steps directory target rest halt leads onward
    -- a walk that does not follow the last link stops at a link only with some steps left
    rcases tree.advance_last location steps with same | ⟨stop, other, stopped, _⟩
    · rwa [walk_of_atLink (same ▸ halt) leads]
    · rw [stopped] at halt
      cases halt

/-- What is met at a path and is no link is also what the path leads to. -/
theorem target?_of_nodeAt? {node : Node} (here : tree.nodeAt? path = some node)
    (noLink : ∀ target, node ≠ .link target) : tree.target? path = some node := by
  unfold nodeAt? at here
  cases found : tree.resolve path false with
  | error fault => simp [found] at here
  | ok place =>
    simp only [found] at here
    obtain ⟨clean, inhabited, short, walked⟩ := resolve_ok found
    rcases walk_last walked with same | ⟨target, isLink⟩
    · rw [target?, resolve, if_neg clean, if_neg inhabited, if_neg (Nat.not_le.mpr short), same]
      exact here
    · exact absurd (Option.some.inj (here.symm.trans isLink)) (noLink target)

/-! ## Following names -/

/-- A path followed by names of directories, each in the one before, leads to the last of them. -/
theorem resolve_descend (reached : tree.resolve path true = .ok location)
    {names : List Name} (valid : ∀ name ∈ names, name.Valid)
    (short : (path.descend names).bytes.length < pathByteLimit)
    (above : ∀ start, start <+: names → tree.lookup (location ++ start) = some .directory) :
    tree.resolve (path.descend names) true = .ok (location ++ names) := by
  induction names using List.reverseRecOn with
  | nil => simpa using reached
  | append_singleton front name ih =>
    obtain ⟨validFront, validName⟩ := List.forall_mem_append.mp valid
    have named : name.Valid := validName name (List.mem_singleton_self name)
    have step : path.descend (front ++ [name]) = (path.descend front).join ⟨name⟩ := by
      rw [Path.descend_append, Path.descend_cons, Path.descend_nil]
    rw [step] at short ⊢
    have frontReached := ih validFront (Nat.lt_trans (Path.length_lt_join_name _ named) short)
      fun start within => above start (within.trans (List.prefix_append _ _))
    have here := above front (List.prefix_append _ _)
    have next := above (front ++ [name]) (List.prefix_refl _)
    rw [← List.append_assoc] at next ⊢
    exact resolve_join_entry frontReached here named short next (by simp)

/-- What stands at a path followed by names is what stands below the location to which the path
leads, if all but the last of the names are those of directories. -/
theorem nodeAt?_descend (reached : tree.resolve path true = .ok location)
    {names : List Name} (inhabited : names ≠ []) (valid : ∀ name ∈ names, name.Valid)
    (short : (path.descend names).bytes.length < pathByteLimit)
    (above : ∀ start, start <+: names → start ≠ names →
      tree.lookup (location ++ start) = some .directory) :
    tree.nodeAt? (path.descend names) = tree.lookup (location ++ names) := by
  obtain ⟨front, name, rfl⟩ := (List.eq_nil_or_concat' names).resolve_left inhabited
  obtain ⟨validFront, validName⟩ := List.forall_mem_append.mp valid
  have named : name.Valid := validName name (List.mem_singleton_self name)
  have shorter {start : List Name} (within : start <+: front) : start ≠ front ++ [name] := by
    rintro rfl
    have longer := within.length_le
    simp only [List.length_append, List.length_singleton] at longer
    omega
  rw [Path.descend_append, Path.descend_cons, Path.descend_nil] at short ⊢
  have frontReached := resolve_descend reached validFront
    (Nat.lt_trans (Path.length_lt_join_name _ named) short)
    fun start within => above start (within.trans (List.prefix_append _ _)) (shorter within)
  have here := above front (List.prefix_append _ _) (shorter (List.prefix_refl _))
  rw [nodeAt?_join_name frontReached here named short, List.append_assoc]

/-- Everything on the way to an entry is a directory that can be looked into. -/
theorem lookup_above {location more : Location} {node : Node}
    (listed : (location ++ more, node) ∈ tree.entries) (inhabited : more ≠ []) :
    tree.lookup location = some .directory := by
  induction more using List.reverseRecOn generalizing node with
  | nil => exact absurd rfl inhabited
  | append_singleton front name ih =>
    have holder := tree.held _ listed
    simp only [← List.append_assoc, List.dropLast_concat] at holder
    by_cases last : front = []
    · subst last
      rw [List.append_nil] at holder
      rcases holder with top | above
      · simp [lookup, top]
      · exact (lookup_eq_some_iff (tree.below _ above)).mpr above
    · rcases holder with top | above
      · exact absurd (List.append_eq_nil_iff.mp top).2 last
      · exact ih above last

end FileTree

end ExerciseAudit
