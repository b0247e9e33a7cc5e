import ExerciseAudit.Discovery
import Mathlib.Data.List.Basic

/-!
# The parts of a joined path

Joining a relative path to another adds its parts to the other's, and joining the name of a directory
entry adds that name to the components as well. Neither changes anything else, nor whether the path
is absolute. A path followed by names is therefore told apart from its other continuations by the
names.
-/

namespace ExerciseAudit

namespace Path

theorem splitSeparator_ne_nil (bytes : List UInt8) : splitSeparator bytes ≠ [] := by
  cases bytes with
  | nil => simp [splitSeparator]
  | cons byte rest =>
    simp only [splitSeparator]
    split
    · simp
    · split <;> simp

theorem splitSeparator_of_not_mem {bytes : List UInt8} (whole : separator ∉ bytes) :
    splitSeparator bytes = [bytes] := by
  induction bytes with
  | nil => rfl
  | cons byte rest ih =>
    obtain ⟨other, whole⟩ := not_or.mp (mt List.mem_cons.mpr whole)
    simp only [splitSeparator, if_neg (Ne.symm other), ih whole]

/-- A separator cuts bytes into what stands before it and what stands behind it. -/
theorem splitSeparator_append (before behind : List UInt8) :
    splitSeparator (before ++ separator :: behind) =
      splitSeparator before ++ splitSeparator behind := by
  induction before with
  | nil => simp [splitSeparator]
  | cons byte rest ih =>
    by_cases cut : byte = separator
    · simp only [List.cons_append, splitSeparator, cut, ↓reduceIte, ih]
    · simp only [List.cons_append, splitSeparator, cut, ↓reduceIte, ih]
      cases pieces : splitSeparator rest with
      | nil => exact absurd pieces (splitSeparator_ne_nil rest)
      | cons first others => rfl

theorem ofPart?_name {name : Name} (valid : name.Valid) :
    Component.ofPart? name = some (.name name) := by
  obtain ⟨inhabited, _, _, notDot, notDotDot, _⟩ := valid
  simp only [Component.ofPart?, inhabited, notDot, notDotDot, ↓reduceIte]

theorem isAbsolute_name {name : Name} (valid : name.Valid) :
    (⟨name⟩ : Path).isAbsolute = false := by
  obtain ⟨_, whole, _⟩ := valid
  cases name with
  | nil => rfl
  | cons byte rest =>
    have other : byte ≠ separator := fun same => whole (same ▸ List.mem_cons_self)
    simpa [isAbsolute] using other

/-- Joining a relative path puts it behind the other, with one separator between them unless the
other is empty or ends in one. -/
theorem bytes_join (path : Path) {more : Path} (relative : more.isAbsolute = false) :
    (path.join more).bytes =
      if path.bytes = [] ∨ path.bytes.getLast? = some separator then path.bytes ++ more.bytes
      else path.bytes ++ separator :: more.bytes := by
  simp only [join, relative, Bool.false_or]
  by_cases vacant : path.bytes = []
  · simp [vacant]
  · by_cases closed : path.bytes.getLast? = some separator <;>
      simp [vacant, closed]

/-- A name is put behind a separator, unless the path ends in one or is empty. -/
theorem bytes_join_name (path : Path) {name : Name} (valid : name.Valid) :
    (path.join ⟨name⟩).bytes =
      if path.bytes = [] ∨ path.bytes.getLast? = some separator then path.bytes ++ name
      else path.bytes ++ separator :: name :=
  bytes_join path (isAbsolute_name valid)

theorem isAbsolute_join {path more : Path} (inhabited : path.bytes ≠ [])
    (relative : more.isAbsolute = false) : (path.join more).isAbsolute = path.isAbsolute := by
  obtain ⟨first, rest, split⟩ := List.exists_cons_of_ne_nil inhabited
  rw [isAbsolute, bytes_join path relative, isAbsolute]
  split <;> simp [split]

theorem isAbsolute_join_name {path : Path} (inhabited : path.bytes ≠ []) {name : Name}
    (valid : name.Valid) : (path.join ⟨name⟩).isAbsolute = path.isAbsolute :=
  isAbsolute_join inhabited (isAbsolute_name valid)

/-- What is joined to a path adds its parts to those of the path. -/
theorem parts_join (path : Path) {more : Path} (relative : more.isAbsolute = false) :
    (path.join more).parts = path.parts ++ more.parts := by
  simp only [parts, bytes_join path relative]
  split
  case isFalse => rw [splitSeparator_append, List.filterMap_append]
  case isTrue bare =>
    rcases bare with vacant | closed
    · simp [vacant, splitSeparator, Component.ofPart?]
    · -- The separator at the end of the path cuts off one more piece, which is empty.
      obtain ⟨front, same⟩ := List.getLast?_eq_some_iff.mp closed
      have shape : path.bytes ++ more.bytes = front ++ separator :: more.bytes := by simp [same]
      rw [shape, splitSeparator_append, List.filterMap_append, same, splitSeparator_append,
        List.filterMap_append]
      simp [splitSeparator, Component.ofPart?]

/-- A name adds itself to the parts of a path. -/
theorem parts_join_name (path : Path) {name : Name} (valid : name.Valid) :
    (path.join ⟨name⟩).parts = path.parts ++ [.name name] := by
  have alone : (⟨name⟩ : Path).parts = [.name name] := by
    rw [parts, splitSeparator_of_not_mem valid.2.1]
    simp [ofPart?_name valid]
  rw [parts_join path (isAbsolute_name valid), alone]

/-- A name adds itself to the components of a path. -/
theorem components_join_name (path : Path) {name : Name} (valid : name.Valid) :
    (path.join ⟨name⟩).components = path.components ++ [.name name] := by
  by_cases vacant : path.bytes = []
  · have none : path.parts = [] := by simp [parts, vacant, splitSeparator, Component.ofPart?]
    have same : path.join ⟨name⟩ = ⟨name⟩ := by simp [join, vacant]
    have single := parts_join_name path valid
    have relative : path.isAbsolute = false := by simp [isAbsolute, vacant]
    rw [same] at single ⊢
    simp [components, single, none, relative, isAbsolute_name valid]
  · simp only [components, isAbsolute_join_name vacant valid, parts_join_name path valid]
    by_cases absolute : path.isAbsolute
    · simp [absolute]
    · simp only [absolute, Bool.false_eq_true, ↓reduceIte]
      cases path.parts with
      | nil => simp
      | cons first rest => cases first <;> simp

theorem lastName_join_name (path : Path) {name : Name} (valid : name.Valid) :
    (path.join ⟨name⟩).lastName = name := by
  simp [lastName, components_join_name path valid]

theorem length_lt_join_name (path : Path) {name : Name} (valid : name.Valid) :
    path.bytes.length < (path.join ⟨name⟩).bytes.length := by
  have inhabited := List.length_pos_iff.mpr valid.1
  rw [bytes_join_name path valid]
  split <;> simp only [List.length_append, List.length_cons] <;> omega

theorem bytes_join_name_ne_nil (path : Path) {name : Name} (valid : name.Valid) :
    (path.join ⟨name⟩).bytes ≠ [] :=
  List.ne_nil_of_length_pos (Nat.zero_lt_of_lt (length_lt_join_name path valid))

theorem zero_not_mem_join_name {path : Path} (clean : 0 ∉ path.bytes) {name : Name}
    (valid : name.Valid) : 0 ∉ (path.join ⟨name⟩).bytes := by
  have noZero : 0 ∉ name := valid.2.2.1
  have solid : (0 : UInt8) ≠ separator := by decide
  rw [bytes_join_name path valid]
  split <;> simp [clean, noZero, solid]

/-! ## Following names -/

@[simp] theorem descend_nil (path : Path) : path.descend [] = path := rfl

@[simp] theorem descend_cons (path : Path) (name : Name) (names : List Name) :
    path.descend (name :: names) = (path.join ⟨name⟩).descend names := rfl

theorem descend_append (path : Path) (names more : List Name) :
    path.descend (names ++ more) = (path.descend names).descend more := by
  simp [descend, List.foldl_append]

/-- Descending adds the names to the components of a path. -/
theorem components_descend (path : Path) {names : List Name} (valid : ∀ name ∈ names, name.Valid) :
    (path.descend names).components = path.components ++ names.map .name := by
  induction names generalizing path with
  | nil => simp
  | cons name rest ih =>
    obtain ⟨here, later⟩ := List.forall_mem_cons.mp valid
    rw [descend_cons, ih _ later, components_join_name path here]
    simp

/-- Different names lead to different paths. -/
theorem descend_injective (path : Path) {first second : List Name}
    (valid : ∀ name ∈ first, name.Valid) (other : ∀ name ∈ second, name.Valid)
    (same : path.descend first = path.descend second) : first = second := by
  have rows := congrArg components same
  rw [components_descend path valid, components_descend path other] at rows
  have names := List.append_cancel_left rows
  exact List.map_injective_iff.mpr (fun _ _ same => Component.name.inj same) names

theorem length_le_descend (path : Path) {names : List Name} (valid : ∀ name ∈ names, name.Valid) :
    path.bytes.length ≤ (path.descend names).bytes.length := by
  induction names generalizing path with
  | nil => exact Nat.le_refl _
  | cons name rest ih =>
    obtain ⟨here, later⟩ := List.forall_mem_cons.mp valid
    exact Nat.le_trans (Nat.le_of_lt (length_lt_join_name path here)) (ih _ later)

end Path

end ExerciseAudit
