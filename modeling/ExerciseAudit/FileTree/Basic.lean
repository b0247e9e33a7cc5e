import ExerciseAudit.Path.Basic

/-!
# File trees

A file system, and the directory in which a program works: a finite map from locations to regular files,
directories and symbolic links, of which some may be locked. Every entry lies in a directory of the tree
that can be looked into, and its name is one that a directory can hold. The working directory is a
directory of the tree. `insert`, `erase` and `enter` keep it so; a change that would not is ignored.
-/

namespace ExerciseAudit

/-- The name of a directory entry. -/
abbrev Name := List UInt8

/-- The most bytes that a name may have. -/
def maxNameBytes : Nat := 255

/-- Whether a directory can hold an entry of this name. -/
def Name.Valid (name : Name) : Prop :=
  name ≠ [] ∧ separator ∉ name ∧ 0 ∉ name ∧ name ≠ Path.dot ∧ name ≠ Path.dotDot ∧
    name.length ≤ maxNameBytes

instance (name : Name) : Decidable name.Valid := by
  unfold Name.Valid; infer_instance

/-- A place in a file system: the names that lead there from its top. -/
abbrev Location := List Name

/-- What stands at a location, as far as a program may look at it. -/
inductive Node where
  /-- A regular file that can be read. -/
  | file (content : List UInt8)
  /-- A regular file that may not be read. -/
  | lockedFile
  /-- A directory that can be listed and passed through. -/
  | directory
  /-- A directory that may be neither listed nor passed through. What it holds is out of reach, and no
  part of the tree. -/
  | lockedDirectory
  /-- A symbolic link. -/
  | link (target : Path)
  deriving DecidableEq, Repr

/-- Whether a regular file stands somewhere, readable or not. -/
def Node.isFile : Node → Bool
  | file _ | lockedFile => true
  | directory | lockedDirectory | link _ => false

/-- Whether a directory stands somewhere, locked or not. -/
def Node.isDirectory : Node → Bool
  | directory | lockedDirectory => true
  | file _ | lockedFile | link _ => false

/-- The entries of a file system, and the directory from which relative paths start. -/
structure FileTree where
  entries : List (Location × Node)
  workingDirectory : Location
  /-- No location is listed twice. -/
  distinct : (entries.map Prod.fst).Nodup
  /-- The top itself is not listed. -/
  below : ∀ entry ∈ entries, entry.1 ≠ []
  /-- Names are names that a directory can hold. -/
  named : ∀ entry ∈ entries, ∀ name ∈ entry.1, name.Valid
  /-- What lies above an entry is a directory. -/
  held : ∀ entry ∈ entries, entry.1.dropLast = [] ∨ (entry.1.dropLast, Node.directory) ∈ entries
  /-- The working directory is a directory. -/
  settled : workingDirectory = [] ∨ (workingDirectory, Node.directory) ∈ entries

namespace FileTree

/-- A file system of which only the top is there, which is the working directory. -/
def empty : FileTree :=
  ⟨[], [], by simp, by simp, by simp, by simp, .inl rfl⟩

/-- What stands at a location; the top itself is a directory. -/
def lookup (tree : FileTree) (location : Location) : Option Node :=
  if location = [] then some .directory
  else (tree.entries.find? (·.1 == location)).map Prod.snd

/-- Of entries at distinct locations, two at one location are the same. -/
theorem entry_eq_of_location_eq {entries : List (Location × Node)}
    (distinct : (entries.map Prod.fst).Nodup) {first second : Location × Node}
    (left : first ∈ entries) (right : second ∈ entries) (same : first.1 = second.1) :
    first = second := by
  induction entries with
  | nil => simp at left
  | cons head tail ih =>
    obtain ⟨fresh, rest⟩ := List.nodup_cons.mp distinct
    rcases List.mem_cons.mp left with leftHead | leftTail <;>
      rcases List.mem_cons.mp right with rightHead | rightTail
    · rw [leftHead, rightHead]
    · exact absurd (leftHead ▸ same ▸ List.mem_map_of_mem rightTail) fresh
    · exact absurd (rightHead ▸ same ▸ List.mem_map_of_mem leftTail) fresh
    · exact ih rest leftTail rightTail

/-- Below the top, looking up is finding an entry. -/
theorem lookup_eq_some_iff {tree : FileTree} {location : Location} {node : Node}
    (inside : location ≠ []) :
    tree.lookup location = some node ↔ (location, node) ∈ tree.entries := by
  simp only [lookup, inside, if_false, Option.map_eq_some_iff]
  constructor
  · rintro ⟨⟨found, kept⟩, search, rfl⟩
    have here : found = location := by simpa using List.find?_some search
    exact here ▸ List.mem_of_find?_eq_some search
  · intro member
    cases search : tree.entries.find? (·.1 == location) with
    | none => exact absurd (List.find?_eq_none.mp search _ member) (by simp)
    | some entry =>
      have here : entry.1 = location := by simpa using List.find?_some search
      have listed := List.mem_of_find?_eq_some search
      refine ⟨entry, rfl, ?_⟩
      rw [entry_eq_of_location_eq tree.distinct listed member here]

/-- Whether an entry may be put at a location: its name is possible, it goes into a directory, and it does
not take the place of a directory unless it is one. -/
def Accepts (tree : FileTree) (location : Location) (node : Node) : Prop :=
  location ≠ [] ∧ (∀ name ∈ location, name.Valid) ∧
    tree.lookup location.dropLast = some .directory ∧
    (node = .directory ∨ tree.lookup location ≠ some .directory)

instance (tree : FileTree) (location : Location) (node : Node) :
    Decidable (tree.Accepts location node) := by
  unfold Accepts; infer_instance

/-- Put an entry at a location, in the place of one that is there. -/
def insert (tree : FileTree) (location : Location) (node : Node) : FileTree :=
  if accepted : tree.Accepts location node then
    have keep : ∀ parent, parent ≠ [] → tree.lookup parent = some .directory →
        (parent, Node.directory) ∈ (location, node) :: tree.entries.filter (·.1 ≠ location) := by
      intro parent inside isDirectory
      by_cases same : parent = location
      · subst same
        rcases accepted.2.2.2 with rfl | other
        · exact List.mem_cons_self
        · exact absurd isDirectory other
      · exact List.mem_cons_of_mem _ (List.mem_filter.mpr
          ⟨(lookup_eq_some_iff inside).mp isDirectory, by simpa using same⟩)
    { entries := (location, node) :: tree.entries.filter (·.1 ≠ location)
      workingDirectory := tree.workingDirectory
      distinct := by
        have kept := tree.distinct.sublist
          ((List.filter_sublist (p := fun e => decide (e.1 ≠ location))).map Prod.fst)
        simp only [List.map_cons, List.nodup_cons]
        refine ⟨?_, kept⟩
        simp
      below := by
        intro entry member
        rcases List.mem_cons.mp member with rfl | old
        · exact accepted.1
        · exact tree.below entry (List.mem_filter.mp old).1
      named := by
        intro entry member
        rcases List.mem_cons.mp member with rfl | old
        · exact accepted.2.1
        · exact tree.named entry (List.mem_filter.mp old).1
      held := by
        intro entry member
        rcases List.mem_cons.mp member with rfl | old
        · by_cases top : location.dropLast = []
          · exact .inl top
          · exact .inr (keep _ top accepted.2.2.1)
        · rcases tree.held entry (List.mem_filter.mp old).1 with top | listed
          · exact .inl top
          · by_cases top : entry.1.dropLast = []
            · exact .inl top
            · exact .inr (keep _ top ((lookup_eq_some_iff top).mpr listed))
      settled := by
        rcases tree.settled with top | listed
        · exact .inl top
        · exact .inr (keep _ (tree.below _ listed)
            ((lookup_eq_some_iff (tree.below _ listed)).mpr listed)) }
  else tree

/-- Take away what stands at a location, with everything below it, unless the working directory is among
that. -/
def erase (tree : FileTree) (location : Location) : FileTree :=
  if occupied : location.isPrefixOf tree.workingDirectory = true then tree
  else
    { entries := tree.entries.filter (!location.isPrefixOf ·.1)
      workingDirectory := tree.workingDirectory
      distinct := tree.distinct.sublist (List.filter_sublist.map _)
      below := fun entry member => tree.below entry (List.mem_filter.mp member).1
      named := fun entry member => tree.named entry (List.mem_filter.mp member).1
      held := by
        intro entry member
        obtain ⟨listed, kept⟩ := List.mem_filter.mp member
        refine (tree.held entry listed).imp_right fun parent => List.mem_filter.mpr ⟨parent, ?_⟩
        simp only [Bool.not_eq_true', Bool.eq_false_iff, ne_eq,
          List.isPrefixOf_iff_prefix] at kept ⊢
        exact fun through => kept (through.trans (List.dropLast_prefix _))
      settled := tree.settled.imp_right fun listed =>
        List.mem_filter.mpr ⟨listed, by rw [Bool.eq_false_iff.mpr occupied]; rfl⟩ }

/-- Work in another directory from now on, if there is one at the location. -/
def enter (tree : FileTree) (location : Location) : FileTree :=
  if there : tree.lookup location = some .directory then
    { tree with
      workingDirectory := location
      settled := (Decidable.em (location = [])).imp_right fun inside => (lookup_eq_some_iff inside).mp there }
  else tree

end FileTree

end ExerciseAudit
