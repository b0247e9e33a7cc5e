import ExerciseAudit.FileTree.Resolve

/-!
# Finding manifests

The manifests of a repository are the files below its base directory whose name ends in `.manifest.json`.
A link to such a file counts, and a link to a directory is not entered, except that the base itself may be
reached through links. What cannot be listed is skipped. The result is sorted by the order of paths.
-/

namespace ExerciseAudit

/-- The ending of a manifest's name. -/
def manifestSuffix : List Char := ".manifest.json".toList

/-- Whether a name is that of a manifest. The name is read as text for that, broken stretches included. -/
def isManifestName (name : List UInt8) : Bool :=
  manifestSuffix.isSuffixOf (Utf8.lossy name)

/-- The directory below a root that holds the exercises. -/
def basePath (root : Path) : Path :=
  (root.join (.ofString "docs")).join (.ofString "exercises")

namespace Path

/-- A path followed by names. -/
def descend (path : Path) (names : List Name) : Path :=
  names.foldl (fun path name => path.join ⟨name⟩) path

/-- The name of what a path leads to, or the whole path where its last component is not a name. -/
def lastName (path : Path) : List UInt8 :=
  match path.components.getLast? with
  | some (.name name) => name
  | _ => path.bytes

/-- Put a path in its place in a sorted row. -/
def orderedInsert (path : Path) : List Path → List Path
  | [] => [path]
  | first :: rest => if first.before path then first :: path.orderedInsert rest else path :: first :: rest

/-- A row of paths in the order of paths. -/
def sort (paths : List Path) : List Path :=
  paths.foldr orderedInsert []

end Path

namespace FileTree

/-- Whether an entry is a file, directly or through links that are followed from its path. -/
def isFileEntry (tree : FileTree) (path : Path) : Node → Bool
  | .link _ => tree.isFile path
  | node => node.isFile

/-- An entry as one that a directory holds, if it is right below the directory. -/
def childOf? (location : Location) (entry : Location × Node) : Option (Name × Node) :=
  if entry.1.dropLast = location then entry.1.getLast?.map (·, entry.2) else none

/-- An entry is held by a directory under a name if its location is the directory's with the name. -/
theorem childOf?_eq_some_iff {location : Location} {entry : Location × Node} {name : Name}
    {node : Node} :
    childOf? location entry = some (name, node) ↔ entry = (location ++ [name], node) := by
  unfold childOf?
  constructor
  · intro found
    split at found
    case isFalse => cases found
    case isTrue here =>
      obtain ⟨last, isLast, same⟩ := Option.map_eq_some_iff.mp found
      cases same
      obtain ⟨above, split⟩ := List.getLast?_eq_some_iff.mp isLast
      rw [split, List.dropLast_concat] at here
      exact Prod.ext (here ▸ split) rfl
  · rintro rfl
    simp

/-- What a directory holds, in the order in which it is listed. -/
def children (tree : FileTree) (location : Location) : List (Name × Node) :=
  tree.entries.filterMap (childOf? location)

/-- What a directory holds are the entries right below it. -/
theorem mem_children_iff {tree : FileTree} {location : Location} {name : Name} {node : Node} :
    (name, node) ∈ tree.children location ↔ (location ++ [name], node) ∈ tree.entries := by
  simp only [children, List.mem_filterMap, childOf?_eq_some_iff, exists_eq_right]

/-- How many names lead to the deepest entry. -/
def height (tree : FileTree) : Nat :=
  tree.entries.foldr (fun entry deepest => max entry.1.length deepest) 0

/-- No entry is deeper than the tree. -/
theorem length_le_height {tree : FileTree} {entry : Location × Node} (member : entry ∈ tree.entries) :
    entry.1.length ≤ tree.height := by
  unfold height
  generalize tree.entries = entries at member
  induction entries with
  | nil => exact absurd member List.not_mem_nil
  | cons first rest ih =>
    rcases List.mem_cons.mp member with rfl | later
    · exact Nat.le_max_left _ _
    · exact Nat.le_trans (ih later) (Nat.le_max_right _ _)

/-- A directory that holds something is not as deep as the tree. -/
theorem length_lt_height {tree : FileTree} {location : Location} {child : Name × Node}
    (member : child ∈ tree.children location) : location.length < tree.height := by
  have deep := length_le_height (mem_children_iff.mp member)
  simp only [List.length_append, List.length_singleton] at deep
  omega

/-- The entries below a directory, each with the path at which it is met: one after another as they are
listed, what a directory holds right behind it. Links are not entered, and neither is a directory that is
locked or whose path is too long. -/
def entriesBelow (tree : FileTree) (path : Path) (location : Location) : List (Path × Node) :=
  if pathByteLimit ≤ path.bytes.length then []
  else (tree.children location).attach.flatMap fun ⟨child, _⟩ =>
    (path.join ⟨child.1⟩, child.2) ::
      if child.2 = .directory then tree.entriesBelow (path.join ⟨child.1⟩) (location ++ [child.1])
      else []
termination_by tree.height - location.length
decreasing_by
  have shallow : location.length < tree.height := length_lt_height ‹_›
  simp only [List.length_append, List.length_singleton]
  omega

/-- The entries below a directory are what it holds, each followed by the entries below it. -/
theorem entriesBelow_eq (tree : FileTree) (path : Path) (location : Location) :
    tree.entriesBelow path location =
      if pathByteLimit ≤ path.bytes.length then []
      else (tree.children location).flatMap fun child =>
        (path.join ⟨child.1⟩, child.2) ::
          if child.2 = .directory then
            tree.entriesBelow (path.join ⟨child.1⟩) (location ++ [child.1])
          else [] := by
  rw [entriesBelow]
  split
  · rfl
  · rw [List.flatMap_subtype (fun _ _ => rfl), List.unattach_attach]

/-- The entry at a path and, if it leads to a directory that can be listed, the entries below that. -/
def entriesFrom (tree : FileTree) (base : Path) : List (Path × Node) :=
  (tree.nodeAt? base).toList.map (base, ·) ++
    match tree.resolve base true with
    | .ok location =>
      if tree.lookup location = some .directory then tree.entriesBelow base location else []
    | .error _ => []

/-- The manifests at or below a base, sorted. -/
def manifests (tree : FileTree) (base : Path) : List Path :=
  let named := (tree.entriesFrom base).filter fun entry => isManifestName entry.1.lastName
  Path.sort ((named.filter fun entry => tree.isFileEntry entry.1 entry.2).map Prod.fst)

end FileTree

end ExerciseAudit
