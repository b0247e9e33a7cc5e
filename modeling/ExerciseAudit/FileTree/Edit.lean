import ExerciseAudit.FileTree.Resolve

/-!
# Changing a tree

Entries are put and taken away by path. Missing directories on the way are made, links on the way are
followed, and content that is put where a link stands goes to where the link leads.
-/

namespace ExerciseAudit.FileTree

/-- The directory to which some parts of a path lead, made where it is missing. -/
def makeDirectories (tree : FileTree) (directory : Location) :
    List Path.Component → FileTree × Location
  | [] => (tree, directory)
  | component :: rest =>
    match tree.walk true maxLinks directory [.part component], component with
    | .ok next, _ => tree.makeDirectories next rest
    | .error .notFound, .name name =>
      (tree.insert (directory ++ [name]) .directory).makeDirectories (directory ++ [name]) rest
    | _, _ => (tree, directory)

/-- Where content ends up that is written to an entry of a directory: at the end of the links that start
there, even if nothing stands at that end yet. -/
def landing (tree : FileTree) : (links : Nat) → (directory : Location) → Name → Location
  | 0, directory, name => directory ++ [name]
  | links + 1, directory, name =>
    match tree.lookup (directory ++ [name]) with
    | some (.link target) =>
      match target.steps.getLast?,
          tree.walk true maxLinks (target.start directory) target.steps.dropLast with
      | some (.part (.name last)), .ok next => tree.landing links next last
      | _, _ => directory ++ [name]
    | _ => directory ++ [name]

/-- Put an entry at a path. -/
def put (tree : FileTree) (path : Path) (node : Node) : FileTree :=
  let parts := path.parts.filter (· ≠ .current)
  let made := tree.makeDirectories (path.start tree.workingDirectory) parts.dropLast
  match parts.getLast?, node with
  | some (.name name), .file _ => made.1.insert (made.1.landing maxLinks made.2 name) node
  | some (.name name), _ => made.1.insert (made.2 ++ [name]) node
  | _, _ => tree

/-- Take away the entry at a path, a link itself and not what it leads to. -/
def remove (tree : FileTree) (path : Path) : FileTree :=
  match tree.resolve path false with
  | .ok location => tree.erase location
  | .error _ => tree

end ExerciseAudit.FileTree
