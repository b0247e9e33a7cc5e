import ExerciseAudit.FileTree.Edit
import ExerciseAudit.Run

/-!
# The program

Takes in the part of the file system that a run can look at, runs on it with the arguments of the command
line, and prints the outcome. A link is taken by where it finally leads. What cannot be looked into is
locked. Devices and sockets are no part of a tree, and neither is a name that is no text.
-/

namespace ExerciseAudit

/-- The path to a location from the top of the file system, as the system spells it. -/
def spelling (location : Location) : String :=
  Path.display ⟨separator :: [separator].intercalate location⟩

/-- The location of a path from the top of the file system that holds names alone. -/
def located (spelled : String) : Location :=
  (Path.ofString spelled).parts.filterMap fun
    | .name name => some name
    | _ => none

/-- What stands at a location, if that can be told. -/
def readNode? (location : Location) : IO (Option Node) := do
  let path := (← IO.currentDir) / spelling location
  let content : IO Node := do pure (.file (← IO.FS.readBinFile path).toList)
  let directory : IO Node := do let _ ← path.readDir; pure .directory
  let link : IO Node := do pure (.link (.ofString (← IO.FS.realPath path).toString))
  let node : IO (Option Node) := do
    match (← path.symlinkMetadata).type with
    | .file => some <$> (content <|> pure .lockedFile)
    | .dir => some <$> (directory <|> pure .lockedDirectory)
    | .symlink => some <$> (link <|> pure (.link (.ofString "")))
    | .other => pure none
  node <|> pure none

/-- Take in what stands at a location and above it, where no link is on the way. -/
def takeInChain (tree : FileTree) (location : Location) : IO FileTree :=
  (List.range location.length).foldlM (fun tree depth => do
    let place := location.take (depth + 1)
    pure ((← readNode? place).elim tree (tree.insert place))) tree

/-- Take in what is met on the way of some parts of a path from a directory, and tell where they lead, if
anywhere. -/
def takeInParts (tree : FileTree) (directory : Location) :
    List Path.Component → IO (FileTree × Option Location)
  | [] => pure (tree, some directory)
  | .top :: rest => takeInParts tree [] rest
  | .current :: rest => takeInParts tree directory rest
  | .parent :: rest => takeInParts tree directory.dropLast rest
  | .name name :: rest => do
    let place := directory ++ [name]
    match ← readNode? place with
    | none => pure (tree, none)
    | some (.link target) =>
      let real := located target.display
      takeInParts (← takeInChain (tree.insert place (.link target)) real) real rest
    | some node => takeInParts (tree.insert place node) place rest

/-- Take in what stands below a directory, links not entered. -/
partial def takeInBelow (tree : FileTree) (directory : Location) : IO FileTree := do
  let entries ← ((← IO.currentDir) / spelling directory).readDir
  entries.foldlM (fun tree entry => do
    let place := directory ++ [(Path.ofString entry.fileName).bytes]
    let (tree, _) ← takeInParts tree directory [.name (Path.ofString entry.fileName).bytes]
    if tree.lookup place = some .directory then takeInBelow tree place else pure tree) tree

/-- The paths that a manifest declares, as they are joined to a root. -/
def declaredPaths (root : Path) (manifest : Manifest) : List Path :=
  (manifest.docs.map (·.spec.path) ++ manifest.references ++
    manifest.outputs.filterMap OutputSpec.fixturePath?).map fun name => root.join (.ofString name)

/-- The part of the file system that a run below a root looks at. -/
def readTree (root : Path) : IO FileTree := do
  let home := located (← IO.FS.realPath (← IO.currentDir)).toString
  let takeIn (tree : FileTree) (path : Path) : IO (FileTree × Option Location) :=
    takeInParts tree (path.start home) path.parts
  let tree := (← takeInChain .empty home).enter home
  let tree ← (Config.candidates root).foldlM (fun tree (path, _) => do pure (← takeIn tree path).1) tree
  let (tree, base) ← takeIn tree (basePath root)
  let tree ← match base with
    | some location => takeInBelow tree location <|> pure tree
    | none => pure tree
  let declared := (tree.manifests (basePath root)).flatMap fun path =>
    match Audit.load tree path with
    | .error _ => []
    | .ok manifest => declaredPaths root manifest
  declared.foldlM (fun tree path => do pure (← takeIn tree path).1) tree

/-- The root for which a command line asks. A command line that is refused asks for none. -/
def askedRoot (arguments : List String) : Path :=
  match CommandLine.ofArguments arguments with
  | .error _ => Config.defaultRoot
  | .ok asked => asked.root.getD Config.defaultRoot

end ExerciseAudit

open ExerciseAudit in
/-- Run with the arguments of the command line. -/
def main (arguments : List String) : IO UInt32 := do
  let tree ← readTree (askedRoot arguments)
  let seen := (Outcome.run tree arguments).transcript (← IO.getEnv "NO_COLOR")
  IO.print seen.output
  IO.eprint seen.errors
  pure (UInt32.ofNat seen.exitCode)
