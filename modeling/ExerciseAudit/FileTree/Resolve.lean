import ExerciseAudit.FileTree.Basic

/-!
# Following paths

How a path leads to a location: name by name, through symbolic links, with `.` and `..` taken where the walk
has got to. It sets out from the top of the file system if it is absolute, and from the working directory
otherwise; above the top there is only the top. `resolve` says where a path leads or why it leads nowhere;
whether something exists, is a file, and what text it holds all follow from that.
-/

namespace ExerciseAudit

/-- Why a path leads nowhere, or what it leads to cannot be read as text. -/
inductive FileFault where
  | notFound
  | notDirectory
  | accessDenied
  | tooManyLinks
  | nameTooLong
  | zeroByte
  | isDirectory
  | notText
  deriving DecidableEq, Repr

/-- How a fault is reported. -/
def FileFault.message : FileFault → String
  | notFound => "No such file or directory (os error 2)"
  | notDirectory => "Not a directory (os error 20)"
  | accessDenied => "Permission denied (os error 13)"
  | tooManyLinks => "Too many levels of symbolic links (os error 40)"
  | nameTooLong => "File name too long (os error 36)"
  | zeroByte => "file name contained an unexpected NUL byte"
  | isDirectory => "Is a directory (os error 21)"
  | notText => "stream did not contain valid UTF-8"

/-- A path must have fewer bytes than this. -/
def pathByteLimit : Nat := 4096

/-- How many links may be followed on the way to a place. -/
def maxLinks : Nat := 40

/-- A step of a walk. -/
inductive Step where
  /-- What a part of a path asks for. -/
  | part (component : Path.Component)
  /-- Nowhere, but the walk must have got to a directory: so a separator at the end of a path asks. -/
  | directory
  deriving DecidableEq, Repr

namespace Path

/-- The steps that a path takes from its starting point. -/
def steps (path : Path) : List Step :=
  path.parts.map .part ++ if path.bytes.getLast? = some separator then [.directory] else []

/-- Where a path sets out that is met in a directory. -/
def start (path : Path) (directory : Location) : Location :=
  if path.isAbsolute then [] else directory

end Path

/-- What a step leads to. -/
inductive Reach where
  /-- A location. -/
  | place (location : Location)
  /-- A link, which stands at an entry of the directory. -/
  | link (entry : Location) (target : Path)
  deriving DecidableEq, Repr

/-- What a step to an entry leads to, given what stands there. -/
def Node.reach (entry : Location) : Node → Reach
  | link target => .link entry target
  | _ => .place entry

/-- Where a walk stops for the time being. -/
inductive Halt where
  /-- It has arrived. -/
  | arrived (location : Location)
  /-- It has met a link in a directory, with some steps left. -/
  | atLink (directory : Location) (target : Path) (rest : List Step)
  deriving DecidableEq, Repr

/-- The text that can be read of what stands somewhere. -/
def Node.read : Node → Except FileFault String
  | file content =>
    match Utf8.decode? content with
    | some text => .ok (String.ofList text)
    | none => .error .notText
  | directory => .error .isDirectory
  | lockedFile | lockedDirectory => .error .accessDenied
  | link _ => .error .tooManyLinks

namespace FileTree

/-- Why a walk cannot take a step from a location. A locked directory can be reached, but nothing from it. -/
def obstacle? (tree : FileTree) (location : Location) (step : Step) : Option FileFault :=
  match tree.lookup location with
  | some .directory => none
  | some .lockedDirectory => if step = .directory then none else some .accessDenied
  | _ => some .notDirectory

/-- Take a step from a location. -/
def take (tree : FileTree) (location : Location) (step : Step) : Except FileFault Reach :=
  match tree.obstacle? location step with
  | some fault => .error fault
  | none =>
    match step with
    | .directory => .ok (.place location)
    | .part .top => .ok (.place [])
    | .part .current => .ok (.place location)
    | .part .parent => .ok (.place location.dropLast)
    | .part (.name name) =>
      if maxNameBytes < name.length then .error .nameTooLong
      else match tree.lookup (location ++ [name]) with
        | none => .error .notFound
        | some node => .ok (node.reach (location ++ [name]))

/-- Walk until the next link that has to be followed. A link met in the last step is followed only if
`followLast` says so. -/
def advance (tree : FileTree) (followLast : Bool) : Location → List Step → Except FileFault Halt
  | location, [] => .ok (.arrived location)
  | location, step :: rest =>
    match tree.take location step with
    | .error fault => .error fault
    | .ok (.place next) => tree.advance followLast next rest
    | .ok (.link entry target) =>
      if rest = [] ∧ followLast = false then .ok (.arrived entry)
      else .ok (.atLink location target rest)

/-- Walk from a location, following at most `links` links. -/
def walk (tree : FileTree) (followLast : Bool) (links : Nat) (location : Location)
    (steps : List Step) : Except FileFault Location :=
  match tree.advance followLast location steps with
  | .error fault => .error fault
  | .ok (.arrived last) => .ok last
  | .ok (.atLink directory target rest) =>
    match links with
    | 0 => .error .tooManyLinks
    | links + 1 =>
      if target.bytes = [] then .error .notFound
      else tree.walk followLast links (target.start directory) (target.steps ++ rest)

/-- Where a path leads; the last step follows a link if `followLast` says so. -/
def resolve (tree : FileTree) (path : Path) (followLast : Bool) : Except FileFault Location :=
  if 0 ∈ path.bytes then .error .zeroByte
  else if path.bytes = [] then .error .notFound
  else if pathByteLimit ≤ path.bytes.length then .error .nameTooLong
  else tree.walk followLast maxLinks (path.start tree.workingDirectory) path.steps

/-- What stands at a path: a link itself, and not what it leads to. -/
def nodeAt? (tree : FileTree) (path : Path) : Option Node :=
  match tree.resolve path false with
  | .ok location => tree.lookup location
  | .error _ => none

/-- What a path leads to, links followed. -/
def target? (tree : FileTree) (path : Path) : Option Node :=
  match tree.resolve path true with
  | .ok location => tree.lookup location
  | .error _ => none

/-- Whether a path leads anywhere. -/
def has (tree : FileTree) (path : Path) : Bool :=
  match tree.resolve path true with
  | .ok _ => true
  | .error _ => false

/-- Whether a path leads to a regular file. -/
def isFile (tree : FileTree) (path : Path) : Bool :=
  (tree.target? path).any Node.isFile

/-- The text of the file to which a path leads. -/
def readText (tree : FileTree) (path : Path) : Except FileFault String :=
  match tree.resolve path true with
  | .error fault => .error fault
  | .ok location =>
    match tree.lookup location with
    | some node => node.read
    | none => .error .notFound

end FileTree

end ExerciseAudit
