import ExerciseAudit.Config.Toml
import ExerciseAudit.Config.Yaml
import ExerciseAudit.FileTree.Resolve

/-!
# Selecting settings

The settings in force: what the command line asks for comes first, then the configuration file, then the
defaults. Of the files that a root may hold only the first is read, and it must be readable even when the
command line decides everything.
-/

namespace ExerciseAudit.Config

/-- The names of configuration files below a root, the first before the others, with their formats. -/
def fileNames : List (String × Format) :=
  [("exverify.toml", .toml), ("exverify.yaml", .yaml), ("exverify.yml", .yaml)]

/-- The configuration files that a root may hold. -/
def candidates (root : Path) : List (Path × Format) :=
  fileNames.map fun (name, format) => (root.join (.ofString name), format)

/-- The configuration file of a root: the first that is there. -/
def find? (tree : FileTree) (root : Path) : Option (Path × Format) :=
  (candidates root).find? fun (path, _) => tree.isFile path

/-- Why no settings are in force. -/
inductive Error where
  /-- The configuration file cannot be read as text. -/
  | unreadable (path : Path) (fault : FileFault)
  /-- The configuration file gives no settings. -/
  | invalid (path : Path) (format : Format) (fault : Fault)
  deriving DecidableEq, Repr

namespace Error

/-- The file to which an error belongs. -/
def path : Error → Path
  | unreadable path _ => path
  | invalid path .. => path

/-- How an error is reported. -/
def message : Error → String
  | unreadable path fault => "failed to read " ++ path.display ++ ": " ++ fault.message
  | invalid path _ fault => "invalid config " ++ path.display ++ ": " ++ fault.message

end Error

/-- The settings in force, and the file from which settings were taken. -/
structure Effective where
  root : Path
  output : OutputMode
  source : Option Path
  deriving DecidableEq, Repr

/-- Settings from a text in a format, given the words for texts that are no documents. -/
def ofText (wording : Wording) : Decoder
  | .toml, text => ofToml (wording .toml text) text.toList
  | .yaml, text => ofYaml (wording .yaml text) text.toList

/-- The configuration file of a root with what it sets, given how texts are read. -/
def load (decode : Decoder) (tree : FileTree) (root : Path) :
    Except Error (Option (Path × Config)) :=
  match find? tree root with
  | none => .ok none
  | some (path, format) =>
    match tree.readText path with
    | .error fault => .error (.unreadable path fault)
    | .ok text =>
      match decode format text with
      | .error fault => .error (.invalid path format fault)
      | .ok config => .ok (some (path, config))

/-- The root if none is asked for: the working directory. -/
def defaultRoot : Path := .ofString "."

/-- The settings in force, given how texts are read, and a root and an output mode if they are asked for. -/
def resolveWith (decode : Decoder) (tree : FileTree)
    (root : Option Path) (output : Option OutputMode) : Except Error Effective :=
  let root := root.getD defaultRoot
  match load decode tree root with
  | .error error => .error error
  | .ok none => .ok ⟨root, output.getD .human, none⟩
  | .ok (some (path, config)) => .ok ⟨root, (output.or config.output).getD .human, some path⟩

/-- The settings in force, given a root and an output mode if they are asked for. -/
def resolve (tree : FileTree) (root : Option Path) (output : Option OutputMode) : Except Error Effective :=
  resolveWith (ofText .standIn) tree root output

end ExerciseAudit.Config
