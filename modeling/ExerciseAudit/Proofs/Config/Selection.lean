import ExerciseAudit.Config.Selection
import ExerciseAudit.Proofs.FileTree.Content
import ExerciseAudit.Proofs.FileTree.Reading
import ExerciseAudit.Proofs.FileTree.Trail

/-!
# Which settings are in force

The configuration file of a root is the first of three names that leads to a regular file, and
settings are a function of its content and of the command line (`Config.selection`). Names behind it
may hold anything, unless its own path or one before it leads through them: a link of the first name
to the last is nowhere as long as the last is missing, and is the configuration file as soon as it is
there (`Config.unshadowed`).
-/

namespace ExerciseAudit.Config

/-- The path of a configuration file of a root. -/
def pathOf (root : Path) (name : String × Format) : Path :=
  root.join (.ofString name.1)

/-- The first name of a configuration file that leads to a regular file, the names before and behind
it, and that file, which may be locked. -/
structure Chosen (tree : FileTree) (root : Path) (higher : List (String × Format))
    (name : String × Format) (lower : List (String × Format)) (file : Node) : Prop where
  order : fileNames = higher ++ name :: lower
  before : ∀ other ∈ higher, tree.isFile (pathOf root other) = false
  leads : tree.target? (pathOf root name) = some file
  isFile : file.isFile = true

/-- The settings that a configuration file spells. -/
def ofFile (decode : Decoder) (path : Path) (format : Format)
    (file : Node) : Except Error Config :=
  match file.read with
  | .error fault => .error (.unreadable path fault)
  | .ok text =>
    match decode format text with
    | .error fault => .error (.invalid path format fault)
    | .ok config => .ok config

variable {decode : Decoder} {tree other : FileTree} {root : Path}
  {higher lower : List (String × Format)} {name : String × Format} {file : Node}

/-- An error in a configuration file names it. -/
theorem path_of_ofFile_eq_error {path : Path} {format : Format} {error : Error}
    (failed : ofFile decode path format file = .error error) : error.path = path := by
  unfold ofFile at failed
  split at failed
  case h_1 =>
    cases failed
    rfl
  case h_2 =>
    split at failed
    case h_1 =>
      cases failed
      rfl
    case h_2 => cases failed

/-- Either no settings file is there, or one is chosen with none above it. -/
theorem absent_or_chosen (tree : FileTree) (root : Path) :
    (∀ name ∈ fileNames, tree.isFile (pathOf root name) = false) ∨
      ∃ higher name lower file, Chosen tree root higher name lower file := by
  cases found : fileNames.find? fun name => tree.isFile (pathOf root name) with
  | none =>
    refine .inl fun name listed => ?_
    exact Bool.eq_false_of_not_eq_true (List.find?_eq_none.mp found name listed)
  | some name =>
    obtain ⟨isFile, higher, lower, order, before⟩ := List.find?_eq_some_iff_append.mp found
    obtain ⟨file, leads, regular⟩ := (Option.any_eq_true _ _).mp isFile
    refine .inr ⟨higher, name, lower, file, order, fun other passed => ?_, leads, regular⟩
    exact Bool.not_eq_true' _ ▸ before other passed

theorem find?_eq_none (absent : ∀ name ∈ fileNames, tree.isFile (pathOf root name) = false) :
    find? tree root = none := by
  rw [find?, candidates, List.find?_map, Option.map_eq_none_iff, List.find?_eq_none]
  intro name listed
  exact Bool.not_eq_true _ ▸ absent name listed

namespace Chosen

variable (chosen : Chosen tree root higher name lower file)
include chosen

theorem isFile_eq_true : tree.isFile (pathOf root name) = true := by
  rw [FileTree.isFile, chosen.leads, Option.any_some, chosen.isFile]

theorem find?_eq : find? tree root = some (pathOf root name, name.2) := by
  have passed : higher.find? (fun other => tree.isFile (pathOf root other)) = none :=
    List.find?_eq_none.mpr fun other listed => Bool.not_eq_true _ ▸ chosen.before other listed
  have first : fileNames.find? (fun other => tree.isFile (pathOf root other)) = some name := by
    rw [chosen.order, List.find?_append, passed, Option.none_or,
      List.find?_cons, chosen.isFile_eq_true]
  have mapped : find? tree root =
      (fileNames.find? fun other => tree.isFile (pathOf root other)).map
        fun other => (pathOf root other, other.2) := List.find?_map
  rw [mapped, first, Option.map_some]

/-- Settings are what the chosen file is decoded to, or the fault it is refused with. -/
theorem load_eq : load decode tree root =
    (ofFile decode (pathOf root name) name.2 file).map
      fun config => some (pathOf root name, config) := by
  rw [load, chosen.find?_eq]
  simp only [FileTree.readText_of_target? chosen.leads, ofFile]
  cases file.read with
  | error fault => rfl
  | ok text =>
    simp only
    cases decode name.2 text <;> rfl

end Chosen

/-- The command line's output mode comes first, the chosen file's second, and lines for a reader
last. -/
theorem resolveWith_eq {asked : Option Path} {output : Option OutputMode}
    (chosen : Chosen tree (asked.getD defaultRoot) higher name lower file) :
    resolveWith decode tree asked output =
      (ofFile decode (pathOf (asked.getD defaultRoot) name) name.2 file).map fun config =>
        ⟨asked.getD defaultRoot, (output.or config.output).getD .human,
          some (pathOf (asked.getD defaultRoot) name)⟩ := by
  rw [resolveWith, chosen.load_eq]
  cases ofFile decode (pathOf (asked.getD defaultRoot) name) name.2 file <;> rfl

/-! ## Names behind the chosen one -/

/-- A location is an entry of a directory under one of some names, or below such an entry. -/
def Under (directory : Location) (names : List (String × Format)) (location : Location) : Prop :=
  ∃ name ∈ names, directory ++ [(Path.ofString name.1).bytes] <+: location

instance (directory : Location) (names : List (String × Format)) (location : Location) :
    Decidable (Under directory names location) := by
  unfold Under
  infer_instance

/-- Trees that are the same along the trails of the chosen name and of those before it have the same
configuration file. -/
theorem Chosen.of_along (chosen : Chosen tree root higher name lower file)
    (home : tree.workingDirectory = other.workingDirectory)
    (same : ∀ passed ∈ higher ++ [name],
      FileTree.Along (tree.trail (pathOf root passed)) tree other) :
    Chosen other root higher name lower file := by
  obtain ⟨before, last⟩ := List.forall_mem_append.mp same
  refine ⟨chosen.order, fun passed listed => ?_, ?_, chosen.isFile⟩
  · rw [FileTree.isFile, ← (before passed listed).target?_eq home]
    exact chosen.before passed listed
  · rw [← (last name (List.mem_singleton_self name)).target?_eq home]
    exact chosen.leads

/-- **Which settings are in force.** Either no name of a configuration file leads to a regular file
below the root, or one is the first that does. In the first case the mode is the one asked for, or
else the one for people. In the second case, whatever the names before it may be instead of regular
files, settings come from that file: if it cannot be read as text or cannot be decoded, that is an
error that names the file, even if a mode is asked for; otherwise the mode is the one asked for, or
else the one of the file, or else the one for people. The names behind it may then change in any way,
as long as neither its own path nor one before it leads through what changes. -/
theorem selection (decode : Decoder) (tree : FileTree)
    (asked : Option Path) (output : Option OutputMode) :
    ((∀ name ∈ fileNames, tree.isFile (pathOf (asked.getD defaultRoot) name) = false) ∨
      ∃ higher name lower file,
        Chosen tree (asked.getD defaultRoot) higher name lower file) ∧
    ((∀ name ∈ fileNames, tree.isFile (pathOf (asked.getD defaultRoot) name) = false) →
      resolveWith decode tree asked output =
        .ok ⟨asked.getD defaultRoot, output.getD .human, none⟩) ∧
    ∀ {higher lower : List (String × Format)} {name : String × Format} {file : Node},
      Chosen tree (asked.getD defaultRoot) higher name lower file →
      resolveWith decode tree asked output =
        (ofFile decode (pathOf (asked.getD defaultRoot) name) name.2 file).map
          (fun config => ⟨asked.getD defaultRoot, (output.or config.output).getD .human,
            some (pathOf (asked.getD defaultRoot) name)⟩) ∧
      (∀ error, ofFile decode (pathOf (asked.getD defaultRoot) name) name.2 file =
        .error error → error.path = pathOf (asked.getD defaultRoot) name) ∧
      ∀ {other : FileTree} {directory : Location},
        tree.workingDirectory = other.workingDirectory →
        (∀ location, ¬ Under directory lower location →
          tree.lookup location = other.lookup location) →
        (∀ passed ∈ higher ++ [name],
          ∀ location ∈ tree.trail (pathOf (asked.getD defaultRoot) passed),
            ¬ Under directory lower location) →
        resolveWith decode other asked output = resolveWith decode tree asked output := by
  refine ⟨absent_or_chosen tree _, fun absent => ?_, fun chosen => ⟨resolveWith_eq chosen, ?_, ?_⟩⟩
  · simp only [resolveWith, load, find?_eq_none absent]
  · exact fun error failed => path_of_ofFile_eq_error failed
  · intro other directory home same apart
    have kept := chosen.of_along home fun passed listed location met =>
      same location (apart passed listed location met)
    rw [resolveWith_eq chosen, resolveWith_eq kept]

/-- Nothing changes outside the names of lower priority when an entry is put under one of them. -/
theorem lookup_eq_insert {location : Location} {node : Node}
    (accepted : tree.Accepts location node) {directory : Location}
    (under : Under directory lower location) {place : Location}
    (apart : ¬ Under directory lower place) :
    tree.lookup place = (tree.insert location node).lookup place := by
  rw [FileTree.lookup_insert accepted, if_neg]
  rintro rfl
  exact apart under

/-- A directory with an entry of the first name and a file of the second. -/
def startingTree (first : Node) : FileTree :=
  (FileTree.empty.insert [(Path.ofString "exverify.toml").bytes] first).insert
    [(Path.ofString "exverify.yaml").bytes] (.file (Utf8.encode "output: json\n".toList))

/-- The same with a file of the last name. -/
def withLast (first : Node) (text : String) : FileTree :=
  (startingTree first).insert [(Path.ofString "exverify.yml").bytes]
    (.file (Utf8.encode text.toList))

/-- The first name is a directory, and a malformed file of the last name makes no difference, below a
root that is spelled by a whole path. -/
theorem selection_startingTree :
    resolveWith (ofText .standIn) .empty none (some .json) = .ok ⟨.ofString ".", .json, none⟩ ∧
    resolveWith (ofText .standIn) (withLast .directory "output: [") (some (.ofString "/..")) none =
      .ok ⟨.ofString "/..", .json, some (.ofString "/../exverify.yaml")⟩ := by
  have chosen : Chosen (startingTree .directory) (.ofString "/..") [("exverify.toml", .toml)]
      ("exverify.yaml", .yaml) [("exverify.yml", .yaml)]
      (.file (Utf8.encode "output: json\n".toList)) :=
    ⟨by decide, by decide +kernel, by decide +kernel, rfl⟩
  have accepted : (startingTree .directory).Accepts [(Path.ofString "exverify.yml").bytes]
      (.file (Utf8.encode "output: [".toList)) := by decide +kernel
  have avoids : ∀ passed ∈ [("exverify.toml", .toml)] ++ [("exverify.yaml", .yaml)],
      ∀ location ∈ (startingTree .directory).trail (pathOf (.ofString "/..") passed),
        ¬ Under [] [("exverify.yml", .yaml)] location := by decide +kernel
  obtain ⟨settled, -, steady⟩ :=
    (selection (ofText .standIn) (startingTree .directory) (some (.ofString "/..")) none).2.2 chosen
  refine ⟨(selection (ofText .standIn) .empty none (some .json)).2.1 (by decide +kernel), ?_⟩
  have home := (startingTree .directory).workingDirectory_insert
    [(Path.ofString "exverify.yml").bytes] (.file (Utf8.encode "output: [".toList))
  have unchanged :=
    steady home.symm (fun place => lookup_eq_insert accepted (by decide +kernel)) avoids
  rw [withLast, unchanged, settled]
  decide +kernel

/-- A link of the first name to the last leads nowhere while the last is missing, and is the
configuration file when it is put there; so what is behind the chosen name is not beyond notice. -/
theorem unshadowed :
    Chosen (startingTree (.link (.ofString "exverify.yml"))) defaultRoot
      [("exverify.toml", .toml)] ("exverify.yaml", .yaml) [("exverify.yml", .yaml)]
      (.file (Utf8.encode "output: json\n".toList)) ∧
    (∀ location, ¬ Under [] [("exverify.yml", .yaml)] location →
      (startingTree (.link (.ofString "exverify.yml"))).lookup location =
        (withLast (.link (.ofString "exverify.yml")) "output = \"human\"\n").lookup location) ∧
    resolveWith (ofText .standIn) (startingTree (.link (.ofString "exverify.yml"))) none none =
      .ok ⟨.ofString ".", .json, some (.ofString "./exverify.yaml")⟩ ∧
    resolveWith (ofText .standIn)
        (withLast (.link (.ofString "exverify.yml")) "output = \"human\"\n") none none =
      .ok ⟨.ofString ".", .human, some (.ofString "./exverify.toml")⟩ := by
  refine ⟨⟨by decide, by decide +kernel, by decide +kernel, rfl⟩, ?_, by decide +kernel,
    by decide +kernel⟩
  have accepted : (startingTree (.link (.ofString "exverify.yml"))).Accepts
      [(Path.ofString "exverify.yml").bytes]
      (.file (Utf8.encode "output = \"human\"\n".toList)) := by decide +kernel
  exact fun location => lookup_eq_insert accepted (by decide +kernel)

end ExerciseAudit.Config
