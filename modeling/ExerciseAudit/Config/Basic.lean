/-!
# Settings

What a configuration file may set, and how a file can fail to set it. A file is written in one of two
formats, which its name shows.
-/

namespace ExerciseAudit

/-- How results are printed. -/
inductive OutputMode where
  | human
  | json
  deriving DecidableEq, Repr

namespace OutputMode

/-- The name of a mode on the command line and in configuration files. -/
def name : OutputMode → String
  | human => "human"
  | json => "json"

/-- All modes. -/
def all : List OutputMode := [human, json]

/-- The mode of a name. -/
def ofName? (name : String) : Option OutputMode :=
  all.find? (·.name = name)

/-- What is said of a name that no mode has. -/
def unknownMessage (name : String) : String :=
  "unknown variant " ++ ticked name ++ ", expected " ++ " or ".intercalate (all.map (ticked ·.name))
where
  /-- A name between grave accents. -/
  ticked (name : String) : String := "\x60" ++ name ++ "\x60"

end OutputMode

/-- What a configuration file sets. -/
structure Config where
  output : Option OutputMode
  deriving DecidableEq, Repr

/-- The settings of a file that sets nothing. -/
def Config.unset : Config := ⟨none⟩

/-- The formats of configuration files. -/
inductive Config.Format where
  | toml
  | yaml
  deriving DecidableEq, Repr

/-- Why a text gives no settings. -/
inductive Config.Fault where
  /-- It is no document of its format. What is told of that is left to the reader of the format. -/
  | malformed {told : String}
  /-- It is a document, but not one of settings. -/
  | misfit (message : String)
  deriving DecidableEq, Repr

/-- What is said of a text that gives no settings. -/
def Config.Fault.message : Config.Fault → String
  | @malformed told => told
  | misfit message => message

/-- How settings are read from texts of either format. -/
abbrev Config.Decoder := Config.Format → String → Except Config.Fault Config

/-- What the reader of a format tells of a text that is no document of it. -/
abbrev Config.Wording := Config.Format → String → String

/-- Words that stand in for those of the readers where these are not at hand. -/
def Config.Wording.standIn : Config.Wording :=
  fun _ _ => "malformed document"

end ExerciseAudit
