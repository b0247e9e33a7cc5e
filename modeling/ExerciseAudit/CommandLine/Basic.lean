import ExerciseAudit.Config.Basic
import ExerciseAudit.Path.Basic

/-!
# Command lines

What a command line may ask for: a root and an output mode, each by an option with a value and at most once,
or else the help text or the version, each by a switch without a value.
-/

namespace ExerciseAudit

/-- What a command line asks for. -/
structure CommandLine where
  root : Option Path
  output : Option OutputMode
  deriving DecidableEq, Repr

namespace CommandLine

/-- The name by which the program is called. -/
def program : String := "exverify"

/-- The version of the program. -/
def version : String := "0.1.0"

/-- The options that take a value. -/
inductive Setting where
  | root
  | output
  deriving DecidableEq, Repr

namespace Setting

/-- The name of an option, without its dashes. -/
def name : Setting → String
  | root => "root"
  | output => "output"

/-- What stands for the value of an option in texts. -/
def placeholder : Setting → String
  | root => "<ROOT>"
  | output => "<OUTPUT>"

/-- An option as it is shown in texts. -/
def shown (setting : Setting) : String :=
  "--" ++ setting.name ++ " " ++ setting.placeholder

/-- What an option is for. -/
def purpose : Setting → String
  | root => "Repository root (default: current dir)"
  | output => "Output mode: human|json (default: human)"

/-- The values that an option takes, if they are counted. -/
def values : Setting → List String
  | root => []
  | output => OutputMode.all.map OutputMode.name

/-- All options that take a value. -/
def all : List Setting := [root, output]

/-- The option of a name. -/
def ofName? (name : String) : Option Setting :=
  all.find? (·.name = name)

end Setting

/-- The options that take no value. -/
inductive Switch where
  | help
  | version
  deriving DecidableEq, Repr

namespace Switch

/-- The name of a switch, without its dashes. -/
def name : Switch → String
  | help => "help"
  | version => "version"

/-- The letter of a switch. -/
def letter : Switch → Char
  | help => 'h'
  | version => 'V'

/-- A switch as it is shown in texts. -/
def shown (switch : Switch) : String :=
  "--" ++ switch.name

/-- All switches. -/
def all : List Switch := [help, version]

/-- The switch of a name. -/
def ofName? (name : String) : Option Switch :=
  all.find? (·.name = name)

/-- The switch of a letter. -/
def ofLetter? (letter : Char) : Option Switch :=
  all.find? (·.letter = letter)

end Switch

/-- The values that an option takes, as texts list them. -/
def possibleValues (values : List String) : String :=
  "[possible values: " ++ ", ".intercalate values ++ "]"

end CommandLine

end ExerciseAudit
