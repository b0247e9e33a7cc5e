import ExerciseAudit.CommandLine.Refusal

/-!
# Reading command lines

Arguments are read one by one. An option's value is the argument after it, or what follows an equals sign;
a value of its own argument is looked at only when the next option, switch or the end shows that it is
complete, so that an argument of no meaning is reported before it.
-/

namespace ExerciseAudit.CommandLine

/-- An argument by its form. -/
inductive Argument where
  /-- Two dashes alone, after which nothing is an option. -/
  | terminator
  /-- Two dashes, a name, and perhaps a value after an equals sign. -/
  | long (name : String) (value : Option String)
  /-- One dash and a letter, with whatever follows it. -/
  | short (letter : Char)
  /-- Anything else. -/
  | word (text : String)
  deriving DecidableEq, Repr

/-- The form of an argument. -/
def Argument.ofString (text : String) : Argument :=
  match text.toList with
  | ['-', '-'] => .terminator
  | '-' :: '-' :: body =>
    let name := String.ofList (body.takeWhile (· ≠ '='))
    match body.dropWhile (· ≠ '=') with
    | [] => .long name none
    | _ :: value => .long name (some (String.ofList value))
  | '-' :: letter :: _ => .short letter
  | _ => .word text

/-- A command line part way through: what it asks for so far, the options that have been given in their
order, and the option that is still open, with its value if that has been met. -/
structure Progress where
  asked : CommandLine
  given : List Setting
  pending : Option (Setting × Option String)
  deriving DecidableEq, Repr

namespace Progress

/-- Nothing has been read. -/
def start : Progress := ⟨⟨none, none⟩, [], none⟩

/-- Set an option to a value. -/
def set (asked : CommandLine) (setting : Setting) (value : String) : Except Refusal CommandLine :=
  if value.isEmpty then .error (.missingValue setting)
  else match setting with
    | .root => .ok { asked with root := some (.ofString value) }
    | .output =>
      match OutputMode.ofName? value with
      | some mode => .ok { asked with output := some mode }
      | none => .error (.invalidValue .output value)

/-- Give an option a value, unless it has been given before. -/
def give (progress : Progress) (setting : Setting) (value : String) : Except Refusal Progress :=
  if setting ∈ progress.given then .error (.repeated setting)
  else (set progress.asked setting value).map fun asked =>
    ⟨asked, progress.given ++ [setting], progress.pending⟩

/-- Close the option that is still open. -/
def settle (progress : Progress) : Except Refusal Progress :=
  match progress.pending with
  | none => .ok progress
  | some (setting, none) => .error (.missingValue setting)
  | some (setting, some value) => { progress with pending := none }.give setting value

/-- The options that show in the usage of an error: those given, and the one still open if it has a value,
whatever that is. An option given twice does not show. -/
def shown (progress : Progress) : List Setting :=
  match progress.pending with
  | some (setting, some _) =>
    if setting ∈ progress.given then progress.given.erase setting else progress.given ++ [setting]
  | _ => progress.given

/-- Stop where a switch is met. -/
def stop (progress : Progress) (refusal : Refusal) : Except Refusal CommandLine :=
  match progress.settle with
  | .error earlier => .error earlier
  | .ok _ => .error refusal

/-- Read the rest of a command line. -/
def read (progress : Progress) : List String → Except Refusal CommandLine
  | [] => progress.settle.map Progress.asked
  | text :: rest =>
    match Argument.ofString text with
    | .terminator =>
      match rest with
      | [] => progress.settle.map Progress.asked
      | extra :: _ => .error (.unexpected extra [])
    | .long name value =>
      match Setting.ofName? name, Switch.ofName? name with
      | some setting, _ =>
        match progress.settle with
        | .error refusal => .error refusal
        | .ok settled =>
          match value with
          | none => { settled with pending := some (setting, none) }.read rest
          | some value =>
            match settled.give setting value with
            | .error refusal => .error refusal
            | .ok given => given.read rest
      | none, some switch =>
        match value with
        | some value => .error (.unwantedValue switch value progress.given)
        | none => progress.stop (match switch with
          | .help => .help true
          | .version => .version)
      | none, none => .error (.unexpected ("--" ++ name) progress.shown)
    | .short letter =>
      match Switch.ofLetter? letter with
      | some .help => progress.stop (.help false)
      | some .version => progress.stop .version
      | none => .error (.unexpected ("-" ++ String.singleton letter) [])
    | .word text =>
      match progress.pending with
      | some (setting, none) => { progress with pending := some (setting, some text) }.read rest
      | _ => .error (.unexpected text [])

end Progress

/-- What a command line asks for, given the arguments after the program's name. -/
def ofArguments (arguments : List String) : Except Refusal CommandLine :=
  Progress.start.read arguments

end ExerciseAudit.CommandLine
