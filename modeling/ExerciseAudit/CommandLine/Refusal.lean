import ExerciseAudit.CommandLine.Help

/-!
# Refusals

Why a command line does not lead to a run: it asks for a text to be shown, or it is in error. The message of
an error says what is wrong and where help is to be had, and most say how the program is called.
-/

namespace ExerciseAudit.CommandLine

/-- Why a command line does not lead to a run. -/
inductive Refusal where
  /-- Help is asked for, in its long or short form. -/
  | help (long : Bool)
  /-- The version is asked for. -/
  | version
  /-- An option is without its value. -/
  | missingValue (setting : Setting)
  /-- A value is not one of those that its option takes. -/
  | invalidValue (setting : Setting) (value : String)
  /-- An option is given a second time. -/
  | repeated (setting : Setting)
  /-- A switch is given a value, after some options. -/
  | unwantedValue (switch : Switch) (value : String) (before : List Setting)
  /-- An argument is of no meaning, after some options. -/
  | unexpected (argument : String) (before : List Setting)
  deriving DecidableEq, Repr

namespace Refusal

/-- How the program is called with some options; any if there are none. -/
def usage (shown : List String) : String :=
  if shown.isEmpty then generalUsage else "Usage: " ++ " ".intercalate (program :: shown)

/-- Where help is to be had. -/
def hint : String := "For more information, try '--help'."

/-- An error's message from what is wrong and how the program is called. -/
def error (what : List String) (usage : Option String) : String :=
  "error: " ++ unlines (what ++ "" :: usage.toList.flatMap (fun line => [line, ""]) ++ [hint])

/-- The line that lists the values an option takes, if they are counted. -/
def valuesLine (setting : Setting) : List String :=
  if setting.values.isEmpty then [] else ["  " ++ possibleValues setting.values]

/-- The text that is shown instead of a run. -/
def message : Refusal → String
  | help true => longHelp
  | help false => shortHelp
  | version => versionText
  | missingValue setting =>
    error (("a value is required for '" ++ setting.shown ++ "' but none was supplied") ::
      valuesLine setting) none
  | invalidValue setting value =>
    error (("invalid value '" ++ value ++ "' for '" ++ setting.shown ++ "'") :: valuesLine setting) none
  | repeated setting =>
    error ["the argument '" ++ setting.shown ++ "' cannot be used multiple times"] (usage [])
  | unwantedValue switch value before =>
    error ["unexpected value '" ++ value ++ "' for '" ++ switch.shown ++ "' found; no more were expected"]
      (usage (before.map Setting.shown ++ [switch.shown]))
  | unexpected argument before =>
    error ["unexpected argument '" ++ argument ++ "' found"] (usage (before.map Setting.shown))

/-- Whether a command line is in error, rather than asking for a text. -/
def isError : Refusal → Bool
  | help _ | version => false
  | _ => true

/-- The exit code: nothing is wrong with asking for a text. -/
def exitCode (refusal : Refusal) : Nat :=
  if refusal.isError then 2 else 0

end Refusal

end ExerciseAudit.CommandLine
