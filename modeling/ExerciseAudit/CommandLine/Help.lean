import ExerciseAudit.CommandLine.Basic

/-!
# Help

The help text in its two lengths, and the version text. The short form puts each option and its purpose on
one line, with the purposes in one column; the long form gives them a line of their own.
-/

namespace ExerciseAudit.CommandLine

/-- Text made up of lines, each ended. -/
def unlines (lines : List String) : String :=
  String.join (lines.map (· ++ "\n"))

/-- What the program is for, in a line. -/
def summary : String := "Verify exercise docs against their manifests"

/-- What the program does. -/
def description : List String := [
  "Exverify scans docs/exercises for *.manifest.json files and checks that every referenced doc, " ++
    "reference, and output fixture exists and carries its required headings.",
  "",
  "Configuration precedence: CLI > exverify.toml > defaults."]

/-- How the program is called, with what the square brackets stand for left open. -/
def generalUsage : String :=
  "Usage: " ++ program ++ " [OPTIONS]"

/-- Some calls. -/
def examples : List String := [
  "Examples:",
  "  " ++ program,
  "  " ++ program ++ " --root path/to/repo",
  "  " ++ program ++ " --root . --output json"]

/-- What a switch is for, in a help text that is long or short. -/
def Switch.purpose (long : Bool) : Switch → String
  | help => if long then "Print help (see a summary with '-h')" else "Print help (see more with '--help')"
  | version => "Print version"

/-- An option at the start of its line. -/
def Setting.heading (setting : Setting) : String :=
  "      " ++ setting.shown

/-- A switch at the start of its line. -/
def Switch.heading (switch : Switch) : String :=
  "  -" ++ String.singleton switch.letter ++ ", " ++ switch.shown

/-- Text with blanks after it up to a width. -/
def padTo (width : Nat) (text : String) : String :=
  text ++ String.ofList (List.replicate (width - text.length) ' ')

/-- The entries of the short help text: what is described, and its description. -/
def shortEntries : List (String × String) :=
  Setting.all.map (fun setting =>
    (setting.heading,
      " ".intercalate (setting.purpose ::
        if setting.values.isEmpty then [] else [possibleValues setting.values]))) ++
  Switch.all.map fun switch => (switch.heading, switch.purpose false)

/-- The column at which descriptions start in the short help text. -/
def shortColumn : Nat :=
  (shortEntries.map (·.1.length)).foldl max 0 + 2

/-- The short help text. -/
def shortHelp : String :=
  unlines <|
    [summary, "", generalUsage, "", "Options:"] ++
      shortEntries.map (fun (entry, purpose) => padTo shortColumn entry ++ purpose) ++
      "" :: examples

/-- The indentation of descriptions in the long help text. -/
def longIndent : String := "          "

/-- The paragraphs about an option in the long help text. -/
def Setting.paragraphs (setting : Setting) : List String :=
  let values :=
    if setting.values.isEmpty then [] else [longIndent, longIndent ++ possibleValues setting.values]
  [setting.heading, longIndent ++ setting.purpose] ++ values ++ [""]

/-- The paragraphs about a switch in the long help text. -/
def Switch.paragraphs (switch : Switch) : List String :=
  [switch.heading, longIndent ++ switch.purpose true, ""]

/-- The long help text. -/
def longHelp : String :=
  unlines <|
    description ++ ["", generalUsage, "", "Options:"] ++ Setting.all.flatMap Setting.paragraphs ++
      Switch.all.flatMap Switch.paragraphs ++ examples

/-- The version text. -/
def versionText : String :=
  unlines [program ++ " " ++ version]

end ExerciseAudit.CommandLine
