/-!
# Styled text

Text for a terminal, in stretches that may be bold and coloured. Each stretch that has a style is written
with escape sequences, or without them as the text alone, as the environment wants it.
-/

namespace ExerciseAudit.Text

/-- A colour. -/
inductive Colour where
  | red
  | blue
  | cyan
  deriving DecidableEq, Repr

/-- The number of a colour in an escape sequence. -/
def Colour.code : Colour → String
  | red => "31"
  | blue => "34"
  | cyan => "36"

/-- A stretch of text in one style. -/
inductive Stretch where
  | plain (text : String)
  | bold (text : String)
  /-- Bold, and in a colour. -/
  | tinted (colour : Colour) (text : String)
  deriving DecidableEq, Repr

/-- An escape sequence that selects a style. -/
def select (code : String) : String :=
  "\x1b[" ++ code ++ "m"

/-- Whether styles are wanted in an environment with this variable `NO_COLOR`: unless it is set, whatever its
value. -/
def stylesEnabled (noColor : Option String) : Bool :=
  noColor.isNone

/-- A stretch as it is written in an environment with this variable `NO_COLOR`. -/
def Stretch.write (noColor : Option String) : Stretch → String
  | plain text => text
  | bold text =>
    if stylesEnabled noColor then select "1" ++ text ++ select "0" else text
  | tinted colour text =>
    if stylesEnabled noColor then
      select "1" ++ select colour.code ++ text ++ select "39" ++ select "0"
    else text

/-- Styled text as it is written in an environment with this variable `NO_COLOR`. -/
def write (noColor : Option String) (stretches : List Stretch) : String :=
  String.join (stretches.map (Stretch.write noColor))

end ExerciseAudit.Text
