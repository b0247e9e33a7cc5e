import ExerciseAudit.Json.Printer
import ExerciseAudit.Text.Quoted
import ExerciseAudit.Text.Utf8

/-!
# Faults in JSON text

Why a text is refused and where. A place is kept as the number of bytes that come after it, so that a
reader which only holds the rest of the text can name it; `Position.ofOffset` turns it into a line and a
column once the whole text is at hand.
-/

namespace ExerciseAudit.Json

/-- A kind of value that was found where another was wanted. -/
inductive Found where
  | null
  | bool (value : Bool)
  | number (value : Number)
  | string (value : String)
  | array
  | object
  deriving DecidableEq, Repr

/-- How a found value is described. -/
def Found.describe : Found → String
  | null => "null"
  | bool value => "boolean `" ++ (if value then "true" else "false") ++ "`"
  | number (.integer value) => "integer `" ++ toString value ++ "`"
  | number (.float value) => "floating point `" ++ (Number.float value).write ++ "`"
  | string value => "string " ++ Text.quoted value
  | array => "sequence"
  | object => "map"

/-- Why a text is refused. -/
inductive Cause where
  | endInList
  | endInObject
  | endInString
  | endInValue
  | expectedColon
  | expectedListCommaOrEnd
  | expectedObjectCommaOrEnd
  | expectedWord
  | expectedValue
  | invalidEscape
  | invalidNumber
  | numberOutOfRange
  | controlCharacter
  | keyNotString
  | loneSurrogate
  | unexpectedEndOfEscape
  | trailingComma
  | trailingCharacters
  | tooDeep
  /-- A value of one kind where another was wanted. -/
  | wrongKind (found : Found) (wanted : String)
  /-- A member that a record may have once, met again. -/
  | repeatedField (field : String)
  /-- A value that has none of the shapes of a type. -/
  | noShape (type : String)
  deriving DecidableEq, Repr

/-- How a cause is worded. -/
def Cause.message : Cause → String
  | endInList => "EOF while parsing a list"
  | endInObject => "EOF while parsing an object"
  | endInString => "EOF while parsing a string"
  | endInValue => "EOF while parsing a value"
  | expectedColon => "expected `:`"
  | expectedListCommaOrEnd => "expected `,` or `]`"
  | expectedObjectCommaOrEnd => "expected `,` or `\x7d`"
  | expectedWord => "expected ident"
  | expectedValue => "expected value"
  | invalidEscape => "invalid escape"
  | invalidNumber => "invalid number"
  | numberOutOfRange => "number out of range"
  | controlCharacter => "control character (\\u0000-\\u001F) found while parsing a string"
  | keyNotString => "key must be a string"
  | loneSurrogate => "lone leading surrogate in hex escape"
  | unexpectedEndOfEscape => "unexpected end of hex escape"
  | trailingComma => "trailing comma"
  | trailingCharacters => "trailing characters"
  | tooDeep => "recursion limit exceeded"
  | wrongKind found wanted => "invalid type: " ++ found.describe ++ ", expected " ++ wanted
  | repeatedField field => "duplicate field `" ++ field ++ "`"
  | noShape type => "data did not match any variant of " ++ type

/-- A cause, with how many bytes of the text come after the place where it is reported. -/
structure Fault where
  cause : Cause
  left : Nat
  deriving DecidableEq, Repr

namespace Fault

/-- A fault reported right before the rest of a text. -/
def before (cause : Cause) (rest : List Char) : Fault :=
  ⟨cause, Utf8.size rest⟩

/-- A fault reported behind the first byte of the rest of a text, or at its end if nothing is left. -/
def behind (cause : Cause) (rest : List Char) : Fault :=
  ⟨cause, Utf8.size rest - 1⟩

end Fault

/-- A place in a text: lines count from one, and columns are the bytes of the line before the place. -/
structure Position where
  line : Nat
  column : Nat
  deriving DecidableEq, Repr

/-- The byte that ends a line. -/
def lineFeed : UInt8 := 0x0A

/-- The place behind some bytes of a text. -/
def Position.behind (bytes : List UInt8) : Position :=
  ⟨bytes.count lineFeed + 1, (bytes.reverse.takeWhile (· ≠ lineFeed)).length⟩

/-- The place of a fault in the whole text. -/
def Fault.position (fault : Fault) (text : List Char) : Position :=
  let bytes := Utf8.encode text
  .behind (bytes.take (bytes.length - fault.left))

end ExerciseAudit.Json
