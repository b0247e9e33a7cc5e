import ExerciseAudit.Json.Reader
import ExerciseAudit.Proofs.Json.Datum

/-!
# JSON as it is written

A `Writing` is a JSON value together with everything that is free in spelling it: blanks between
tokens, escapes in strings and keys, leading digits, fractions and exponents of numbers. Its `text`
is what stands in a file, its `datum?` the value it writes. A writing has no value only if one of
its strings has half a surrogate pair. No reader has a part in these definitions.
-/

namespace ExerciseAudit.Json

/-! ## Blanks and strings -/

/-- A character that means nothing between tokens. -/
inductive Blank where
  | space
  | tab
  | lineFeed
  | carriageReturn
  deriving DecidableEq

/-- How a blank is written. -/
def Blank.char : Blank → Char
  | space => ' '
  | tab => '\t'
  | lineFeed => '\n'
  | carriageReturn => '\r'

/-- How a row of blanks is written. -/
def spaces (blanks : List Blank) : List Char :=
  blanks.map Blank.char

/-- A hexadecimal digit, in either case. -/
structure HexDigit where
  value : Fin 16
  upper : Bool
  deriving DecidableEq

/-- How a hexadecimal digit is written. -/
def HexDigit.char (digit : HexDigit) : Char :=
  if digit.value.val < 10 then Char.ofNat ('0'.toNat + digit.value.val)
  else Char.ofNat ((if digit.upper then 'A' else 'a').toNat + (digit.value.val - 10))

/-- A letter with a meaning of its own behind a backslash. -/
inductive Escape where
  | quote
  | backslash
  | slash
  | backspace
  | formFeed
  | lineFeed
  | carriageReturn
  | tab
  deriving DecidableEq

namespace Escape

/-- The letter behind the backslash. -/
def letter : Escape → Char
  | quote => '"'
  | backslash => '\\'
  | slash => '/'
  | backspace => 'b'
  | formFeed => 'f'
  | lineFeed => 'n'
  | carriageReturn => 'r'
  | tab => 't'

/-- The character for which an escape stands. -/
def meaning : Escape → Char
  | quote => '"'
  | backslash => '\\'
  | slash => '/'
  | backspace => '\x08'
  | formFeed => '\x0c'
  | lineFeed => '\n'
  | carriageReturn => '\r'
  | tab => '\t'

end Escape

/-- One sign of a string: a character that stands for itself, a short escape, or sixteen bits in
hexadecimal digits. -/
inductive Glyph where
  | plain (c : Char) (ordinary : 0x20 ≤ c.toNat ∧ c ≠ '"' ∧ c ≠ '\\')
  | short (escape : Escape)
  | unit (first second third fourth : HexDigit)
  deriving DecidableEq

namespace Glyph

/-- How a sign is written. -/
def text : Glyph → List Char
  | plain c _ => [c]
  | short escape => ['\\', escape.letter]
  | unit first second third fourth =>
    ['\\', 'u', first.char, second.char, third.char, fourth.char]

/-- The number that four hexadecimal digits spell. -/
def code (first second third fourth : HexDigit) : Nat :=
  ((first.value.val * 16 + second.value.val) * 16 + third.value.val) * 16 + fourth.value.val

/-- The text that signs spell. Sixteen bits that are half of a surrogate pair spell a character only
with the other half behind them. -/
def spelled? : List Glyph → Option (List Char)
  | [] => some []
  | plain c _ :: rest => (spelled? rest).map (c :: ·)
  | short escape :: rest => (spelled? rest).map (escape.meaning :: ·)
  | unit a b c d :: rest =>
    if 0xDC00 ≤ code a b c d ∧ code a b c d < 0xE000 then none
    else if 0xD800 ≤ code a b c d ∧ code a b c d < 0xDC00 then
      match rest with
      | unit e f g h :: rest =>
        if 0xDC00 ≤ code e f g h ∧ code e f g h < 0xE000 then
          (spelled? rest).map
            (Char.ofNat (0x10000 + (code a b c d - 0xD800) * 0x400 + (code e f g h - 0xDC00)) :: ·)
        else none
      | _ => none
    else (spelled? rest).map (Char.ofNat (code a b c d) :: ·)

end Glyph

/-- A string as it is written, behind the quote that opens it. -/
def quoted (glyphs : List Glyph) : List Char :=
  glyphs.flatMap Glyph.text ++ ['"']

/-- The string that signs spell. -/
def string? (glyphs : List Glyph) : Option String :=
  (Glyph.spelled? glyphs).map String.ofList

/-! ## Numbers -/

/-- How a decimal digit is written. -/
def digitChar (digit : Fin 10) : Char :=
  Char.ofNat ('0'.toNat + digit.val)

/-- One decimal digit or more. -/
structure Digits where
  first : Fin 10
  rest : List (Fin 10)
  deriving DecidableEq

/-- All of the digits, in order. -/
def Digits.all (digits : Digits) : List (Fin 10) :=
  digits.first :: digits.rest

/-- What stands in front of a point: a single zero, or digits of which the first is none. -/
inductive Whole where
  | zero
  | positive (first : Fin 9) (rest : List (Fin 10))
  deriving DecidableEq

/-- All of the digits in front of a point. -/
def Whole.all : Whole → List (Fin 10)
  | zero => [0]
  | positive first rest => first.succ :: rest

/-- The exponent of a number; `down` is its sign, if it has one. -/
structure Exponent where
  upper : Bool
  down : Option Bool
  digits : Digits
  deriving DecidableEq

/-- A number as it is written. -/
structure Figure where
  negative : Bool
  whole : Whole
  fraction : Option Digits
  exponent : Option Exponent
  deriving DecidableEq

/-- The number that a row of decimal digits spells. -/
def natural (digits : List (Fin 10)) : Nat :=
  digits.foldl (fun n digit => n * 10 + digit.val) 0

namespace Exponent

/-- How an exponent is written, from the letter on. -/
def text (exponent : Exponent) : List Char :=
  (if exponent.upper then 'E' else 'e') ::
    (exponent.down.toList.map fun down => if down then '-' else '+') ++
      exponent.digits.all.map digitChar

/-- The power of ten that an exponent adds. -/
def value (exponent : Exponent) : Int :=
  if exponent.down = some true then -natural exponent.digits.all else natural exponent.digits.all

end Exponent

/-- How a fraction is written, with its point, or nothing if there is none. -/
def fractionText (fraction : Option Digits) : List Char :=
  (fraction.map fun digits => '.' :: digits.all.map digitChar).getD []

/-- How an exponent is written, or nothing if there is none. -/
def exponentText (exponent : Option Exponent) : List Char :=
  (exponent.map Exponent.text).getD []

namespace Figure

/-- The digits behind the point. -/
def decimals (figure : Figure) : List (Fin 10) :=
  (figure.fraction.map Digits.all).getD []

/-- How a number is written, but for its sign. -/
def unsigned (figure : Figure) : List Char :=
  figure.whole.all.map digitChar ++ (fractionText figure.fraction ++ exponentText figure.exponent)

/-- How a number is written. -/
def text (figure : Figure) : List Char :=
  (if figure.negative then ['-'] else []) ++ figure.unsigned

/-- The number without its sign. -/
def magnitude (figure : Figure) : ℚ :=
  natural (figure.whole.all ++ figure.decimals) *
    10 ^ ((figure.exponent.map Exponent.value).getD 0 - figure.decimals.length)

/-- The number that is written. -/
def value (figure : Figure) : ℚ :=
  if figure.negative then -figure.magnitude else figure.magnitude

end Figure

/-! ## Values -/

/-- A value among others, with the blanks around it. -/
structure Slot (α : Type) where
  before : List Blank
  value : α
  after : List Blank

/-- A member of an object, with all blanks around its tokens. -/
structure Member (α : Type) where
  before : List Blank
  name : List Glyph
  gap : List Blank
  ahead : List Blank
  value : α
  after : List Blank

/-- A JSON value as it is written. -/
inductive Writing where
  | null
  | bool (value : Bool)
  | number (figure : Figure)
  | string (glyphs : List Glyph)
  | array (opening : List Blank) (items : List (Slot Writing))
  | object (opening : List Blank) (members : List (Member Writing))

/-- An item's value is smaller than the array, so that recursion over spellings ends. -/
theorem Slot.sizeOf_value_lt {slot : Slot Writing} {items : List (Slot Writing)}
    (inside : slot ∈ items) : sizeOf slot.value < sizeOf items := by
  have smaller := List.sizeOf_lt_of_mem inside
  obtain ⟨before, value, after⟩ := slot
  simp only [Slot.mk.sizeOf_spec] at smaller ⊢
  omega

/-- A member's value is smaller than the object, so that recursion over spellings ends. -/
theorem Member.sizeOf_value_lt {member : Member Writing} {members : List (Member Writing)}
    (inside : member ∈ members) : sizeOf member.value < sizeOf members := by
  have smaller := List.sizeOf_lt_of_mem inside
  obtain ⟨before, name, gap, ahead, value, after⟩ := member
  simp only [Member.mk.sizeOf_spec] at smaller ⊢
  omega

/-- Texts with a comma between each and the next. -/
def separated : List (List Char) → List Char
  | [] => []
  | first :: rest => first ++ rest.flatMap fun text => ',' :: text

namespace Writing

/-- The text of a value. -/
def text : Writing → List Char
  | null => ['n', 'u', 'l', 'l']
  | bool true => ['t', 'r', 'u', 'e']
  | bool false => ['f', 'a', 'l', 's', 'e']
  | number figure => figure.text
  | string glyphs => '"' :: quoted glyphs
  | array opening items =>
    '[' :: (spaces opening ++ (separated (items.map fun slot =>
      spaces slot.before ++ (slot.value.text ++ spaces slot.after)) ++ [']']))
  | object opening members =>
    '\x7b' :: (spaces opening ++ (separated (members.map fun member =>
      spaces member.before ++ '"' :: (quoted member.name ++ (spaces member.gap ++ ':' ::
        (spaces member.ahead ++ (member.value.text ++ spaces member.after))))) ++ ['\x7d']))
decreasing_by
  · have smaller := Slot.sizeOf_value_lt ‹_›
    simp only [array.sizeOf_spec]
    omega
  · have smaller := Member.sizeOf_value_lt ‹_›
    simp only [object.sizeOf_spec]
    omega

/-- The value that is written. -/
def datum? : Writing → Option Datum
  | null => some .null
  | bool value => some (.bool value)
  | number figure => some (.number figure.value)
  | string glyphs => (string? glyphs).map .string
  | array _ items => (items.mapM fun slot : Slot Writing => slot.value.datum?).map .array
  | object _ members =>
    (members.mapM fun member : Member Writing => (string? member.name).bind fun name =>
      member.value.datum?.map (name, ·)).map .object
decreasing_by
  · have smaller := Slot.sizeOf_value_lt ‹_›
    simp only [array.sizeOf_spec]
    omega
  · have smaller := Member.sizeOf_value_lt ‹_›
    simp only [object.sizeOf_spec]
    omega

/-- No number has more than `places` digits behind its point. -/
def Within (places : Nat) : Writing → Prop
  | number figure => figure.decimals.length ≤ places
  | array _ items => ∀ slot ∈ items, slot.value.Within places
  | object _ members => ∀ member ∈ members, member.value.Within places
  | _ => True
decreasing_by
  · have smaller := Slot.sizeOf_value_lt ‹_›
    simp only [array.sizeOf_spec]
    omega
  · have smaller := Member.sizeOf_value_lt ‹_›
    simp only [object.sizeOf_spec]
    omega

end Writing

/-- How a value among others is written, with the blanks around it. -/
def Slot.text (slot : Slot Writing) : List Char :=
  spaces slot.before ++ (slot.value.text ++ spaces slot.after)

/-- How a member of an object is written, with the blanks around it. -/
def Member.text (member : Member Writing) : List Char :=
  spaces member.before ++ '"' :: (quoted member.name ++ (spaces member.gap ++ ':' ::
    (spaces member.ahead ++ (member.value.text ++ spaces member.after))))

namespace Writing

theorem text_array (opening : List Blank) (items : List (Slot Writing)) :
    (array opening items).text =
      '[' :: (spaces opening ++ (separated (items.map Slot.text) ++ [']'])) := by
  rw [text]
  rfl

theorem text_object (opening : List Blank) (members : List (Member Writing)) :
    (object opening members).text =
      '\x7b' :: (spaces opening ++ (separated (members.map Member.text) ++ ['\x7d'])) := by
  rw [text]
  rfl

end Writing

/-- The text of an object with blanks around it. -/
def objectText (before opening : List Blank) (members : List (Member Writing))
    (after : List Blank) : String :=
  String.ofList (spaces before ++ ((Writing.object opening members).text ++ spaces after))

/-- A text spells a value if one writing of it stands there between blanks, with at most `places`
digits behind the point of a number. Members of objects may be written in any order. -/
inductive Spells (places : Nat) : String → Datum → Prop
  | intro {writing : Writing} {written value : Datum} (before after : List Blank)
      (valued : writing.datum? = some written) (within : writing.Within places)
      (order : written.Rearranged value) :
      Spells places (String.ofList (spaces before ++ (writing.text ++ spaces after))) value

end ExerciseAudit.Json
