import ExerciseAudit.Json.Numeral

/-!
# Skipping JSON

A value that nobody wants is passed over by its form alone: brackets have to match, but numbers may be out
of range, escapes may spell half a pair, and nesting may be of any depth. The brackets that are open are
kept in a list.
-/

namespace ExerciseAudit.Json

/-- A kind of bracket. -/
inductive Bracket where
  | list
  | object
  deriving DecidableEq, Repr

namespace Bracket

/-- The character that closes a bracket. -/
def closing : Bracket → Char
  | list => ']'
  | object => '\x7d'

/-- The text ended inside. -/
def ended : Bracket → Cause
  | list => .endInList
  | object => .endInObject

/-- Something stands where only a comma or the closing bracket can. -/
def expectedCommaOrEnd : Bracket → Cause
  | list => .expectedListCommaOrEnd
  | object => .expectedObjectCommaOrEnd

end Bracket

/-- What follows the colon that has to come next. -/
def readColon (text : List Char) : Except Fault (List Char) :=
  match skipSpace text with
  | [] => .error (.behind .endInObject [])
  | c :: rest => if c = ':' then .ok rest else .error (.behind .expectedColon (c :: rest))

/-- What follows a word, string or number of which only the form matters, or `none` at an opening bracket. -/
def skipScalar? (c : Char) (rest : List Char) : Except Fault (Option (List Char)) :=
  if c = '"' then (skipString rest).map some
  else if c = 'n' then (readWord ['u', 'l', 'l'] rest).map some
  else if c = 't' then (readWord ['r', 'u', 'e'] rest).map some
  else if c = 'f' then (readWord ['a', 'l', 's', 'e'] rest).map some
  else if c = '-' ∨ isDigit c then (skipNumber (c :: rest)).map some
  else if c = '[' ∨ c = '\x7b' then .ok none
  else .error (.behind .expectedValue (c :: rest))

/-- What a skipping reader expects next. -/
inductive Expecting where
  /-- A value. -/
  | value
  /-- A member's key, or an item, of the innermost bracket. -/
  | item
  /-- The end of the innermost bracket, or, behind an item, a comma. -/
  | next (behindItem : Bool)
  deriving DecidableEq, Repr

/-- Skip until all open brackets are closed. The first argument bounds the number of moves. -/
def skipOpen : Nat → Expecting → List Bracket → List Char → Except Fault (List Char)
  | 0, _, _, text => .error (.behind .endInValue text)
  | moves + 1, .value, openings, text =>
    match skipSpace text with
    | [] => .error (.behind .endInValue [])
    | c :: rest => do
      match ← skipScalar? c rest with
      | some rest => if openings.isEmpty then pure rest else skipOpen moves (.next true) openings rest
      | none => skipOpen moves (.next false) ((if c = '[' then .list else .object) :: openings) rest
  | moves + 1, .item, openings, text =>
    match openings with
    | .object :: _ =>
      match skipSpace text with
      | [] => .error (.behind .endInObject [])
      | c :: rest =>
        if c = '"' then do
          let rest ← skipString rest
          let rest ← readColon rest
          skipOpen moves .value openings rest
        else .error (.behind .keyNotString (c :: rest))
    | _ => skipOpen moves .value openings text
  | _ + 1, .next _, [], text => .ok text
  | moves + 1, .next behindItem, bracket :: openings, text =>
    match skipSpace text with
    | [] => .error (.behind bracket.ended [])
    | c :: rest =>
      if behindItem ∧ c = ',' then skipOpen moves .item (bracket :: openings) rest
      else if c = bracket.closing then skipOpen moves (.next true) openings rest
      else if behindItem then .error (.behind bracket.expectedCommaOrEnd (c :: rest))
      else skipOpen moves .item (bracket :: openings) (c :: rest)

/-- What follows a value of which only the form matters. -/
def skipValue (text : List Char) : Except Fault (List Char) :=
  skipOpen (4 * text.length + 4) .value [] text

end ExerciseAudit.Json
