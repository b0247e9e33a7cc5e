import ExerciseAudit.Json.Skip

/-!
# Reading JSON

Readers for values of a wanted kind. Items of a list and members of an object are read one after another,
so the first fault in the order of the text is the one that is reported. `readValue` reads any value, with
a limit on how deep brackets nest.
-/

namespace ExerciseAudit.Json

/-- What comes next in a list. -/
inductive NextItem where
  | close (rest : List Char)
  | item (rest : List Char)

/-- Go to the next item of a list. -/
def nextItem (first : Bool) (text : List Char) : Except Fault NextItem :=
  match skipSpace text with
  | [] => .error (.behind .endInList [])
  | c :: rest =>
    if c = ']' then .ok (.close rest)
    else if first then .ok (.item (c :: rest))
    else if c = ',' then
      match skipSpace rest with
      | [] => .error (.behind .endInValue [])
      | c :: rest =>
        if c = ']' then .error (.behind .trailingComma (c :: rest)) else .ok (.item (c :: rest))
    else .error (.behind .expectedListCommaOrEnd (c :: rest))

/-- The items of a list whose opening bracket has been read. The first argument bounds their number. -/
def readItems {α : Type} (item : List Char → Outcome α) : Nat → Bool → List Char → Outcome (List α)
  | 0, _, text => .error (.behind .endInList text)
  | bound + 1, first, text =>
    match nextItem first text with
    | .error fault => .error fault
    | .ok (.close rest) => .ok ([], rest)
    | .ok (.item rest) =>
      match item rest with
      | .error fault => .error fault
      | .ok (value, rest) =>
        match readItems item bound false rest with
        | .error fault => .error fault
        | .ok (values, rest) => .ok (value :: values, rest)

/-- All items of a list whose opening bracket has been read. -/
def readList {α : Type} (item : List Char → Outcome α) (text : List Char) : Outcome (List α) :=
  readItems item (text.length + 1) true text

/-- What comes next in an object: its end, or a key with what follows it. -/
inductive NextKey where
  | close (rest : List Char)
  | key (name : String) (rest : List Char)

/-- The key that starts here; `other` is the cause when something else does. -/
def readKey : List Char → Except Fault NextKey
  | '"' :: rest => (readString rest).map fun (name, rest) => .key (String.ofList name) rest
  | rest => .error (.behind .keyNotString rest)

/-- Go to the next key of an object. -/
def nextKey (first : Bool) (text : List Char) : Except Fault NextKey :=
  match skipSpace text with
  | [] => .error (.behind .endInObject [])
  | c :: rest =>
    if c = '\x7d' then .ok (.close rest)
    else if first then readKey (c :: rest)
    else if c = ',' then
      match skipSpace rest with
      | [] => .error (.behind .endInValue [])
      | c :: rest =>
        if c = '\x7d' then .error (.behind .trailingComma (c :: rest)) else readKey (c :: rest)
    else .error (.behind .expectedObjectCommaOrEnd (c :: rest))

/-- The members of an object whose opening bracket has been read, each added to what was gathered before by
a reader that starts behind its key. The first argument bounds their number. -/
def readMembers {σ : Type} (member : σ → String → List Char → Outcome σ) :
    Nat → Bool → σ → List Char → Outcome σ
  | 0, _, _, text => .error (.behind .endInObject text)
  | bound + 1, first, gathered, text =>
    match nextKey first text with
    | .error fault => .error fault
    | .ok (.close rest) => .ok (gathered, rest)
    | .ok (.key name rest) =>
      match member gathered name rest with
      | .error fault => .error fault
      | .ok (gathered, rest) => readMembers member bound false gathered rest

/-- All members of an object whose opening bracket has been read. -/
def readObject {σ : Type} (member : σ → String → List Char → Outcome σ) (start : σ)
    (text : List Char) : Outcome σ :=
  readMembers member (text.length + 1) true start text

/-- How deep brackets may nest in a text. -/
def maxDepth : Nat := 127

/-- A value in which brackets nest at most `depth` deep. -/
def readValue : (depth : Nat) → List Char → Outcome Value
  | depth, text =>
    match skipSpace text with
    | [] => .error (.behind .endInValue [])
    | c :: rest =>
      if c = 'n' then (readWord ['u', 'l', 'l'] rest).map fun rest => (.null, rest)
      else if c = 't' then (readWord ['r', 'u', 'e'] rest).map fun rest => (.bool true, rest)
      else if c = 'f' then (readWord ['a', 'l', 's', 'e'] rest).map fun rest => (.bool false, rest)
      else if c = '-' ∨ isDigit c then
        (readNumber (c :: rest)).map fun (number, rest) => (.number number, rest)
      else if c = '"' then
        (readString rest).map fun (text, rest) => (.string (String.ofList text), rest)
      else if c = '[' then
        match depth with
        | 0 => .error (.behind .tooDeep (c :: rest))
        | depth + 1 =>
          (readList (readValue depth) rest).map fun (items, rest) => (.array items, rest)
      else if c = '\x7b' then
        match depth with
        | 0 => .error (.behind .tooDeep (c :: rest))
        | depth + 1 =>
          let member (members : List (String × Value)) (name : String) (rest : List Char) :
              Outcome (List (String × Value)) :=
            match readColon rest with
            | .error fault => .error fault
            | .ok rest => (readValue depth rest).map fun (value, rest) => ((name, value) :: members, rest)
          (readObject member [] rest).map fun (members, rest) => (.object members.reverse, rest)
      else .error (.behind .expectedValue (c :: rest))

/-- The fault of a value that starts here and is not of the wanted kind. Words, numbers and strings are
read to their end first, and a fault in them counts more. -/
def unwanted (wanted : String) (text : List Char) : Fault :=
  let fault (found : Found) (rest : List Char) : Fault := .before (.wrongKind found wanted) rest
  let word (found : Found) (outcome : Except Fault (List Char)) : Fault :=
    match outcome with
    | .ok rest => fault found rest
    | .error earlier => earlier
  match text with
  | [] => .behind .endInValue []
  | c :: rest =>
    if c = 'n' then word .null (readWord ['u', 'l', 'l'] rest)
    else if c = 't' then word (.bool true) (readWord ['r', 'u', 'e'] rest)
    else if c = 'f' then word (.bool false) (readWord ['a', 'l', 's', 'e'] rest)
    else if c = '-' ∨ isDigit c then
      match readNumber (c :: rest) with
      | .ok (number, rest) => fault (.number number) rest
      | .error earlier => earlier
    else if c = '"' then
      match readString rest with
      | .ok (text, rest) => fault (.string (String.ofList text)) rest
      | .error earlier => earlier
    else if c = '[' then fault .array (c :: rest)
    else if c = '\x7b' then fault .object (c :: rest)
    else .behind .expectedValue (c :: rest)

/-- A string. -/
def readText (text : List Char) : Outcome String :=
  match skipSpace text with
  | '"' :: rest => (readString rest).map fun (text, rest) => (String.ofList text, rest)
  | rest => .error (unwanted "a string" rest)

/-- A string or null. -/
def readTextOrNull (text : List Char) : Outcome (Option String) :=
  match skipSpace text with
  | 'n' :: rest => (readWord ['u', 'l', 'l'] rest).map fun rest => (none, rest)
  | rest => (readText rest).map fun (text, rest) => (some text, rest)

/-- A list. -/
def readArray {α : Type} (item : List Char → Outcome α) (text : List Char) : Outcome (List α) :=
  match skipSpace text with
  | '[' :: rest => readList item rest
  | rest => .error (unwanted "a sequence" rest)

/-- What follows a list of a fixed number of items once they have been read. -/
def closeList (text : List Char) : Except Fault (List Char) :=
  match skipSpace text with
  | [] => .error (.behind .endInList [])
  | c :: rest =>
    if c = ']' then .ok rest
    else if c = ',' then
      match skipSpace rest with
      | ']' :: rest => .error (.behind .trailingComma (']' :: rest))
      | rest => .error (.behind .trailingCharacters rest)
    else .error (.behind .trailingCharacters (c :: rest))

/-- The place where a list would go on or end: behind blanks and one comma or closing bracket. A list that
is given up for what one of its items is worth is reported there. -/
def listGivenUpAt (text : List Char) : List Char :=
  match skipSpace text with
  | ']' :: rest => rest
  | ',' :: rest => skipSpace rest
  | rest => rest

/-- The place where an object would go on or end: behind blanks and one closing bracket. An object that is
given up for one of its keys is reported there. -/
def objectGivenUpAt (text : List Char) : List Char :=
  match skipSpace text with
  | '\x7d' :: rest => rest
  | rest => rest

/-- Nothing but blanks is left. -/
def readEnd (text : List Char) : Except Fault Unit :=
  match skipSpace text with
  | [] => .ok ()
  | rest => .error (.behind .trailingCharacters rest)

/-- The value that a whole text spells. -/
def Value.parse (text : String) : Except Fault Value := do
  let (value, rest) ← readValue maxDepth text.toList
  readEnd rest
  pure value

end ExerciseAudit.Json
