import ExerciseAudit.Text.Utf8

/-!
# Paths

A path is a string of bytes in which `/` separates names. Joining never normalises: `x/..` joined with `y`
is `x/../y`. Comparing and relating paths goes through their components, where repeated and trailing
separators and every `.` but a leading one have disappeared.
-/

namespace ExerciseAudit

/-- The byte that separates the names of a path. -/
def separator : UInt8 := 0x2F

/-- A path, as the file system holds it: any bytes at all. -/
structure Path where
  bytes : List UInt8
  deriving DecidableEq, Repr, Inhabited

namespace Path

/-- The path that a text spells. -/
def ofString (text : String) : Path :=
  ⟨Utf8.encode text.toList⟩

/-- The text shown for a path. -/
def display (path : Path) : String :=
  String.ofList (Utf8.lossy path.bytes)

/-- Whether a path starts at the top of the file system. -/
def isAbsolute (path : Path) : Bool :=
  path.bytes.head? == some separator

/-- The second path as seen from the first: itself if it is absolute, otherwise behind the first, with one
separator between them unless the first is empty or brings its own. -/
def join (first second : Path) : Path :=
  if second.isAbsolute || first.bytes.isEmpty then second
  else if first.bytes.getLast? == some separator then ⟨first.bytes ++ second.bytes⟩
  else ⟨first.bytes ++ separator :: second.bytes⟩

/-- Cut bytes at every separator. -/
def splitSeparator : List UInt8 → List (List UInt8)
  | [] => [[]]
  | byte :: rest =>
    if byte = separator then [] :: splitSeparator rest
    else match splitSeparator rest with
      | [] => [[byte]]
      | first :: others => (byte :: first) :: others

/-- A part of a path. -/
inductive Component where
  /-- The top of the file system. -/
  | top
  /-- `.`, the directory reached so far. -/
  | current
  /-- `..`, the directory above the one reached so far. -/
  | parent
  /-- An entry of the directory reached so far. -/
  | name (bytes : List UInt8)
  deriving DecidableEq, Repr

/-- The bytes of `.`. -/
def dot : List UInt8 := [0x2E]

/-- The bytes of `..`. -/
def dotDot : List UInt8 := [0x2E, 0x2E]

namespace Component

/-- What a part between separators stands for; an empty part stands for nothing. -/
def ofPart? (part : List UInt8) : Option Component :=
  if part = [] then none
  else if part = dot then some current
  else if part = dotDot then some parent
  else some (name part)

/-- How a component is spelled. -/
def bytes : Component → List UInt8
  | top => [separator]
  | current => dot
  | parent => dotDot
  | name bytes => bytes

/-- The rank of a kind of component in the order of paths. -/
def rank : Component → Nat
  | top => 0
  | current => 1
  | parent => 2
  | name _ => 3

/-- The order of components: by kind, and names bytewise. -/
def before : Component → Component → Bool
  | name first, name second => first < second
  | first, second => first.rank < second.rank

end Component

/-- What stands between the separators of a path, every `.` included. -/
def parts (path : Path) : List Component :=
  (splitSeparator path.bytes).filterMap Component.ofPart?

/-- The components of a path: the top if it is absolute, then a `.` only at the start of a relative path. -/
def components (path : Path) : List Component :=
  if path.isAbsolute then .top :: path.parts.filter (· ≠ .current)
  else match path.parts with
    | .current :: rest => .current :: rest.filter (· ≠ .current)
    | parts => parts.filter (· ≠ .current)

/-- Whether one row of components stands before another: at the first difference, or by being shorter. -/
def componentsBefore : List Component → List Component → Bool
  | _, [] => false
  | [], _ :: _ => true
  | first :: rest, second :: others =>
    if first = second then componentsBefore rest others else first.before second

/-- The order of paths: component by component, not byte by byte over the whole spelling. -/
def before (first second : Path) : Bool :=
  componentsBefore first.components second.components

end Path

end ExerciseAudit
