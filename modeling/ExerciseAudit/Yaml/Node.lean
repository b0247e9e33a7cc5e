import ExerciseAudit.Yaml.Token

/-!
# YAML nodes

What the tokens of a document spell: scalars, sequences and mappings with their tags, and aliases of nodes
that were given an anchor before. A text holds one document at most.
-/

namespace ExerciseAudit.Yaml

/-- Where a node starts, the number of its anchor, and its tag. -/
structure Properties where
  mark : Mark
  anchor : Option Nat
  tag : Option String
  deriving DecidableEq, Repr

/-- The tag that says of a scalar that it has none. -/
def noTag : String := "!"

/-- A node of a document. -/
inductive Node where
  | alias (mark : Mark) (target : Nat)
  | scalar (properties : Properties) (text : String) (plain : Bool)
  | sequence (properties : Properties) (items : List Node)
  | mapping (properties : Properties) (members : List (Node × Node))
  deriving Repr

/-- The node that stands where one was left out. -/
def Node.absent (mark : Mark) : Node :=
  .scalar ⟨mark, none, none⟩ "" true

/-- The tokens of a document part way through. An anchor's number is how many other names had anchors
before it, and an alias means the anchor that its name had last. -/
structure Reading where
  tokens : List Token
  anchors : List (List Char × Nat)
  handles : List (List Char × List Char)

namespace Reading

/-- The kind of the next token. -/
def next (reading : Reading) : TokenKind :=
  reading.tokens.head?.elim .streamEnd Token.kind

/-- The mark of the next token. -/
def mark (reading : Reading) : Mark :=
  reading.tokens.head?.elim ⟨0, 0, 0⟩ Token.mark

/-- Pass the next token. -/
def skip (reading : Reading) : Reading :=
  { reading with tokens := reading.tokens.drop 1 }

/-- The tag that a handle and a suffix make up; without a handle it is the suffix. -/
def tagOf? (reading : Reading) (handle suffix : List Char) : Option String :=
  if handle.isEmpty then some (String.ofList suffix)
  else (reading.handles.lookup handle).map fun lead => String.ofList (lead ++ suffix)

/-- Give the next anchor to a name. -/
def addAnchor (reading : Reading) (name : List Char) : Nat × Reading :=
  let others := reading.anchors.filter (·.1 ≠ name)
  (reading.anchors.length, { reading with anchors := (name, reading.anchors.length) :: others })

/-- The properties in front of a node, an anchor and a tag in either order, and what follows them. -/
def properties? (reading : Reading) : Option (Option (List Char) × Option String × Reading) :=
  match reading.next with
  | .anchor name =>
    match reading.skip.next with
    | .tag handle suffix => do
      let tag ← reading.tagOf? handle suffix
      pure (some name, some tag, reading.skip.skip)
    | _ => some (some name, none, reading.skip)
  | .tag handle suffix => do
    let tag ← reading.tagOf? handle suffix
    match reading.skip.next with
    | .anchor name => pure (some name, some tag, reading.skip.skip)
    | _ => pure (none, some tag, reading.skip)
  | _ => some (none, none, reading)

/-- Whether a node is left out behind a dash of an indented sequence. -/
def endsItem : TokenKind → Bool
  | .blockEntry | .blockEnd => true
  | _ => false

/-- Whether a node is left out behind a dash of a sequence that is not indented. -/
def endsLooseItem : TokenKind → Bool
  | .blockEntry | .key | .value | .blockEnd => true
  | _ => false

/-- Whether a key or value of a block is left out. -/
def endsMember : TokenKind → Bool
  | .key | .value | .blockEnd => true
  | _ => false

/-- Whether a key or value is left out before a comma or the end of what is between brackets or braces. -/
def endsFlow (close kind : TokenKind) : Bool :=
  kind = .flowEntry ∨ kind = close

mutual

/-- The node that starts here; in a `block`, blocks may start, and behind a key also a sequence that is not
indented, if it is `loose`. -/
def node? : Nat → (block loose : Bool) → Reading → Option (Node × Reading)
  | 0, _, _, _ => none
  | bound + 1, block, loose, reading =>
    match reading.next with
    | .alias name =>
      (reading.anchors.lookup name).map fun target => (.alias reading.mark target, reading.skip)
    | _ => do
      let mark := reading.mark
      let (name, tag, reading) ← reading.properties?
      let (anchor, inside) := match name with
        | some name => ((reading.addAnchor name).1, (reading.addAnchor name).2)
        | none => (0, reading)
      let properties : Properties := ⟨mark, name.map fun _ => anchor, tag⟩
      match inside.next with
      | .blockEntry =>
        if loose then
          let (items, rest) ← looseItems? bound inside
          pure (.sequence properties items, rest)
        else if name.isSome ∨ tag.isSome then pure (.scalar properties "" true, inside)
        else none
      | .scalar text plain =>
        let tag := tag.filter (· ≠ noTag)
        pure (.scalar { properties with tag } (String.ofList text) plain, inside.skip)
      | .flowSequenceStart =>
        let (items, rest) ← flowItems? bound true inside.skip
        pure (.sequence properties items, rest)
      | .flowMappingStart =>
        let (members, rest) ← flowMembers? bound true inside.skip
        pure (.mapping properties members, rest)
      | kind =>
        if block ∧ kind = .blockSequenceStart then
          let (items, rest) ← blockItems? bound inside.skip
          pure (.sequence properties items, rest)
        else if block ∧ kind = .blockMappingStart then
          let (members, rest) ← blockMembers? bound inside.skip
          pure (.mapping properties members, rest)
        else if name.isSome ∨ tag.isSome then pure (.scalar properties "" true, inside)
        else none

/-- The items of an indented sequence. -/
def blockItems? : Nat → Reading → Option (List Node × Reading)
  | 0, _ => none
  | bound + 1, reading =>
    match reading.next with
    | .blockEntry => do
      let reading := reading.skip
      let (item, reading) ←
        if endsItem reading.next then some (.absent reading.mark, reading)
        else node? bound true false reading
      let (items, reading) ← blockItems? bound reading
      pure (item :: items, reading)
    | .blockEnd => some ([], reading.skip)
    | _ => none

/-- The items of a sequence that is not indented. -/
def looseItems? : Nat → Reading → Option (List Node × Reading)
  | 0, _ => none
  | bound + 1, reading =>
    match reading.next with
    | .blockEntry => do
      let reading := reading.skip
      let (item, reading) ←
        if endsLooseItem reading.next then some (.absent reading.mark, reading)
        else node? bound true false reading
      let (items, reading) ← looseItems? bound reading
      pure (item :: items, reading)
    | _ => some ([], reading)

/-- The members of an indented mapping. -/
def blockMembers? : Nat → Reading → Option (List (Node × Node) × Reading)
  | 0, _ => none
  | bound + 1, reading =>
    match reading.next with
    | .key => do
      let reading := reading.skip
      let (key, reading) ←
        if endsMember reading.next then some (.absent reading.mark, reading)
        else node? bound true true reading
      let (value, reading) ←
        if reading.next = .value ∧ endsMember reading.skip.next = false then
          node? bound true true reading.skip
        else if reading.next = .value then some (.absent reading.mark, reading.skip)
        else some (.absent reading.mark, reading)
      let (members, reading) ← blockMembers? bound reading
      pure ((key, value) :: members, reading)
    | .blockEnd => some ([], reading.skip)
    | _ => none

/-- The value of a member between brackets or braces, which may be left out. -/
def flowValue? : Nat → (close : TokenKind) → Reading → Option (Node × Reading)
  | 0, _, _ => none
  | bound + 1, close, reading =>
    if reading.next = .value ∧ endsFlow close reading.skip.next = false then
      node? bound false false reading.skip
    else if reading.next = .value then some (.absent reading.mark, reading.skip)
    else some (.absent reading.mark, reading)

/-- The items of a sequence between brackets. A key there starts a mapping of one member. -/
def flowItems? : Nat → (first : Bool) → Reading → Option (List Node × Reading)
  | 0, _, _ => none
  | bound + 1, first, reading =>
    if reading.next = .flowSequenceEnd then some ([], reading.skip)
    else if first = false ∧ reading.next ≠ .flowEntry then none
    else
      let reading := if first then reading else reading.skip
      match reading.next with
      | .flowSequenceEnd => some ([], reading.skip)
      | .key => do
        let start := reading.mark
        let reading := reading.skip
        let (key, reading) ←
          if reading.next = .value ∨ endsFlow .flowSequenceEnd reading.next then
            some (.absent reading.mark, reading.skip)
          else node? bound false false reading
        let (value, reading) ← flowValue? bound .flowSequenceEnd reading
        let (items, reading) ← flowItems? bound false reading
        pure (.mapping ⟨start, none, none⟩ [(key, value)] :: items, reading)
      | _ => do
        let (item, reading) ← node? bound false false reading
        let (items, reading) ← flowItems? bound false reading
        pure (item :: items, reading)

/-- The members of a mapping between braces. -/
def flowMembers? : Nat → (first : Bool) → Reading → Option (List (Node × Node) × Reading)
  | 0, _, _ => none
  | bound + 1, first, reading =>
    if reading.next = .flowMappingEnd then some ([], reading.skip)
    else if first = false ∧ reading.next ≠ .flowEntry then none
    else
      let reading := if first then reading else reading.skip
      match reading.next with
      | .flowMappingEnd => some ([], reading.skip)
      | .key => do
        let reading := reading.skip
        let (key, reading) ←
          if reading.next = .value ∨ endsFlow .flowMappingEnd reading.next then
            some (.absent reading.mark, reading)
          else node? bound false false reading
        let (value, reading) ← flowValue? bound .flowMappingEnd reading
        let (members, reading) ← flowMembers? bound false reading
        pure ((key, value) :: members, reading)
      | _ => do
        let (key, reading) ← node? bound false false reading
        let (members, reading) ← flowMembers? bound false reading
        pure ((key, .absent reading.mark) :: members, reading)

end

/-- The tag handles that every document knows. -/
def standardHandles : List (List Char × List Char) :=
  [(['!'], ['!']), (['!', '!'], "tag:yaml.org,2002:".toList)]

/-- The directives in front of a document: at most one version, which has to be 1.1 or 1.2, and handles,
each said once. -/
def directives? : Nat → (versioned : Bool) → (said : List (List Char)) → Reading → Option Reading
  | 0, _, _, _ => none
  | bound + 1, versioned, said, reading =>
    match reading.next with
    | .versionDirective major minor =>
      if versioned ∨ major ≠ 1 ∨ (minor ≠ 1 ∧ minor ≠ 2) then none
      else directives? bound true said reading.skip
    | .tagDirective handle lead =>
      if handle ∈ said then none
      else
        let handles := (handle, lead) :: reading.handles
        directives? bound versioned (handle :: said) { reading.skip with handles }
    | _ => some reading

/-- Whether a document without content ends here. -/
def endsDocument : TokenKind → Bool
  | .versionDirective .. | .tagDirective .. | .documentStart | .documentEnd | .streamEnd => true
  | _ => false

/-- The content of the first document, if there is one, and what follows it. -/
def document? (reading : Reading) : Option (Option Node × Reading) :=
  let bound := 4 * reading.tokens.length + 8
  match reading.next with
  | .streamEnd => some (none, reading)
  | .versionDirective .. | .tagDirective .. | .documentStart => do
    let reading ← directives? bound false [] reading
    guard (reading.next = .documentStart)
    let reading := reading.skip
    if endsDocument reading.next then pure (some (.absent reading.mark), reading)
    else
      let (content, rest) ← node? bound true false reading
      pure (some content, rest)
  | _ => do
    let (content, rest) ← node? bound true false reading
    pure (some content, rest)

end Reading

/-- What a text holds, if it is well-formed: one document, or nothing at all. -/
def Node.ofText? (text : List Char) : Option (Option Node) := do
  let tokens ← Token.ofText? text
  let (content, rest) ← Reading.document? ⟨tokens, [], Reading.standardHandles⟩
  guard ((rest.tokens.dropWhile (·.kind = .documentEnd)).head?.all (·.kind = .streamEnd))
  pure content

end ExerciseAudit.Yaml
