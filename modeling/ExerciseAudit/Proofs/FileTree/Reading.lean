import ExerciseAudit.Proofs.Discovery

/-!
# Reading what is discovered

A discovered manifest is a file in a directory that the walk has entered, or a link that ends at a
file. Its path leads to that file, unless the path is too long for the file system, in which case it
cannot be read in any tree. So what is read at the path of a manifest is settled by the file as
which the manifest is discovered (`FileTree.readText_eq_of_discovered`).
-/

namespace ExerciseAudit

/-- What is read of a file is the text that its content spells. -/
theorem Node.read_file_eq_ok_iff {content : List UInt8} {text : String} :
    (Node.file content).read = .ok text ↔ Utf8.decode? content = some text.toList := by
  cases spelled : Utf8.decode? content with
  | none => simp [Node.read, spelled]
  | some characters =>
    simp only [Node.read, spelled, Except.ok.injEq, Option.some.injEq]
    constructor
    · rintro rfl
      exact String.toList_ofList.symm
    · rintro rfl
      exact String.ofList_toList

namespace FileTree

variable {tree other : FileTree} {path base : Path} {location : Location} {node : Node}
  {content : List UInt8}

/-- The path at which the walk meets an entry leads to it, below the base, if it is no link. -/
theorem resolve_of_mem_entriesBelow (led : tree.resolve base true = .ok location)
    {reached : Path} (met : (reached, node) ∈ tree.entriesBelow base location)
    (noLink : ∀ target, node ≠ .link target) (short : reached.bytes.length < pathByteLimit) :
    ∃ names, names ≠ [] ∧ tree.resolve reached true = .ok (location ++ names) := by
  obtain ⟨names, inhabited, rfl, listed, _⟩ := mem_entriesBelow_iff.mp met
  have here : tree.lookup (location ++ names) = some node :=
    (lookup_eq_some_iff (by simp [inhabited])).mpr listed
  refine ⟨names, inhabited, ?_⟩
  obtain ⟨front, name, rfl⟩ := (List.eq_nil_or_concat' names).resolve_left inhabited
  obtain ⟨validFront, validName⟩ := List.forall_mem_append.mp (valid_below listed)
  have named : name.Valid := validName name (List.mem_singleton_self name)
  have above : ∀ start, start <+: front → tree.lookup (location ++ start) = some .directory := by
    rintro start ⟨rest, rfl⟩
    rw [List.append_assoc, ← List.append_assoc] at listed
    exact lookup_above listed (by simp)
  rw [Path.descend_append, Path.descend_cons, Path.descend_nil] at short ⊢
  have frontReached := resolve_descend led validFront
    (Nat.lt_trans (Path.length_lt_join_name _ named) short) above
  rw [← List.append_assoc] at here ⊢
  exact resolve_join_entry frontReached (above front (List.prefix_refl _)) named short here noLink

/-- What stands at the path at which the walk meets an entry is that entry. -/
theorem nodeAt?_of_mem_entriesFrom {reached : Path} {node : Node}
    (met : (reached, node) ∈ tree.entriesFrom base) (short : reached.bytes.length < pathByteLimit) :
    tree.nodeAt? reached = some node := by
  rcases mem_entriesFrom_iff.mp met with ⟨rfl, here⟩ | ⟨location, led, _, below⟩
  · exact here
  · obtain ⟨names, inhabited, rfl, listed, _⟩ := mem_entriesBelow_iff.mp below
    rw [nodeAt?_descend led inhabited (valid_below listed) short]
    · exact (lookup_eq_some_iff (by simp [inhabited])).mpr listed
    · rintro start ⟨rest, rfl⟩ proper
      rw [← List.append_assoc] at listed
      exact lookup_above listed fun last => proper (by simp [last])

/-- A manifest is discovered at a path as some file, which may be locked: the file stands there, or a
link that ends at it. -/
inductive Discovered (tree : FileTree) (base path : Path) (file : Node) : Prop
  | file (found : path ∈ tree.manifests base) (met : (path, file) ∈ tree.entriesFrom base)
      (isFile : file.isFile = true)
  | link {target : Path} (found : path ∈ tree.manifests base)
      (met : (path, .link target) ∈ tree.entriesFrom base)
      (ends : tree.target? path = some file) (isFile : file.isFile = true)

theorem Discovered.found (discovered : tree.Discovered base path node) :
    path ∈ tree.manifests base := by
  cases discovered with
  | file found _ _ => exact found
  | link found _ _ _ => exact found

/-- A discovered path leads to the file that was met there, unless it is too long. -/
theorem target?_of_discovered (discovered : tree.Discovered base path node)
    (short : path.bytes.length < pathByteLimit) : tree.target? path = some node := by
  cases discovered with
  | link _ _ ends _ => exact ends
  | file _ met isFile =>
    refine target?_of_nodeAt? (nodeAt?_of_mem_entriesFrom met short) fun target same => ?_
    simp [same, Node.isFile] at isFile

theorem target?_of_resolve (leads : tree.resolve path true = .ok location)
    (here : tree.lookup location = some node) : tree.target? path = some node := by
  rw [target?, leads]
  exact here

/-- Reading a path is reading what it leads to. -/
theorem readText_of_target? (here : tree.target? path = some node) :
    tree.readText path = node.read := by
  unfold target? at here
  unfold readText
  cases led : tree.resolve path true with
  | error fault => simp [led] at here
  | ok location =>
    simp only [led] at here
    simp only [here]

/-- A file that can be read and holds text is read as that text. -/
theorem readText_of_resolve {text : String} (leads : tree.resolve path true = .ok location)
    (file : tree.lookup location = some (.file content))
    (spelled : Utf8.decode? content = some text.toList) : tree.readText path = .ok text := by
  rw [readText_of_target? (target?_of_resolve leads file), Node.read_file_eq_ok_iff.mpr spelled]

/-- A path that is too long leads nowhere, for reasons that have to do with the path alone. -/
theorem resolve_eq_of_long (long : pathByteLimit ≤ path.bytes.length) (followLast : Bool) :
    tree.resolve path followLast = other.resolve path followLast := by
  simp only [resolve, long, ↓reduceIte]

/-- A path that is too long leads nowhere. -/
theorem exists_resolve_eq_error_of_long (long : pathByteLimit ≤ path.bytes.length)
    (followLast : Bool) : ∃ fault, tree.resolve path followLast = .error fault := by
  cases reached : tree.resolve path followLast with
  | error fault => exact ⟨fault, rfl⟩
  | ok place => exact absurd (resolve_ok reached).2.2.1 (Nat.not_lt.mpr long)

/-- A manifest that is discovered as the same file in two trees reads alike in both. -/
theorem readText_eq_of_discovered (discovered : tree.Discovered base path node)
    (otherDiscovered : other.Discovered base path node) :
    tree.readText path = other.readText path := by
  by_cases short : path.bytes.length < pathByteLimit
  · rw [readText_of_target? (target?_of_discovered discovered short),
      readText_of_target? (target?_of_discovered otherDiscovered short)]
  · rw [Nat.not_lt] at short
    obtain ⟨fault, nowhere⟩ := tree.exists_resolve_eq_error_of_long short true
    have nowhereElse : other.resolve path true = .error fault :=
      (resolve_eq_of_long short true).trans nowhere
    simp only [readText, nowhere, nowhereElse]

end FileTree

end ExerciseAudit
