import ExerciseAudit.Proofs.Discovery

/-!
# Trees that differ in what files contain

Two trees of the same outline lead every path to the same place and have the same manifests
(`FileTree.SameOutline.manifests_eq`). If they differ only in what some files contain, then also
every text is the same that is read from elsewhere (`FileTree.SameBut.readText_eq`). Putting a file
in the place of another changes a tree in that way alone (`FileTree.sameBut_insert`).
-/

namespace ExerciseAudit.FileTree

variable {tree other : FileTree} {path base : Path} {location : Location}

/-! ## The same outline -/

namespace SameOutline

/-- What is there does not depend on texts. -/
theorem has_eq (same : SameOutline tree other) (path : Path) : tree.has path = other.has path := by
  unfold FileTree.has
  rw [same.resolve_eq]

theorem isFile_eq (same : SameOutline tree other) (path : Path) :
    tree.isFile path = other.isFile path := by
  unfold isFile target?
  rw [same.resolve_eq]
  cases other.resolve path true with
  | error fault => rfl
  | ok location =>
    rcases same.lookup_cases location with alike | ⟨_, _, here, there⟩
    · simp only [alike]
    · simp only [here, there, Option.any_some, Node.isFile]

theorem isFileEntry_eq (same : SameOutline tree other) (path : Path) {node node' : Node}
    (alike : node.outline = node'.outline) :
    tree.isFileEntry path node = other.isFileEntry path node' := by
  cases node <;> cases node' <;>
    simp_all [Node.outline, Node.isFile, isFileEntry, same.isFile_eq]

/-- Where something stands in one tree, something of the same kind stands in the other. -/
theorem exists_lookup (same : SameOutline tree other) {node : Node}
    (here : tree.lookup location = some node) :
    ∃ node', other.lookup location = some node' ∧ node.outline = node'.outline := by
  have outlines := same.nodes location
  rw [here] at outlines
  obtain ⟨node', there, alike⟩ := Option.map_eq_some_iff.mp outlines.symm
  exact ⟨node', there, alike.symm⟩

/-- What is met from a base in one tree is met in the other, of the same kind. -/
theorem exists_mem_entriesFrom (same : SameOutline tree other) {reached : Path} {node : Node}
    (met : (reached, node) ∈ tree.entriesFrom base) :
    ∃ node', (reached, node') ∈ other.entriesFrom base ∧ node.outline = node'.outline := by
  rcases mem_entriesFrom_iff.mp met with ⟨rfl, here⟩ | ⟨location, led, inside, below⟩
  · unfold nodeAt? at here
    rw [same.resolve_eq] at here
    cases led : other.resolve reached false with
    | error fault => simp [led] at here
    | ok location =>
      simp only [led] at here
      obtain ⟨node', there, alike⟩ := same.exists_lookup here
      exact ⟨node', mem_entriesFrom_iff.mpr (.inl ⟨rfl, by simp [nodeAt?, led, there]⟩), alike⟩
  · obtain ⟨names, inhabited, rfl, listed, fits⟩ := mem_entriesBelow_iff.mp below
    have deeper : location ++ names ≠ [] := by simp [inhabited]
    obtain ⟨node', there, alike⟩ := same.exists_lookup ((lookup_eq_some_iff deeper).mpr listed)
    have directory := (same.directory_iff location).mp inside
    have belowOther := mem_entriesBelow_iff.mpr
      ⟨names, inhabited, rfl, (lookup_eq_some_iff deeper).mp there, fits⟩
    rw [same.resolve_eq] at led
    exact ⟨node', mem_entriesFrom_iff.mpr (.inr ⟨location, led, directory, belowOther⟩), alike⟩

/-- What is discovered in one tree is discovered in the other. -/
theorem mem_manifests (same : SameOutline tree other) {reached : Path}
    (found : reached ∈ tree.manifests base) : reached ∈ other.manifests base := by
  obtain ⟨node, met, named, file⟩ := mem_manifests_iff.mp found
  obtain ⟨node', metOther, alike⟩ := same.exists_mem_entriesFrom met
  exact mem_manifests_iff.mpr
    ⟨node', metOther, named, (same.isFileEntry_eq reached alike).symm.trans file⟩

/-- What files contain has no influence on what is discovered. -/
theorem manifests_eq (same : SameOutline tree other) (base : Path) :
    tree.manifests base = other.manifests base :=
  Path.eq_of_pairwise_before (tree.pairwise_manifests base) (other.pairwise_manifests base)
    fun _ => ⟨same.mem_manifests, same.symm.mem_manifests⟩

end SameOutline

/-! ## The same but for some files -/

/-- Two trees differ at most in what files at some locations contain. -/
structure SameBut (places : Location → Prop) (tree other : FileTree) : Prop where
  outline : SameOutline tree other
  elsewhere : ∀ location, ¬ places location → tree.lookup location = other.lookup location

namespace SameBut

variable {places : Location → Prop}

/-- A path that does not lead to one of the files in which two trees differ reads as the same text
in both, or fails to be read in the same way. -/
theorem readText_eq (same : SameBut places tree other)
    (apart : ∀ location, tree.resolve path true = .ok location → ¬ places location) :
    tree.readText path = other.readText path := by
  unfold readText
  rw [← same.outline.resolve_eq]
  cases led : tree.resolve path true with
  | error fault => rfl
  | ok location => simp only [same.elsewhere location (apart location led)]

theorem mono {wider : Location → Prop} (same : SameBut places tree other)
    (within : ∀ location, places location → wider location) : SameBut wider tree other :=
  ⟨same.outline, fun location apart => same.elsewhere location (apart ∘ within location)⟩

end SameBut

/-- What is above something is a directory that can be looked into. -/
theorem lookup_dropLast {node : Node} (here : tree.lookup location = some node) :
    tree.lookup location.dropLast = some .directory := by
  by_cases inside : location = []
  · simp [inside, lookup]
  · rcases tree.held _ ((lookup_eq_some_iff inside).mp here) with top | above
    · simp [lookup, top]
    · exact (lookup_eq_some_iff (tree.below _ above)).mpr above

/-- The working directory is a directory that can be looked into. -/
theorem lookup_workingDirectory (tree : FileTree) :
    tree.lookup tree.workingDirectory = some .directory := by
  rcases tree.settled with top | listed
  · simp [lookup, top]
  · exact (lookup_eq_some_iff (tree.below _ listed)).mpr listed

/-- A path met in a directory sets out from a directory. -/
theorem lookup_start (path : Path) (directory : tree.lookup location = some .directory) :
    tree.lookup (path.start location) = some .directory := by
  unfold Path.start
  split
  · simp [lookup]
  · exact directory

/-- Putting an entry where it is accepted changes what stands there, and nothing else. -/
theorem lookup_insert {node : Node} (accepted : tree.Accepts location node) (place : Location) :
    (tree.insert location node).lookup place =
      if place = location then some node else tree.lookup place := by
  unfold insert
  rw [dif_pos accepted]
  by_cases top : place = []
  · simp [lookup, top, accepted.1.symm]
  · apply Option.ext
    intro found
    rw [lookup_eq_some_iff top]
    by_cases same : place = location
    · simp [same, eq_comm]
    · simp [same, lookup_eq_some_iff top]

/-- A file can always take the place of a file. -/
theorem lookup_insert_file {old content : List UInt8}
    (here : tree.lookup location = some (.file old)) (place : Location) :
    (tree.insert location (.file content)).lookup place =
      if place = location then some (.file content) else tree.lookup place := by
  have inside : location ≠ [] := by
    rintro rfl
    simp [lookup] at here
  have listed := (lookup_eq_some_iff inside).mp here
  exact lookup_insert
    ⟨inside, tree.named _ listed, lookup_dropLast here, .inr (by simp [here])⟩ place

/-- Putting an entry somewhere leaves the working directory where it is. -/
theorem workingDirectory_insert (tree : FileTree) (location : Location) (node : Node) :
    (tree.insert location node).workingDirectory = tree.workingDirectory := by
  unfold insert
  split <;> rfl

/-- A tree with a file in the place of another differs from it in what that file contains. -/
theorem sameBut_insert {old content : List UInt8}
    (here : tree.lookup location = some (.file old)) :
    SameBut (· = location) tree (tree.insert location (.file content)) where
  outline := {
    home := (tree.workingDirectory_insert location _).symm
    nodes := by
      intro place
      rw [lookup_insert_file here]
      split
      case isTrue same => simp [same, here, Node.outline]
      case isFalse => rfl }
  elsewhere place apart := by rw [lookup_insert_file here, if_neg apart]

end ExerciseAudit.FileTree
