import ExerciseAudit.Proofs.FileTree.Resolution
import ExerciseAudit.Proofs.Path.Order
import ExerciseAudit.Proofs.Text.Ascii
import Mathlib.Data.List.Infix
import Mathlib.Data.List.Nodup
import Mathlib.Data.List.Pairwise

/-!
# What discovery finds

The walk below a base meets every entry that is reached through directories alone, and each at one
path. So the manifests found below a directory are exactly the files, and links to files, of a
manifest's name that stand at the end of a row of directories
(`FileTree.mem_manifests_iff_manifestAt`). They come in the order of their names, and the order in
which directories are listed has no part in it.
-/

namespace ExerciseAudit.FileTree

variable {tree : FileTree} {path base : Path} {location : Location}

/-- The names that lead from a directory to an entry are names that a directory can hold. -/
theorem valid_below {names : List Name} {node : Node}
    (listed : (location ++ names, node) ∈ tree.entries) : ∀ name ∈ names, name.Valid :=
  fun name member => tree.named _ listed name (List.mem_append_right _ member)

/-- A directory lists each name once. -/
theorem pairwise_children (tree : FileTree) (location : Location) :
    (tree.children location).Pairwise fun first second => first.1 ≠ second.1 := by
  refine List.Pairwise.filterMap _ ?_ (List.pairwise_map.mp tree.distinct)
  rintro entry other apart ⟨name, node⟩ isChild ⟨second, node'⟩ isOther rfl
  rw [childOf?_eq_some_iff.mp isChild, childOf?_eq_some_iff.mp isOther] at apart
  exact apart rfl

/-- The walk below a directory meets the entries below it, as far as the paths to the directories
that hold them are not too long. -/
theorem mem_entriesBelow_iff {reached : Path} {node : Node} :
    (reached, node) ∈ tree.entriesBelow path location ↔
      ∃ names, names ≠ [] ∧ reached = path.descend names ∧
        (location ++ names, node) ∈ tree.entries ∧
        (path.descend names.dropLast).bytes.length < pathByteLimit := by
  induction path, location using FileTree.entriesBelow.induct tree with
  | case1 path location long =>
    -- a directory whose path is too long is not listed, and paths only get longer below it
    rw [entriesBelow_eq, if_pos long]
    apply iff_of_false List.not_mem_nil
    intro given
    rcases given with ⟨names, _, _, listed, short⟩
    have valid := fun name member => valid_below listed name (List.mem_of_mem_dropLast member)
    exact absurd (Path.length_le_descend path valid) (by omega)
  | case2 path location short ih =>
    rw [entriesBelow_eq, if_neg short]
    simp only [List.mem_flatMap, List.mem_cons]
    constructor
    · intro given
      rcases given with ⟨⟨name, kind⟩, held, here | below⟩
      · cases here
        exact ⟨[name], List.cons_ne_nil _ _, rfl, mem_children_iff.mp held, not_le.mp short⟩
      · simp only [List.mem_ite_nil_right] at below
        obtain ⟨names, inhabited, rfl, listed, fits⟩ := (ih _ held).mp below.2
        refine ⟨name :: names, List.cons_ne_nil _ _, rfl, ?_, ?_⟩
        · simpa using listed
        · rwa [List.dropLast_cons_of_ne_nil inhabited, Path.descend_cons]
    · intro given
      rcases given with ⟨names, inhabited, rfl, listed, fits⟩
      obtain ⟨name, rest, rfl⟩ := List.exists_cons_of_ne_nil inhabited
      by_cases last : rest = []
      · subst last
        exact ⟨(name, node), mem_children_iff.mpr listed, .inl rfl⟩
      · rw [List.append_cons] at listed
        have above := lookup_above listed last
        have holder := (lookup_eq_some_iff (by simp)).mp above
        refine ⟨(name, .directory), mem_children_iff.mpr holder, .inr ?_⟩
        rw [List.dropLast_cons_of_ne_nil last, Path.descend_cons] at fits
        simpa using (ih _ (mem_children_iff.mpr holder)).mpr ⟨rest, last, rfl, listed, fits⟩

/-- The walk below a directory meets every entry at a path of its own. -/
theorem nodup_entriesBelow (tree : FileTree) (path : Path) (location : Location) :
    ((tree.entriesBelow path location).map Prod.fst).Nodup := by
  induction path, location using FileTree.entriesBelow.induct tree with
  | case1 path location long => simp [entriesBelow_eq, long]
  | case2 path location short ih =>
    -- What is met at or below a child is reached by its name first.
    have block {child : Name × Node} (held : child ∈ tree.children location) {reached : Path}
        (met : reached ∈ ((path.join ⟨child.1⟩, child.2) ::
          if child.2 = .directory then
            tree.entriesBelow (path.join ⟨child.1⟩) (location ++ [child.1])
          else []).map Prod.fst) :
        ∃ names, (∀ name ∈ child.1 :: names, name.Valid) ∧
          reached = path.descend (child.1 :: names) := by
      have listed := mem_children_iff.mp held
      obtain ⟨⟨_, node⟩, here | below, rfl⟩ := by simpa only [List.mem_map, List.mem_cons] using met
      · cases here
        exact ⟨[], valid_below listed, rfl⟩
      · simp only [List.mem_ite_nil_right] at below
        obtain ⟨names, _, rfl, deeper, _⟩ := mem_entriesBelow_iff.mp below.2
        rw [← List.append_cons] at deeper
        exact ⟨names, valid_below deeper, rfl⟩
    rw [entriesBelow_eq, if_neg short, List.map_flatMap, List.nodup_flatMap]
    constructor
    · intro child held
      rw [List.map_cons, List.nodup_cons]
      constructor
      · intro again
        obtain ⟨⟨reached, node⟩, below, same⟩ := List.mem_map.mp again
        simp only [List.mem_ite_nil_right] at below
        obtain ⟨names, inhabited, rfl, deeper, _⟩ := mem_entriesBelow_iff.mp below.2
        rw [← List.append_cons] at deeper
        have valid := List.forall_mem_cons.mp (valid_below deeper)
        exact inhabited (Path.descend_injective (path.join ⟨child.1⟩) valid.2 (by simp) same)
      · split
        · exact ih child held
        · exact List.nodup_nil
    · refine (tree.pairwise_children location).imp_of_mem fun held heldOther apart => ?_
      intro reached met metOther
      obtain ⟨names, valid, rfl⟩ := block held met
      obtain ⟨others, validOthers, same⟩ := block heldOther metOther
      exact apart (List.cons.inj (Path.descend_injective path valid validOthers same)).1

/-- What is met from a base: what stands there, and what lies below if it is a directory. -/
theorem mem_entriesFrom_iff {reached : Path} {node : Node} :
    (reached, node) ∈ tree.entriesFrom base ↔
      (reached = base ∧ tree.nodeAt? base = some node) ∨
        ∃ location, tree.resolve base true = .ok location ∧
          tree.lookup location = some .directory ∧
          (reached, node) ∈ tree.entriesBelow base location := by
  unfold entriesFrom
  rw [List.mem_append]
  apply or_congr (by simp [eq_comm, and_comm])
  cases tree.resolve base true with
  | error fault => simp
  | ok location => simp

/-- What is met below a base is met by descending from it through names. -/
theorem exists_names_of_mem_entriesBelow {reached : Path} {node : Node}
    (met : (reached, node) ∈ tree.entriesBelow base location) :
    ∃ names, names ≠ [] ∧ (∀ name ∈ names, name.Valid) ∧ reached = base.descend names := by
  obtain ⟨names, inhabited, rfl, listed, _⟩ := mem_entriesBelow_iff.mp met
  exact ⟨names, inhabited, valid_below listed, rfl⟩

/-- No path is met twice, whichever way it is spelled. -/
theorem nodup_entriesFrom (tree : FileTree) (base : Path) :
    (((tree.entriesFrom base).map Prod.fst).map Path.components).Nodup := by
  have below (location : Location) :
      (((tree.entriesBelow base location).map Prod.fst).map Path.components).Nodup := by
    apply (tree.nodup_entriesBelow base location).map_on
    simp only [List.mem_map, Prod.exists, exists_and_right, exists_eq_right]
    rintro first ⟨_, met⟩ second ⟨_, metOther⟩ same
    obtain ⟨names, _, valid, rfl⟩ := exists_names_of_mem_entriesBelow met
    obtain ⟨others, _, validOthers, rfl⟩ := exists_names_of_mem_entriesBelow metOther
    rw [Path.components_descend base valid, Path.components_descend base validOthers] at same
    have rows := List.append_cancel_left same
    rw [List.map_injective_iff.mpr (fun _ _ same => Path.Component.name.inj same) rows]
  have apart (location : Location) : base.components ∉
      ((tree.entriesBelow base location).map Prod.fst).map Path.components := by
    simp only [List.mem_map, Prod.exists, exists_and_right, exists_eq_right, not_exists, not_and]
    rintro reached ⟨_, met⟩ same
    obtain ⟨names, inhabited, valid, rfl⟩ := exists_names_of_mem_entriesBelow met
    rw [Path.components_descend base valid] at same
    exact inhabited (by simpa using same)
  unfold entriesFrom
  cases tree.nodeAt? base <;> split <;> try split
  all_goals simp only [Option.toList_none, Option.toList_some, List.map_nil, List.map_cons,
    List.nil_append, List.cons_append, List.nodup_cons, List.nodup_nil, List.not_mem_nil,
    not_false_eq_true, and_self]
  · exact below _
  · exact ⟨apart _, below _⟩

/-- A path is a discovered manifest exactly if the walk meets a file, or a link to a file, of a
manifest's name there. -/
theorem mem_manifests_iff {reached : Path} :
    reached ∈ tree.manifests base ↔
      ∃ node, (reached, node) ∈ tree.entriesFrom base ∧ isManifestName reached.lastName = true ∧
        tree.isFileEntry reached node = true := by
  simp only [manifests, (Path.perm_sort _).mem_iff, List.mem_map, List.mem_filter, Prod.exists,
    and_assoc]
  constructor
  · intro given
    rcases given with ⟨_, node, met, named, file, rfl⟩
    exact ⟨node, met, named, file⟩
  · intro given
    rcases given with ⟨node, met, named, file⟩
    exact ⟨reached, node, met, named, file, rfl⟩

/-- Manifests come in the order of paths, each before all later ones. -/
theorem pairwise_manifests (tree : FileTree) (base : Path) :
    (tree.manifests base).Pairwise fun first second => first.before second = true := by
  refine Path.pairwise_sort ((tree.nodup_entriesFrom base).sublist ?_)
  exact ((List.filter_sublist.trans List.filter_sublist).map _).map _

/-- No manifest is listed twice. -/
theorem nodup_manifests (tree : FileTree) (base : Path) : (tree.manifests base).Nodup := by
  apply (tree.pairwise_manifests base).imp
  rintro first _ before rfl
  exact lt_irrefl _ (Path.before_iff_weights_lt.mp before)

/-! ## Listing order -/

/-- What stands at a location does not depend on the order in which a tree lists its entries. -/
theorem lookup_eq_of_perm {other : FileTree} (same : other.entries.Perm tree.entries)
    (location : Location) : other.lookup location = tree.lookup location := by
  by_cases top : location = []
  · simp [lookup, top]
  · apply Option.ext
    intro node
    rw [lookup_eq_some_iff top, lookup_eq_some_iff top, same.mem_iff]

/-- The order in which directories list their entries has no influence on what is discovered. -/
theorem manifests_eq_of_perm {other : FileTree}
    (home : other.workingDirectory = tree.workingDirectory)
    (same : other.entries.Perm tree.entries) (base : Path) :
    other.manifests base = tree.manifests base := by
  have lookups := lookup_eq_of_perm same
  have outline : SameOutline other tree := ⟨home, fun location => by rw [lookups]⟩
  have entries (reached : Path) (node : Node) :
      (reached, node) ∈ other.entriesFrom base ↔ (reached, node) ∈ tree.entriesFrom base := by
    simp only [mem_entriesFrom_iff, mem_entriesBelow_iff, nodeAt?, outline.resolve_eq, lookups,
      same.mem_iff]
  have files (reached : Path) (node : Node) :
      other.isFileEntry reached node = tree.isFileEntry reached node := by
    cases node <;> simp only [isFileEntry, isFile, target?, outline.resolve_eq, lookups]
  apply Path.eq_of_pairwise_before (other.pairwise_manifests base) (tree.pairwise_manifests base)
  intro reached
  simp only [mem_manifests_iff, entries, files]

/-! ## Discovery below a directory -/

/-- Names lead from a base to a manifest: through directories, none of them a link, to a regular file
or to a link that ends at one, under a name whose bytes end in `.manifest.json`. -/
structure ManifestAt (tree : FileTree) (base : Path) (names : List Name) : Prop where
  inhabited : names ≠ []
  valid : ∀ name ∈ names, name.Valid
  above : ∀ start, start <+: names → start ≠ [] → start ≠ names →
    tree.nodeAt? (base.descend start) = some .directory
  file : (∃ node, tree.nodeAt? (base.descend names) = some node ∧ node.isFile = true) ∨
    (∃ target, tree.nodeAt? (base.descend names) = some (.link target)) ∧
      ∃ node, tree.target? (base.descend names) = some node ∧ node.isFile = true
  named : ∃ name ∈ names.getLast?, Utf8.encode manifestSuffix <:+ name

theorem ManifestAt.exists_nodeAt? {names : List Name} (manifest : tree.ManifestAt base names) :
    ∃ node, tree.nodeAt? (base.descend names) = some node := by
  rcases manifest.file with ⟨node, here, _⟩ | ⟨⟨target, here⟩, _⟩
  · exact ⟨node, here⟩
  · exact ⟨_, here⟩

/-- No path below a base is too long for the file system. -/
def PathsFit (tree : FileTree) (base : Path) : Prop :=
  ∀ location names node, tree.resolve base true = .ok location →
    (location ++ names, node) ∈ tree.entries → (base.descend names).bytes.length < pathByteLimit

/-- A path at which something stands is short enough to be followed. -/
theorem length_lt_of_nodeAt? {node : Node} (here : tree.nodeAt? path = some node) :
    path.bytes.length < pathByteLimit := by
  unfold nodeAt? at here
  cases found : tree.resolve path false with
  | error fault => simp [found] at here
  | ok place => exact (resolve_ok found).2.2.1

/-- What a path leads to stands at a location. -/
theorem exists_resolve_of_target? {node : Node} (leads : tree.target? base = some node) :
    ∃ location, tree.resolve base true = .ok location ∧ tree.lookup location = some node := by
  unfold target? at leads
  cases led : tree.resolve base true with
  | error fault => simp [led] at leads
  | ok location =>
    rw [led] at leads
    exact ⟨location, rfl, leads⟩

/-- An entry does not count as a file if its path leads to a directory. -/
theorem isFileEntry_of_isDirectory {node node' : Node} (leads : tree.target? base = some node')
    (directory : node'.isDirectory = true) (here : tree.nodeAt? base = some node) :
    tree.isFileEntry base node = false := by
  have noFile : node'.isFile = false := by
    cases node' with
    | directory | lockedDirectory => rfl
    | _ => cases directory
  cases node with
  | link target => simp [isFileEntry, isFile, leads, noFile]
  | _ =>
    have same := (target?_of_nodeAt? here (by simp)).symm.trans leads
    cases same
    exact noFile

theorem lookup_of_nodeAt? (reached : tree.resolve base true = .ok location)
    (directory : tree.lookup location = some .directory) {names : List Name}
    (valid : ∀ name ∈ names, name.Valid)
    (short : (base.descend names).bytes.length < pathByteLimit)
    (above : ∀ start, start <+: names → start ≠ [] → start ≠ names →
      tree.nodeAt? (base.descend start) = some .directory) :
    ∀ start, start <+: names → start ≠ names →
      tree.lookup (location ++ start) = some .directory := by
  intro start
  induction size : start.length using Nat.strong_induction_on generalizing start with
  | _ size ih =>
    intro within proper
    by_cases first : start = []
    · simpa [first] using directory
    · obtain ⟨rest, rfl⟩ := within
      obtain ⟨validStart, validRest⟩ := List.forall_mem_append.mp valid
      have fits : (base.descend start).bytes.length < pathByteLimit := by
        rw [Path.descend_append] at short
        exact lt_of_le_of_lt (Path.length_le_descend _ validRest) short
      have earlier : ∀ shorter, shorter <+: start → shorter ≠ start →
          tree.lookup (location ++ shorter) = some .directory := by
        intro shorter inside other
        have less : shorter.length < start.length :=
          lt_of_le_of_ne inside.length_le fun equal => other (inside.eq_of_length equal)
        apply ih shorter.length (size ▸ less) shorter rfl (inside.trans (List.prefix_append _ _))
        rintro rfl
        simp only [List.length_append] at less
        omega
      rw [← nodeAt?_descend reached first validStart fits earlier]
      exact above start (List.prefix_append _ _) first proper

/-- Whether an entry's name is a manifest's is decided by the bytes of its last name, broken or not.
-/
theorem isManifestName_descend_iff {names : List Name} (inhabited : names ≠ [])
    (valid : ∀ name ∈ names, name.Valid) :
    isManifestName (base.descend names).lastName = true ↔
      ∃ name ∈ names.getLast?, Utf8.encode manifestSuffix <:+ name := by
  obtain ⟨front, name, rfl⟩ := (List.eq_nil_or_concat' names).resolve_left inhabited
  have named : name.Valid := valid name (by simp)
  rw [Path.descend_append, Path.descend_cons, Path.descend_nil, Path.lastName_join_name _ named,
    isManifestName_iff]
  simp

/-- The base itself is never named like a manifest. -/
theorem isManifestName_lastName_basePath (root : Path) :
    isManifestName (basePath root).lastName = false := by
  have valid : Name.Valid (Utf8.encode "exercises".toList) := by decide
  have name : (basePath root).lastName = Utf8.encode "exercises".toList :=
    Path.lastName_join_name _ valid
  rw [name]
  decide

/-- An entry counts as a file if it is one, or if it is a link that ends at one. -/
theorem isFileEntry_iff {path : Path} {node : Node} (here : tree.nodeAt? path = some node) :
    tree.isFileEntry path node = true ↔
      (∃ node', tree.nodeAt? path = some node' ∧ node'.isFile = true) ∨
        (∃ target, tree.nodeAt? path = some (.link target)) ∧
          ∃ node', tree.target? path = some node' ∧ node'.isFile = true := by
  rw [here]
  cases node with
  | link target => simp [isFileEntry, isFile, Option.any_eq_true, Node.isFile]
  | _ => simp [isFileEntry]

variable {node : Node} {names : List Name}

/-- Whatever is discovered is a manifest below the base. -/
theorem exists_manifestAt (leads : tree.target? base = some node)
    (directory : node.isDirectory = true) (fits : tree.PathsFit base) {reached : Path}
    (found : reached ∈ tree.manifests base) :
    ∃ names, tree.ManifestAt base names ∧ reached = base.descend names := by
  obtain ⟨kind, met, named, file⟩ := mem_manifests_iff.mp found
  rcases mem_entriesFrom_iff.mp met with ⟨rfl, here⟩ | ⟨location, led, inside, below⟩
  · simp [isFileEntry_of_isDirectory leads directory here] at file
  · obtain ⟨names, inhabited, rfl, listed, _⟩ := mem_entriesBelow_iff.mp below
    have valid := valid_below listed
    have short := fits location names kind led listed
    have lookups : ∀ start, start <+: names → start ≠ names →
        tree.lookup (location ++ start) = some .directory := by
      rintro start ⟨rest, rfl⟩ proper
      rw [← List.append_assoc] at listed
      exact lookup_above listed fun last => proper (by simp [last])
    have here : tree.nodeAt? (base.descend names) = some kind := by
      rw [nodeAt?_descend led inhabited valid short lookups]
      exact (lookup_eq_some_iff (by simp [inhabited])).mpr listed
    have above : ∀ start, start <+: names → start ≠ [] → start ≠ names →
        tree.nodeAt? (base.descend start) = some .directory := by
      rintro start ⟨rest, rfl⟩ first proper
      obtain ⟨validStart, validRest⟩ := List.forall_mem_append.mp valid
      rw [Path.descend_append] at short
      have shortStart := lt_of_le_of_lt (Path.length_le_descend _ validRest) short
      rw [nodeAt?_descend led first validStart shortStart]
      · exact lookups start (List.prefix_append _ _) proper
      · intro shorter within other
        apply lookups shorter (within.trans (List.prefix_append _ _))
        rintro rfl
        exact other (within.eq_of_length_le (List.prefix_append _ _).length_le)
    have last := (isManifestName_descend_iff inhabited valid).mp named
    exact ⟨names, ⟨inhabited, valid, above, (isFileEntry_iff here).mp file, last⟩, rfl⟩

/-- Names lead to no manifest below what cannot be looked into. -/
theorem ManifestAt.lookup_eq (manifest : tree.ManifestAt base names)
    (led : tree.resolve base true = .ok location) : tree.lookup location = some .directory := by
  by_contra closed
  obtain ⟨first, rest, rfl⟩ := List.exists_cons_of_ne_nil manifest.inhabited
  have nothing := nodeAt?_join_closed led closed (List.forall_mem_cons.mp manifest.valid).1
  by_cases last : rest = []
  · subst last
    obtain ⟨node, here⟩ := manifest.exists_nodeAt?
    exact absurd (nothing.symm.trans here) (by simp)
  · have held := manifest.above [first] (by simp) (List.cons_ne_nil _ _)
      (by simpa using Ne.symm last)
    exact absurd (nothing.symm.trans held) (by simp)

/-- Every manifest below the base is discovered. -/
theorem mem_manifests_of_manifestAt (leads : tree.target? base = some node)
    (manifest : tree.ManifestAt base names) :
    base.descend names ∈ tree.manifests base := by
  obtain ⟨kind, here⟩ := manifest.exists_nodeAt?
  have ⟨inhabited, valid, above, file, named⟩ := manifest
  have isFile := (isFileEntry_iff here).mpr file
  have short := length_lt_of_nodeAt? here
  obtain ⟨location, led, _⟩ := exists_resolve_of_target? leads
  have inside := manifest.lookup_eq led
  have lookups := lookup_of_nodeAt? led inside valid short above
  rw [nodeAt?_descend led inhabited valid short lookups] at here
  have listed := (lookup_eq_some_iff (by simp [inhabited])).mp here
  have shorter : (base.descend names.dropLast).bytes.length < pathByteLimit := by
    obtain ⟨front, name, rfl⟩ := (List.eq_nil_or_concat' names).resolve_left inhabited
    rw [Path.descend_append] at short
    rw [List.dropLast_concat]
    exact lt_of_le_of_lt (Path.length_le_descend _ (List.forall_mem_append.mp valid).2) short
  have below := mem_entriesBelow_iff.mpr ⟨names, inhabited, rfl, listed, shorter⟩
  have met := mem_entriesFrom_iff.mpr (.inr ⟨location, led, inside, below⟩)
  exact mem_manifests_iff.mpr
    ⟨kind, met, (isManifestName_descend_iff inhabited valid).mpr named, isFile⟩

/-- The manifests below a directory are the files, and the links to files, of a manifest's name to
which directories lead. -/
theorem mem_manifests_iff_manifestAt (leads : tree.target? base = some node)
    (directory : node.isDirectory = true) (fits : tree.PathsFit base) {reached : Path} :
    reached ∈ tree.manifests base ↔
      ∃ names, tree.ManifestAt base names ∧ reached = base.descend names := by
  constructor
  · exact exists_manifestAt leads directory fits
  · intro given
    obtain ⟨names, manifest, rfl⟩ := given
    exact mem_manifests_of_manifestAt leads manifest

/-- If each of some paths is reached through names, the rows of names can be listed along with them.
-/
theorem exists_rows_of_forall_mem {paths : List Path}
    (named : ∀ path ∈ paths,
      ∃ names, (∀ name ∈ names, Name.Valid name) ∧ base.descend names = path) :
    ∃ rows : List (List Name), (∀ names ∈ rows, ∀ name ∈ names, Name.Valid name) ∧
      rows.map base.descend = paths := by
  induction paths with
  | nil => exact ⟨[], by simp, rfl⟩
  | cons path rest ih =>
    obtain ⟨⟨names, valid, rfl⟩, later⟩ := List.forall_mem_cons.mp named
    obtain ⟨rows, validRest, rfl⟩ := ih later
    exact ⟨names :: rows, List.forall_mem_cons.mpr ⟨valid, validRest⟩, rfl⟩

/-- **Discovery is exact.** Below a base that leads to a directory, exactly the paths are found at
which names lead to a manifest. The names come in strictly increasing order, name by name and byte
by byte, so no path is found twice, and the order in which directories list what they hold makes no
difference. -/
theorem manifests_exact (leads : tree.target? base = some node)
    (directory : node.isDirectory = true) (fits : tree.PathsFit base) :
    (∀ path, path ∈ tree.manifests base ↔
      ∃ names, tree.ManifestAt base names ∧ path = base.descend names) ∧
    (∃ rows : List (List Name), tree.manifests base = rows.map base.descend ∧
      rows.Pairwise (· < ·)) ∧
    (tree.manifests base).Nodup ∧
    ∀ other : FileTree, other.workingDirectory = tree.workingDirectory →
      other.entries.Perm tree.entries → other.manifests base = tree.manifests base := by
  have found (path : Path) : path ∈ tree.manifests base ↔
      ∃ names, tree.ManifestAt base names ∧ path = base.descend names :=
    mem_manifests_iff_manifestAt leads directory fits
  refine ⟨found, ?_, tree.nodup_manifests base,
    fun other home same => manifests_eq_of_perm home same base⟩
  have named : ∀ path ∈ tree.manifests base,
      ∃ names, (∀ name ∈ names, name.Valid) ∧ base.descend names = path := by
    intro path member
    obtain ⟨names, manifest, rfl⟩ := (found path).mp member
    exact ⟨names, manifest.valid, rfl⟩
  obtain ⟨rows, valid, same⟩ := exists_rows_of_forall_mem named
  refine ⟨rows, same.symm, ?_⟩
  have ordered := tree.pairwise_manifests base
  rw [← same, List.pairwise_map] at ordered
  exact ordered.imp_of_mem fun left right before =>
    (Path.descend_before_descend_iff base (valid _ left) (valid _ right)).mp before

/-- A directory `/d` that holds a manifest in `/d/s` beside a link back to `/d`, and a link to a
manifest beside it at the top, by the whole path. The work is done in `/w`, where `b` is a link to
`../d`. -/
def linkedTree : FileTree where
  entries := [
    ([[0x77]], .directory),
    ([[0x77], [0x62]], .link (.ofString "../d")),
    ([[0x64]], .directory),
    ([[0x64], [0x73]], .directory),
    ([[0x64], [0x73], [0x75]], .link (.ofString "..")),
    ([[0x64], [0x73], Utf8.encode manifestSuffix], .file []),
    ([[0x64], Utf8.encode manifestSuffix], .link (.ofString "/m")),
    ([[0x6D]], .lockedFile)]
  workingDirectory := [[0x77]]
  distinct := by decide +kernel
  below := by decide +kernel
  named := by decide +kernel
  held := by decide +kernel
  settled := by decide +kernel

/-- What stands at or below a base at `/d` has a short path. -/
theorem pathsFit_linkedTree {spelling : String}
    (led : linkedTree.resolve (.ofString spelling) true = .ok [[0x64]])
    (short : ∀ entry ∈ linkedTree.entries,
      ((Path.ofString spelling).descend (entry.1.drop 1)).bytes.length < pathByteLimit) :
    linkedTree.PathsFit (.ofString spelling) := by
  intro location names node reached listed
  rw [led] at reached
  cases reached
  exact short _ listed

/-- A base below the working directory that is a link, and one that is given by its whole path. -/
theorem manifests_exact_linkedTree :
    linkedTree.target? (.ofString "b") = some .directory ∧ linkedTree.PathsFit (.ofString "b") ∧
      (Path.ofString "b").descend [[0x73], Utf8.encode manifestSuffix] ∈
        linkedTree.manifests (.ofString "b") ∧
      (linkedTree.manifests (.ofString "b")).Nodup ∧
      (Path.ofString "/d").descend [Utf8.encode manifestSuffix] ∈
        linkedTree.manifests (.ofString "/d") := by
  have directory : linkedTree.target? (.ofString "b") = some .directory := by decide +kernel
  have fits : linkedTree.PathsFit (.ofString "b") :=
    pathsFit_linkedTree (by decide +kernel) (by decide +kernel)
  have whole : linkedTree.target? (.ofString "/d") = some .directory := by decide +kernel
  have fitsWhole : linkedTree.PathsFit (.ofString "/d") :=
    pathsFit_linkedTree (by decide +kernel) (by decide +kernel)
  obtain ⟨found, _, nodup, _⟩ := manifests_exact directory rfl fits
  obtain ⟨foundWhole, _⟩ := manifests_exact whole rfl fitsWhole
  refine ⟨directory, fits, (found _).mpr ⟨_, ?nested, rfl⟩, nodup,
    (foundWhole _).mpr ⟨_, ?linked, rfl⟩⟩
  case nested => exact {
    inhabited := by simp
    valid := by decide +kernel
    above := by
      intro start within first proper
      rcases List.prefix_cons_iff.mp within with rfl | ⟨rest, rfl, inside⟩
      · exact absurd rfl first
      · rcases List.prefix_cons_iff.mp inside with rfl | ⟨more, rfl, deepest⟩
        · decide +kernel
        · rw [List.prefix_nil.mp deepest] at proper
          exact absurd rfl proper
    file := .inl ⟨.file [], by decide +kernel, rfl⟩
    named := ⟨_, rfl, List.suffix_rfl⟩ }
  case linked => exact {
    inhabited := by simp
    valid := by decide +kernel
    above := by
      intro start within first proper
      rcases List.prefix_cons_iff.mp within with rfl | ⟨rest, rfl, inside⟩
      · exact absurd rfl first
      · rw [List.prefix_nil.mp inside] at proper
        exact absurd rfl proper
    file := .inr ⟨⟨.ofString "/m", by decide +kernel⟩, .lockedFile, by decide +kernel, rfl⟩
    named := ⟨_, rfl, List.suffix_rfl⟩ }

end ExerciseAudit.FileTree
