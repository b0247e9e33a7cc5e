import ExerciseAudit.Proofs.Discovery
import ExerciseAudit.Proofs.Path.Relative

/-!
# Roots that lead to one place

A path that is joined to a root goes on from where the root leads. So roots that lead to one place,
however they are spelled, lead on alike (`FileTree.resolve_join_eq`), and the manifests below them
are reached by the same names (`FileTree.Corooted.exists_rows`). What can tell two spellings apart
are the limits of the file system alone: a longer spelling leaves less room for names, and one
through links leaves fewer of them to be followed.
-/

namespace ExerciseAudit

namespace Path

variable {root path : Path}

/-- The steps that a path takes behind another. -/
def onward (path : Path) : List Step :=
  path.parts.map .part ++
    if path.bytes = [] ∨ path.bytes.getLast? = some separator then [.directory] else []

theorem exists_ofPart?_eq_some {part : List UInt8} (inhabited : part ≠ []) :
    ∃ step, Component.ofPart? part = some step := by
  unfold Component.ofPart?
  rw [if_neg inhabited]
  split
  · exact ⟨_, rfl⟩
  · split <;> exact ⟨_, rfl⟩

/-- A relative path takes at least one step, or asks for a directory. -/
theorem onward_ne_nil (relative : path.isAbsolute = false) : path.onward ≠ [] := by
  unfold onward
  cases split : path.bytes with
  | nil => simp
  | cons byte rest =>
    have name : byte ≠ separator := fun same => by simp [isAbsolute, split, same] at relative
    have inhabited : path.parts ≠ [] := by
      obtain ⟨first, others, pieces⟩ : ∃ first others,
          splitSeparator path.bytes = (byte :: first) :: others := by
        rw [split, splitSeparator, if_neg name]
        cases splitSeparator rest <;> exact ⟨_, _, rfl⟩
      obtain ⟨step, stands⟩ := exists_ofPart?_eq_some (List.cons_ne_nil byte first)
      simp [parts, pieces, stands]
    simp [inhabited]

/-- Under a root, a relative path takes the root's steps and then its own. -/
theorem steps_join (relative : path.isAbsolute = false) (inhabited : root.bytes ≠ []) :
    (root.join path).steps = root.parts.map .part ++ path.onward := by
  have closed : (root.join path).bytes.getLast? = some separator ↔
      path.bytes = [] ∨ path.bytes.getLast? = some separator := by
    by_cases vacant : path.bytes = []
    · rw [bytes_join root relative]
      split <;> simp_all
    · rw [getLast?_join root relative vacant, or_iff_right vacant]
  simp only [steps, onward, parts_join root relative, closed, List.map_append, List.append_assoc]

end Path

/-- The names that lead from a root to its base. -/
def baseNames : List Name :=
  ["docs", "exercises"].map (Utf8.encode ·.toList)

theorem valid_baseNames : ∀ name ∈ baseNames, name.Valid := by decide

/-- Names below the base are shown behind the names of the base. -/
theorem slashed_baseNames_append {names : List Name} (inhabited : names ≠ []) :
    Path.slashed ([separator].intercalate (baseNames ++ names)) =
      "docs/exercises/" ++ Path.slashed ([separator].intercalate names) := by
  have bytes : [separator].intercalate (baseNames ++ names) =
      Utf8.encode "docs/exercises/".toList ++ [separator].intercalate names := by
    obtain ⟨name, rest, rfl⟩ := List.exists_cons_of_ne_nil inhabited
    simp only [baseNames, List.map_cons, List.map_nil, List.cons_append, List.nil_append,
      List.intercalate_cons_cons, ← List.append_assoc]
    rfl
  have plain : ∀ c ∈ "docs/exercises/".toList, Utf8.Plain c :=
    Utf8.plain_of_all (by decide)
  rw [bytes, Path.slashed_encode_append plain (by decide), String.ofList_toList]

theorem descend_basePath (root : Path) (names : List Name) :
    (basePath root).descend names = root.descend (baseNames ++ names) := rfl

namespace FileTree

variable {tree : FileTree} {root other path : Path} {location : Location}

/-- A path keeps to the limits of the file system: it is not too long, and it would lead to the same
if more links could be followed. -/
structure WithinLimits (tree : FileTree) (path : Path) : Prop where
  short : path.bytes.length < pathByteLimit
  links : 0 ∉ path.bytes → ∀ more,
    tree.walk true (maxLinks + more) (path.start tree.workingDirectory) path.steps =
      tree.walk true maxLinks (path.start tree.workingDirectory) path.steps

/-- A short path on which not too many links are met keeps to the limits. -/
theorem withinLimits_of_ne (short : path.bytes.length < pathByteLimit)
    (few : tree.resolve path true ≠ .error .tooManyLinks) : tree.WithinLimits path where
  short := short
  links clean more := by
    by_cases vacant : path.bytes = []
    · have none : path.steps = [] := by
        simp [Path.steps, Path.parts, vacant, Path.splitSeparator, Path.Component.ofPart?]
      rw [none, walk.eq_def, walk.eq_def, advance]
    · rw [resolve, if_neg clean, if_neg vacant, if_neg (Nat.not_le.mpr short)] at few
      exact walk_add_links few more

/-- A zero byte under a clean root comes from the relative path. -/
theorem zero_mem_join (relative : path.isAbsolute = false) (clean : 0 ∉ root.bytes) :
    0 ∈ (root.join path).bytes ↔ 0 ∈ path.bytes := by
  have solid : (0 : UInt8) ≠ separator := by decide
  rw [Path.bytes_join root relative]
  split <;> simp [clean, solid]

/-- A path that is joined to a root goes on from where the root leads, with some of the links left;
if it keeps to the limits, more of them would make no difference. -/
theorem exists_resolve_join_eq (led : tree.resolve root true = .ok location)
    (relative : path.isAbsolute = false) (clean : 0 ∉ path.bytes)
    (fits : tree.WithinLimits (root.join path)) :
    ∃ left, ∀ more, tree.resolve (root.join path) true =
      tree.walk true (left + more) location path.onward := by
  obtain ⟨cleanRoot, inhabited, _, walked⟩ := resolve_ok led
  obtain ⟨left, _, onward⟩ := walk_append_of_links walked
  refine ⟨left, fun more => ?_⟩
  have cleanJoin : 0 ∉ (root.join path).bytes := mt (zero_mem_join relative cleanRoot).mp clean
  have inhabitedJoin : (root.join path).bytes ≠ [] := by
    rw [Path.bytes_join root relative]
    split <;> simp [inhabited]
  have start : (root.join path).start tree.workingDirectory =
      root.start tree.workingDirectory := by
    rw [Path.start, Path.isAbsolute_join inhabited relative, Path.start]
  have steps := Path.onward_ne_nil relative
  have links := fits.links cleanJoin more
  rw [resolve, if_neg cleanJoin, if_neg inhabitedJoin, if_neg (Nat.not_le.mpr fits.short)]
  rw [start, Path.steps_join relative inhabited] at links
  rw [start, Path.steps_join relative inhabited, ← links, ← walk_steps_append _ _ root steps]
  exact onward more true path.onward steps

/-- Roots that lead to one place lead on alike. -/
theorem resolve_join_eq (led : tree.resolve root true = .ok location)
    (ledOther : tree.resolve other true = .ok location) (fits : tree.WithinLimits (root.join path))
    (fitsOther : tree.WithinLimits (other.join path)) :
    tree.resolve (root.join path) true = tree.resolve (other.join path) true := by
  by_cases absolute : path.isAbsolute = true
  · rw [Path.join_of_isAbsolute absolute, Path.join_of_isAbsolute absolute]
  rw [Bool.not_eq_true] at absolute
  by_cases clean : 0 ∈ path.bytes
  · have zero := (zero_mem_join absolute (resolve_ok led).1).mpr clean
    have zeroOther := (zero_mem_join absolute (resolve_ok ledOther).1).mpr clean
    rw [resolve, if_pos zero, resolve, if_pos zeroOther]
  · obtain ⟨left, onward⟩ := exists_resolve_join_eq led absolute clean fits
    obtain ⟨leftOther, onwardOther⟩ := exists_resolve_join_eq ledOther absolute clean fitsOther
    -- neither walk runs out of links, so each may have as many more as the other has left
    rw [onward leftOther, onwardOther left, Nat.add_comm]

/-! ## Manifests below a root -/

/-- What is looked at below a base: the base itself, the directories that are entered, and whatever
has a manifest's name. -/
inductive Walked (tree : FileTree) (base : Path) : Path → Prop
  | base : Walked tree base base
  | directory {path : Path} (met : (path, .directory) ∈ tree.entriesFrom base) :
      Walked tree base path
  | candidate {path : Path} {node : Node} (met : (path, node) ∈ tree.entriesFrom base)
      (named : isManifestName path.lastName = true) : Walked tree base path

/-- Two roots lead to one place, and all that is looked at below them keeps to the limits. -/
structure Corooted (tree : FileTree) (root other : Path) : Prop where
  place : ∃ location, tree.resolve root true = .ok location ∧
    tree.resolve other true = .ok location
  fits : ∀ path, tree.Walked (basePath root) path → tree.WithinLimits path
  fitsOther : ∀ path, tree.Walked (basePath other) path → tree.WithinLimits path

/-- A manifest is reached from the base through names that a directory can hold. -/
theorem exists_names_of_mem_manifests {reached : Path}
    (found : reached ∈ tree.manifests (basePath root)) :
    ∃ names, names ≠ [] ∧ (∀ name ∈ names, name.Valid) ∧
      reached = (basePath root).descend names := by
  obtain ⟨node, met, named, _⟩ := mem_manifests_iff.mp found
  rcases mem_entriesFrom_iff.mp met with ⟨rfl, _⟩ | ⟨location, _, _, below⟩
  · simp [isManifestName_lastName_basePath] at named
  · exact exists_names_of_mem_entriesBelow below

namespace Corooted

variable {names : List Name}

theorem symm (same : tree.Corooted root other) : tree.Corooted other root :=
  let ⟨location, led, ledOther⟩ := same.place
  ⟨⟨location, ledOther, led⟩, same.fitsOther, same.fits⟩

/-- Names lead from the bases of such roots to one place. -/
theorem resolve_descend_eq (same : tree.Corooted root other) (valid : ∀ name ∈ names, name.Valid)
    (fits : tree.WithinLimits ((basePath root).descend names))
    (fitsOther : tree.WithinLimits ((basePath other).descend names)) :
    tree.resolve ((basePath root).descend names) true =
      tree.resolve ((basePath other).descend names) true := by
  obtain ⟨location, led, ledOther⟩ := same.place
  have all := List.forall_mem_append.mpr ⟨valid_baseNames, valid⟩
  have inhabited : baseNames ++ names ≠ [] := by simp [baseNames]
  rw [descend_basePath, Path.descend_eq_join inhabited all] at fits fitsOther ⊢
  rw [descend_basePath, Path.descend_eq_join inhabited all]
  exact resolve_join_eq led ledOther fits fitsOther

/-- Rows of directories below a base that are walked have paths that are not too long: each is
looked at because the one before it is entered. -/
theorem length_lt_of_prefix {base : Path} {location : Location} {node : Node}
    (led : tree.resolve base true = .ok location)
    (inside : tree.lookup location = some .directory)
    (fits : ∀ path, tree.Walked base path → tree.WithinLimits path)
    (listed : (location ++ names, node) ∈ tree.entries) {start : List Name}
    (within : start <+: names) (proper : start ≠ names) :
    (base.descend start).bytes.length < pathByteLimit := by
  induction start using List.reverseRecOn with
  | nil => exact (fits _ .base).short
  | append_singleton front name ih =>
    obtain ⟨rest, rfl⟩ := within
    have entered : (base.descend front).bytes.length < pathByteLimit :=
      ih ⟨[name] ++ rest, by simp⟩ (by simp)
    rw [← List.append_assoc] at listed
    have holder := lookup_above listed fun last => proper (by simp [last])
    have stands := (lookup_eq_some_iff (by simp)).mp holder
    have below := mem_entriesBelow_iff.mpr
      ⟨front ++ [name], by simp, rfl, stands, by rwa [List.dropLast_concat]⟩
    have met := mem_entriesFrom_iff.mpr (.inr ⟨location, led, inside, below⟩)
    exact (fits _ (.directory met)).short

/-- The same names lead to a manifest under either spelling of the root. -/
theorem descend_mem_manifests (same : tree.Corooted root other)
    (valid : ∀ name ∈ names, name.Valid)
    (found : (basePath root).descend names ∈ tree.manifests (basePath root)) :
    (basePath other).descend names ∈ tree.manifests (basePath other) := by
  obtain ⟨node, met, named, file⟩ := mem_manifests_iff.mp found
  rcases mem_entriesFrom_iff.mp met with ⟨base, _⟩ | ⟨location, led, inside, below⟩
  · simp [base, isManifestName_lastName_basePath] at named
  obtain ⟨row, inhabited, sameRow, listed, _⟩ := mem_entriesBelow_iff.mp below
  obtain rfl := Path.descend_injective _ valid (valid_below listed) sameRow
  have ledOther : tree.resolve (basePath other) true = .ok location := by
    have bases := same.resolve_descend_eq (List.forall_mem_nil _) (same.fits _ .base)
      (same.fitsOther _ .base)
    exact bases.symm.trans led
  have proper : names.dropLast ≠ names := by
    intro whole
    have shorter := congrArg List.length whole
    rw [List.length_dropLast] at shorter
    have positive := List.length_pos_iff.mpr inhabited
    omega
  have above := length_lt_of_prefix ledOther inside same.fitsOther listed
    (List.dropLast_prefix names) proper
  have metOther : ((basePath other).descend names, node) ∈ tree.entriesFrom (basePath other) :=
    mem_entriesFrom_iff.mpr (.inr ⟨location, ledOther, inside,
      mem_entriesBelow_iff.mpr ⟨names, inhabited, rfl, listed, above⟩⟩)
  have namedOther : isManifestName ((basePath other).descend names).lastName = true := by
    rw [isManifestName_descend_iff inhabited valid] at named ⊢
    exact named
  refine mem_manifests_iff.mpr ⟨node, metOther, namedOther, ?_⟩
  -- only a link is asked for by its path, which has to lead to the same under both spellings
  cases node with
  | link target =>
    have leads := same.resolve_descend_eq valid (same.fits _ (.candidate met named))
      (same.fitsOther _ (.candidate metOther namedOther))
    simp only [isFileEntry, isFile, target?, leads] at file ⊢
    exact file
  | _ => exact file

/-- The manifests below roots that lead to one place are reached by the same names, in the same
order. -/
theorem exists_rows (same : tree.Corooted root other) :
    ∃ rows : List (List Name), (∀ names ∈ rows, ∀ name ∈ names, name.Valid) ∧
      tree.manifests (basePath root) = rows.map (basePath root).descend ∧
      tree.manifests (basePath other) = rows.map (basePath other).descend := by
  have named : ∀ path ∈ tree.manifests (basePath root),
      ∃ names, (∀ name ∈ names, name.Valid) ∧ (basePath root).descend names = path := by
    intro path found
    obtain ⟨names, _, valid, rfl⟩ := exists_names_of_mem_manifests found
    exact ⟨names, valid, rfl⟩
  obtain ⟨rows, valid, here⟩ := exists_rows_of_forall_mem named
  refine ⟨rows, valid, here.symm, ?_⟩
  have ordered := tree.pairwise_manifests (basePath root)
  rw [← here, List.pairwise_map] at ordered
  refine Path.eq_of_pairwise_before (tree.pairwise_manifests _) ?_ fun path => ?_
  · rw [List.pairwise_map]
    exact ordered.imp_of_mem fun left right before =>
      (Path.descend_before_descend_iff _ (valid _ left) (valid _ right)).mpr
        ((Path.descend_before_descend_iff _ (valid _ left) (valid _ right)).mp before)
  · constructor
    · intro found
      obtain ⟨names, _, validNames, rfl⟩ := exists_names_of_mem_manifests found
      have back := same.symm.descend_mem_manifests validNames found
      rw [← here] at back
      obtain ⟨row, listed, equal⟩ := List.mem_map.mp back
      obtain rfl := Path.descend_injective _ (valid row listed) validNames equal
      exact List.mem_map_of_mem listed
    · intro found
      obtain ⟨names, listed, rfl⟩ := List.mem_map.mp found
      exact same.descend_mem_manifests (valid names listed) (here ▸ List.mem_map_of_mem listed)

end Corooted

end FileTree

end ExerciseAudit
