import ExerciseAudit.Proofs.Audit.Isolation
import ExerciseAudit.Proofs.Audit.Root
import ExerciseAudit.Proofs.Text.Utf8

/-!
# How a report names manifests

The printed form of a violation names the manifest to which it belongs by the way from the root, as a
text in which every `\` has become a `/`. Where the names on that way are texts without a `\`, the
text is the way itself: joined to the root it is the path at which the manifest was discovered, so
different manifests have different names (`Audit.manifest_named`). A `\` in a name is lost, and with
it the difference between two manifests (`Audit.manifest_misnamed`).
-/

namespace ExerciseAudit

/-- The byte that a report shows as if it separated names. -/
def backslash : UInt8 := 0x5C

/-! ## Names that are texts -/

/-- Bytes that are those of a text. -/
def Name.Legible (name : Name) : Prop :=
  ∃ text, name = Utf8.encode text

/-- A name is legible if its bytes can be had back from how it is shown. -/
theorem Name.legible_iff {name : Name} : name.Legible ↔ Utf8.encode (Utf8.lossy name) = name :=
  ⟨fun ⟨_, same⟩ => by rw [same, Utf8.lossy_encode], fun same => ⟨_, same.symm⟩⟩

instance (name : Name) : Decidable name.Legible :=
  decidable_of_iff' _ Name.legible_iff

namespace Name.Legible

variable {name other : Name}

theorem append (legible : name.Legible) (legible' : other.Legible) : Legible (name ++ other) := by
  obtain ⟨text, rfl⟩ := legible
  obtain ⟨text', rfl⟩ := legible'
  exact ⟨text ++ text', List.flatMap_append.symm⟩

theorem separator : Legible [separator] :=
  ⟨['/'], by decide⟩

/-- Legible names with separators between them are legible. -/
theorem intercalate {names : List Name} (each : ∀ name ∈ names, name.Legible) :
    Legible ([ExerciseAudit.separator].intercalate names) := by
  induction names with
  | nil => exact ⟨[], rfl⟩
  | cons first rest ih =>
    obtain ⟨here, later⟩ := List.forall_mem_cons.mp each
    cases rest with
    | nil => simpa [List.intercalate] using here
    | cons next rest =>
      rw [List.intercalate_cons_cons]
      exact (here.append .separator).append (ih later)

end Name.Legible

/-- The names that lead from a root to its base are legible. -/
theorem legible_baseNames : ∀ name ∈ baseNames, name.Legible := by
  intro name member
  obtain ⟨text, _, rfl⟩ := List.mem_map.mp member
  exact ⟨_, rfl⟩

/-- Separators bring no backslash between names. -/
theorem backslash_notMem_intercalate {names : List Name}
    (each : ∀ name ∈ names, backslash ∉ name) : backslash ∉ [separator].intercalate names := by
  have solid : backslash ≠ separator := by decide
  induction names with
  | nil => exact List.not_mem_nil
  | cons first rest ih =>
    obtain ⟨here, later⟩ := List.forall_mem_cons.mp each
    cases rest with
    | nil => simpa [List.intercalate] using here
    | cons next rest =>
      rw [List.intercalate_cons_cons]
      simp [here, ih later, solid]

namespace Path

/-- Bytes of a text without a `\` are shown as that text. -/
theorem ofString_slashed {bytes : Name} (legible : bytes.Legible) (straight : backslash ∉ bytes) :
    ofString (slashed bytes) = ⟨bytes⟩ := by
  obtain ⟨text, rfl⟩ := legible
  have plain : '\\' ∉ text := fun inside =>
    straight (List.mem_flatMap.mpr ⟨_, inside, by decide⟩)
  have kept : text.map (fun c => if c = '\\' then '/' else c) = text :=
    (List.map_congr_left fun c member => if_neg (ne_of_mem_of_not_mem member plain)).trans
      (List.map_id' text)
  rw [slashed, Utf8.lossy_encode, kept, ofString, String.toList_ofList]

variable {root : Path} {names : List Name}

/-- The way from nowhere is the path that the names make. -/
theorem relativeTo_nil (valid : ∀ name ∈ names, name.Valid) :
    (ofNames names).relativeTo ⟨[]⟩ = ofNames names := by
  have relative : (ofNames names).isAbsolute = (⟨[]⟩ : Path).isAbsolute := by
    change (ofNames names).isAbsolute = false
    cases names with
    | nil => rfl
    | cons name rest =>
      obtain ⟨here, later⟩ := List.forall_mem_cons.mp valid
      rw [ofNames_cons, isAbsolute_descend here.1 later, isAbsolute_name here]
  have rows : (ofNames names).components = names.map .name := components_descend ⟨[]⟩ valid
  have nowhere : (⟨[]⟩ : Path).components = [] := rfl
  rw [relativeTo, if_pos relative, rows, nowhere, ← List.nil_append (names.map Component.name),
    route?_append]
  exact ofComponents_map_name names

/-- What lies below a root is shown under it by its names, with slashes between them. -/
theorem shownFrom_root (valid : ∀ name ∈ names, name.Valid) :
    (root.descend names).shownFrom root = slashed ([separator].intercalate names) := by
  by_cases vacant : root.bytes = []
  · obtain rfl : root = ⟨[]⟩ := congrArg Path.mk vacant
    rw [shownFrom, ← ofNames, relativeTo_nil valid, bytes_ofNames valid, slashed]
  · exact shownFrom_descend vacant valid

end Path

namespace Audit

open FileTree

variable {tree : FileTree} {root path : Path}

/-- No `\` stands in a path behind the base. -/
def StraightBelow (root path : Path) : Prop :=
  backslash ∉ path.bytes.drop (basePath root).bytes.length

instance (root path : Path) : Decidable (StraightBelow root path) :=
  inferInstanceAs (Decidable (_ ∉ _))

/-- Below the base, a way without a `\` is one through names without a `\`. -/
theorem straightBelow_descend {names : List Name} (valid : ∀ name ∈ names, name.Valid) :
    StraightBelow root ((basePath root).descend names) ↔ ∀ name ∈ names, backslash ∉ name := by
  have last : (basePath root).bytes.getLast? = some 0x73 := by
    rw [basePath, Path.getLast?_join] <;> decide
  have solid : (basePath root).bytes.getLast? ≠ some separator := by rw [last]; decide
  have inhabited : (basePath root).bytes ≠ [] := fun vacant => by simp [vacant] at last
  have apart : backslash ≠ separator := by decide
  simp [StraightBelow, Path.bytes_descend solid inhabited valid, apart]

/-- The names that lead to a manifest are names of entries. -/
theorem exists_legible_of_mem_manifests
    (legible : ∀ entry ∈ tree.entries, ∀ name ∈ entry.1, name.Legible)
    (found : path ∈ tree.manifests (basePath root)) :
    ∃ names, (∀ name ∈ names, name.Valid) ∧ (∀ name ∈ names, name.Legible) ∧
      path = (basePath root).descend names := by
  obtain ⟨node, met, named, _⟩ := mem_manifests_iff.mp found
  rcases mem_entriesFrom_iff.mp met with ⟨rfl, _⟩ | ⟨location, _, _, below⟩
  · simp [isManifestName_lastName_basePath] at named
  · obtain ⟨names, _, rfl, listed, _⟩ := mem_entriesBelow_iff.mp below
    exact ⟨names, valid_below listed,
      fun name member => legible _ listed name (List.mem_append_right _ member), rfl⟩

/-- What a report calls a manifest leads to it from the root. -/
theorem join_shownFrom (legible : ∀ entry ∈ tree.entries, ∀ name ∈ entry.1, name.Legible)
    (found : path ∈ tree.manifests (basePath root)) (straight : StraightBelow root path) :
    root.join (.ofString (path.shownFrom root)) = path := by
  obtain ⟨names, valid, texts, rfl⟩ := exists_legible_of_mem_manifests legible found
  have all := List.forall_mem_append.mpr ⟨valid_baseNames, valid⟩
  have whole := Name.Legible.intercalate (List.forall_mem_append.mpr ⟨legible_baseNames, texts⟩)
  have clean : ∀ name ∈ baseNames ++ names, backslash ∉ name :=
    List.forall_mem_append.mpr ⟨by decide, (straightBelow_descend valid).mp straight⟩
  rw [descend_basePath, Path.shownFrom_root all,
    Path.ofString_slashed whole (backslash_notMem_intercalate clean), ← Path.bytes_ofNames all]
  exact (Path.descend_eq_join (by simp [baseNames]) all).symm

/-- **The name of a manifest identifies it.** Let all names of the tree be texts, and let the root be any
path. Where the way from the base to a violation's manifest has no `\`, the `manifest` member of the
violation's record is a text that, joined to the root, is the path at which the manifest was discovered.
Two such violations have the same member only if they belong to the same manifest. -/
theorem manifest_named (legible : ∀ entry ∈ tree.entries, ∀ name ∈ entry.1, name.Legible) :
    (∀ violation ∈ (run tree root).violations, ∀ path, violation.manifest? = some path →
      StraightBelow root path → ∃ shown,
        (Report.item root violation).at? "manifest" = some (.string shown) ∧
        root.join (.ofString shown) = path) ∧
    ∀ first ∈ (run tree root).violations, ∀ second ∈ (run tree root).violations,
      ∀ path path', first.manifest? = some path → second.manifest? = some path' →
        StraightBelow root path → StraightBelow root path' →
        (Report.item root first).at? "manifest" = (Report.item root second).at? "manifest" →
        path = path' := by
  have back {violation : Violation} {path : Path}
      (member : violation ∈ (run tree root).violations) (belongs : violation.manifest? = some path)
      (straight : StraightBelow root path) : root.join (.ofString (path.shownFrom root)) = path :=
    join_shownFrom legible (mem_manifests_of_mem_violations member belongs) straight
  constructor
  · intro violation member path belongs straight
    exact ⟨_, Report.at?_manifest root belongs, back member belongs straight⟩
  · intro first member second member' path path' belongs belongs' straight straight' same
    rw [Report.at?_manifest root belongs, Report.at?_manifest root belongs', Option.some.injEq,
      Json.Value.string.injEq] at same
    rw [← back member belongs straight, same, back member' belongs' straight']

/-- Two manifests below the base: what is reported of one is shown under a name of its own. -/
theorem manifest_named_crowdedTree :
    (∀ entry ∈ crowdedTree.entries, ∀ name ∈ entry.1, name.Legible) ∧
    ∃ violation ∈ (run crowdedTree (.ofString ".")).violations, ∃ path,
      violation.manifest? = some path ∧ StraightBelow (.ofString ".") path ∧
      (∃ shown, (Report.item (.ofString ".") violation).at? "manifest" = some (.string shown) ∧
        (Path.ofString ".").join (.ofString shown) = path) ∧
      ∀ other ∈ (run crowdedTree (.ofString ".")).violations, ∀ path',
        other.manifest? = some path' → StraightBelow (.ofString ".") path' →
        (Report.item (.ofString ".") violation).at? "manifest" =
          (Report.item (.ofString ".") other).at? "manifest" → path = path' := by
  have legible : ∀ entry ∈ crowdedTree.entries, ∀ name ∈ entry.1, name.Legible := by
    decide +kernel
  have member : .missingReference (.ofString "./docs/exercises/m.manifest.json") "../r" ∈
      (run crowdedTree (.ofString ".")).violations := by decide +kernel
  have straight : StraightBelow (.ofString ".") (.ofString "./docs/exercises/m.manifest.json") := by
    decide +kernel
  obtain ⟨back, apart⟩ := @manifest_named crowdedTree (.ofString ".") legible
  exact ⟨legible, _, member, _, rfl, straight, back _ member _ rfl straight,
    fun other member' path' belongs straight' =>
      apart _ member _ member' _ _ rfl belongs straight straight'⟩

/-- The path `a\b.manifest.json` in the base. -/
def crookedPath : Path :=
  .ofString "./docs/exercises/a\\b.manifest.json"

/-- The path `b.manifest.json` in a directory `a` of the base. -/
def nestedPath : Path :=
  .ofString "./docs/exercises/a/b.manifest.json"

/-- A tree with an empty manifest at each of the two paths. -/
def crookedTree : FileTree :=
  (FileTree.empty.put crookedPath (.file [])).put nestedPath (.file [])

/-- Both manifests are named by the second's way from the root, which does not lead to the first. -/
theorem manifest_misnamed :
    (∀ entry ∈ crookedTree.entries, ∀ name ∈ entry.1, name.Legible) ∧
    ∃ first ∈ (run crookedTree (.ofString ".")).violations,
    ∃ second ∈ (run crookedTree (.ofString ".")).violations,
      first.manifest? = some crookedPath ∧ second.manifest? = some nestedPath ∧
      crookedPath ≠ nestedPath ∧
      (Report.item (.ofString ".") first).at? "manifest" =
        some (.string "docs/exercises/a/b.manifest.json") ∧
      (Report.item (.ofString ".") second).at? "manifest" =
        some (.string "docs/exercises/a/b.manifest.json") ∧
      (Path.ofString ".").join (.ofString "docs/exercises/a/b.manifest.json") ≠ crookedPath := by
  have shown : ∀ path ∈ [crookedPath, nestedPath],
      path.shownFrom (.ofString ".") = "docs/exercises/a/b.manifest.json" := by
    decide +kernel
  have found : (run crookedTree (.ofString ".")).violations =
      [.invalidManifest nestedPath "EOF while parsing a value" 1 0,
        .invalidManifest crookedPath "EOF while parsing a value" 1 0] := by
    decide +kernel
  rw [found]
  refine ⟨by decide +kernel, _, .tail _ (.head _), _, .head _, rfl, rfl, by decide +kernel,
    ?first, ?second, by decide +kernel⟩
  case first => rw [Report.at?_manifest _ rfl, shown _ (by simp)]
  case second => rw [Report.at?_manifest _ rfl, shown _ (by simp)]

end Audit

end ExerciseAudit
