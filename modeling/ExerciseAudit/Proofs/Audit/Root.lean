import ExerciseAudit.Proofs.Audit.Isolation
import ExerciseAudit.Proofs.Audit.Related
import ExerciseAudit.Proofs.FileTree.Root
import ExerciseAudit.Proofs.Run.Modes

/-!
# The spelling of the root

A report names manifests by the way from the root, so it does not show how the root was spelled, but
for the messages and for a root below which there is no base. Everything that is looked at is found
from where the root leads, so two spellings of one directory give the same report
(`Audit.root_spelling_irrelevant`), as long as what is looked at keeps to the limits of the file
system under both of them.
-/

namespace ExerciseAudit

namespace Json.Value

/-- A record without its members of some names. -/
def without (names : List String) : Value → Value
  | .object members => .object (members.filter fun member => member.1 ∉ names)
  | value => value

/-- A record with each item changed in the rows that it holds under a name. -/
def mapItems (name : String) (change : Value → Value) : Value → Value
  | .object members => .object (members.map fun
    | (key, .array items) => (key, .array (if key = name then items.map change else items))
    | member => member)
  | value => value

end Json.Value

namespace Report

/-- The record of a violation without what spells the root: its message and, where there is no base,
the root itself. -/
def unrootedItem (root : Path) (violation : Violation) : Json.Value :=
  (item root violation).without ["message", "root"]

/-- A printed document without what spells the root in its violations. -/
def unrooted (document : Json.Value) : Json.Value :=
  document.mapItems "violations" (·.without ["message", "root"])

/-- What spells the root is in the message, and else in the record of a missing base alone. -/
theorem unrootedItem_eq (root : Path) (violation : Violation) :
    unrootedItem root violation =
      .object ((violation.members (·.shownFrom root)).filter (·.1 ∉ ["message", "root"])) := by
  have dropped : [("message", Json.Value.string violation.message)].filter
      (·.1 ∉ ["message", "root"]) = [] := rfl
  rw [unrootedItem, item, Json.Value.without, List.filter_append, dropped, List.append_nil]

/-- What is left of a report's document without its root: whether it is fine, the items without
their roots, and the summary. -/
theorem unrooted_document (report : Report) (root : Path) :
    unrooted (report.document root) = .object [
      ("ok", .bool report.isOk),
      ("violations", .array (report.violations.map (unrootedItem root))),
      ("summary", report.summary.toJson)] := by
  have items : report.violations.map (unrootedItem root) =
      (report.violations.map (item root)).map (·.without ["message", "root"]) := by
    rw [List.map_map]
    rfl
  rw [items]
  rfl

/-- The record of a violation names its manifest by the way from the root. -/
theorem at?_manifest (root : Path) {violation : Violation} {path : Path}
    (belongs : violation.manifest? = some path) :
    (item root violation).at? "manifest" = some (.string (path.shownFrom root)) := by
  cases violation <;> cases belongs <;>
    simp [item, Violation.members, Json.Value.at?, membersOf]

end Report

namespace Audit

open FileTree
open Findings (Related)

variable {tree : FileTree} {root other path path' : Path}

/-- What a run looks at: what there is to look at below the base, and whatever the manifests declare
that are discovered there. -/
inductive Probed (tree : FileTree) (root : Path) : Path → Prop
  | walked {path : Path} (here : tree.Walked (basePath root) path) : Probed tree root path
  | declared {path : Path} {decoded : Manifest} {name : String}
    (found : path ∈ tree.manifests (basePath root)) (loaded : load tree path = .ok decoded)
    (named : decoded.Names name) : Probed tree root (root.join (.ofString name))

/-- Paths among which is all that a run looks at. -/
def probes (tree : FileTree) (root : Path) : List Path :=
  basePath root :: (tree.entriesFrom (basePath root)).map Prod.fst ++
    (tree.manifests (basePath root)).flatMap fun path =>
      match load tree path with
      | .error _ => []
      | .ok decoded => decoded.paths.map fun name => root.join (.ofString name)

/-- What a run asks for under the root is among the paths it is compared on. -/
theorem Probed.mem_probes (probed : Probed tree root path) : path ∈ probes tree root := by
  cases probed with
  | walked here =>
    refine List.mem_append_left _ ?_
    cases here with
    | base => exact List.mem_cons_self
    | directory met => exact List.mem_cons_of_mem _ (List.mem_map_of_mem met)
    | candidate met _ => exact List.mem_cons_of_mem _ (List.mem_map_of_mem met)
  | declared found loaded named =>
    refine List.mem_append_right _ (List.mem_flatMap.mpr ⟨_, found, ?_⟩)
    rw [loaded]
    exact List.mem_map_of_mem (Manifest.names_iff.mp named)

/-- What a run looks at keeps to the limits if all of these paths are short and meet few links. -/
theorem withinLimits_of_probes
    (short : ∀ path ∈ probes tree root, path.bytes.length < pathByteLimit)
    (few : ∀ path ∈ probes tree root, tree.resolve path true ≠ .error .tooManyLinks)
    (probed : Probed tree root path) : tree.WithinLimits path :=
  withinLimits_of_ne (short path probed.mem_probes) (few path probed.mem_probes)

/-- Rows of violations below two roots are the same but for what spells the root. -/
def Unrooted (root other : Path) (violations violations' : List Violation) : Prop :=
  violations.map (Report.unrootedItem root) = violations'.map (Report.unrootedItem other)

theorem composes_unrooted : Findings.Composes (Unrooted root other) where
  nil := rfl
  append left right := by
    unfold Unrooted at left right ⊢
    rw [List.map_append, List.map_append, left, right]

/-! ## One manifest -/

theorem has_eq_of_resolve_eq (leads : tree.resolve path true = tree.resolve path' true) :
    tree.has path = tree.has path' := by
  rw [has, has, leads]

theorem readText_eq_of_resolve_eq (leads : tree.resolve path true = tree.resolve path' true) :
    tree.readText path = tree.readText path' := by
  rw [readText, readText, leads]

/-- One violation is the same without its root if it shows the same members. -/
theorem unrooted_singleton {violation violation' : Violation}
    (same : violation.members (·.shownFrom root) = violation'.members (·.shownFrom other)) :
    Unrooted root other [violation] [violation'] := by
  rw [Unrooted, List.map_singleton, List.map_singleton, Report.unrootedItem_eq,
    Report.unrootedItem_eq, same]

/-- Violations made of the same items are the same without their roots if each pair is. -/
theorem unrooted_map {α : Type} {made made' : α → Violation}
    (same : ∀ item, (made item).members (·.shownFrom root) =
      (made' item).members (·.shownFrom other)) (items : List α) :
    Unrooted root other (items.map made) (items.map made') := by
  rw [Unrooted, List.map_map, List.map_map]
  refine List.map_congr_left fun item _ => ?_
  rw [Function.comp_apply, Function.comp_apply, Report.unrootedItem_eq, Report.unrootedItem_eq,
    same]

/-- The same headings are missing from a document that both spellings of the root lead to. -/
theorem unrooted_sections (shown : path.shownFrom root = path'.shownFrom other) (entry : Entry)
    (name : String) (required : List String)
    (leads : tree.resolve (root.join (.ofString name)) true =
      tree.resolve (other.join (.ofString name)) true) :
    Unrooted root other (sections tree root path entry name required)
      (sections tree other path' entry name required) := by
  unfold sections
  rw [readText_eq_of_resolve_eq leads]
  split
  case isTrue => exact composes_unrooted.nil
  case isFalse =>
    split
    case h_1 fault _ =>
      exact unrooted_singleton (by simp only [Violation.members, Violation.kind, shown])
    case h_2 text _ =>
      exact unrooted_map (fun _ => by simp only [Violation.members, Violation.kind, shown]) _

/-- What is found of one document is the same under both spellings of the root, the root apart. -/
theorem related_found_unrooted (shown : path.shownFrom root = path'.shownFrom other)
    (entry : Entry) (spec : DocSpec)
    (leads : tree.resolve (root.join (.ofString spec.path)) true =
      tree.resolve (other.join (.ofString spec.path)) true) :
    Related (Unrooted root other) (found tree root path entry spec)
      (found tree other path' entry spec) where
  documents := by simp only [found, has_eq_of_resolve_eq leads]
  violations := by
    simp only [found, document, has_eq_of_resolve_eq leads]
    split
    case isTrue => exact unrooted_sections shown entry spec.path spec.requiredSections leads
    case isFalse =>
      cases entry <;>
        exact unrooted_singleton (by
          simp only [Entry.missing, Violation.members, Violation.kind, shown])

/-- A reference stands or is missing under both spellings of the root. -/
theorem related_reference_unrooted (shown : path.shownFrom root = path'.shownFrom other)
    (name : String)
    (leads : tree.resolve (root.join (.ofString name)) true =
      tree.resolve (other.join (.ofString name)) true) :
    Related (Unrooted root other) (reference tree root path name)
      (reference tree other path' name) := by
  unfold reference
  rw [has_eq_of_resolve_eq leads]
  split
  case isTrue => exact .none composes_unrooted
  case isFalse =>
    exact ⟨unrooted_singleton (by simp only [Violation.members, Violation.kind, shown]), rfl⟩

/-- A manifest that is shown alike below two roots, and the same file below both, is found alike but
for what spells the root, if what it declares leads to the same. -/
theorem related_manifest_unrooted (shown : path.shownFrom root = path'.shownFrom other)
    (same : tree.resolve path true = tree.resolve path' true)
    (leads : ∀ decoded, load tree path = .ok decoded → ∀ name, decoded.Names name →
      tree.resolve (root.join (.ofString name)) true =
        tree.resolve (other.join (.ofString name)) true) :
    Related (Unrooted root other) (manifest tree root path) (manifest tree other path') := by
  refine related_manifest (readText_eq_of_resolve_eq same) (fun _ => ?_) (fun _ _ _ => ?_)
    fun decoded loaded => ?_
  · exact unrooted_singleton (by simp only [Violation.members, Violation.kind, shown])
  · exact unrooted_singleton (by simp only [Violation.members, Violation.kind, shown])
  · have leads := leads decoded loaded
    exact related_declared composes_unrooted
      (fun entry spec declared => related_found_unrooted shown entry spec
        (leads _ (.document declared)))
      (fun name listed => related_reference_unrooted shown name (leads name (.reference listed)))

/-! ## The whole report -/

/-- Two roots lead to one place, and all that a run looks at keeps to the limits under both. -/
structure Rerooted (tree : FileTree) (root other : Path) : Prop where
  place : ∃ place, tree.resolve root true = .ok place ∧ tree.resolve other true = .ok place
  fits : ∀ path, Probed tree root path → tree.WithinLimits path
  fitsOther : ∀ path, Probed tree other path → tree.WithinLimits path

/-- Spellings that a run cannot tell apart also discover the same manifests. -/
theorem Rerooted.corooted (same : Rerooted tree root other) : tree.Corooted root other where
  place := same.place
  fits path here := same.fits path (.walked here)
  fitsOther path here := same.fitsOther path (.walked here)

/-- The base is there under both spellings or under neither. -/
theorem Rerooted.has_basePath (same : Rerooted tree root other) :
    tree.has (basePath root) = tree.has (basePath other) :=
  has_eq_of_resolve_eq (same.corooted.resolve_descend_eq (List.forall_mem_nil _)
    (same.fits _ (.walked .base)) (same.fitsOther _ (.walked .base)))

/-- A manifest that is found is reached by a walk below its base. -/
theorem walked_of_mem_manifests (found : path ∈ tree.manifests (basePath root)) :
    tree.Walked (basePath root) path := by
  obtain ⟨node, met, named, _⟩ := mem_manifests_iff.mp found
  exact .candidate met named

/-- A manifest is shown by the names that lead to it from the root, however the root is spelled. -/
theorem shownFrom_descend_basePath {location : Location} (led : tree.resolve root true = .ok location)
    {names : List Name} (valid : ∀ name ∈ names, name.Valid) :
    ((basePath root).descend names).shownFrom root =
      Path.slashed ([separator].intercalate (baseNames ++ names)) := by
  rw [descend_basePath, Path.shownFrom_descend (resolve_ok led).2.1
    (List.forall_mem_append.mpr ⟨valid_baseNames, valid⟩)]

/-- The manifest that the same names reach below two such roots is found alike. -/
theorem Rerooted.related_manifest (same : Rerooted tree root other) {names : List Name}
    (valid : ∀ name ∈ names, name.Valid)
    (found : (basePath root).descend names ∈ tree.manifests (basePath root))
    (foundOther : (basePath other).descend names ∈ tree.manifests (basePath other)) :
    Related (Unrooted root other) (manifest tree root ((basePath root).descend names))
      (manifest tree other ((basePath other).descend names)) := by
  obtain ⟨location, led, ledOther⟩ := same.place
  have leads := same.corooted.resolve_descend_eq valid
    (same.fits _ (.walked (walked_of_mem_manifests found)))
    (same.fitsOther _ (.walked (walked_of_mem_manifests foundOther)))
  have shown : ((basePath root).descend names).shownFrom root =
      ((basePath other).descend names).shownFrom other := by
    rw [shownFrom_descend_basePath led valid, shownFrom_descend_basePath ledOther valid]
  refine related_manifest_unrooted shown leads fun decoded loaded name named => ?_
  obtain ⟨text, read, given⟩ := load_eq_ok_iff.mp loaded
  rw [readText_eq_of_resolve_eq leads] at read
  have loadedOther := load_eq_ok_iff.mpr ⟨text, read, given⟩
  exact resolve_join_eq led ledOther (same.fits _ (.declared found loaded named))
    (same.fitsOther _ (.declared foundOther loadedOther named))

/-- A run under the other spelling reports the same, the root apart, and counts the same. -/
theorem Rerooted.unrooted_run (same : Rerooted tree root other) :
    Unrooted root other (run tree root).violations (run tree other).violations ∧
      (run tree root).summary = (run tree other).summary := by
  obtain ⟨rows, valid, here, there⟩ := same.corooted.exists_rows
  have all : Related (Unrooted root other)
      (.gather (manifest tree root) (tree.manifests (basePath root)))
      (.gather (manifest tree other) (tree.manifests (basePath other))) := by
    rw [here, there, Findings.gather_map, Findings.gather_map]
    refine Findings.related_gather composes_unrooted fun names listed => ?_
    exact same.related_manifest (valid names listed) (here ▸ List.mem_map_of_mem listed)
      (there ▸ List.mem_map_of_mem listed)
  have violations := congrArg List.length all.violations
  rw [List.length_map, List.length_map] at violations
  have manifests : (tree.manifests (basePath root)).length =
      (tree.manifests (basePath other)).length := by
    rw [here, there, List.length_map, List.length_map]
  simp only [run, same.has_basePath]
  split
  · exact ⟨all.violations, by rw [violations, manifests, all.documents]⟩
  · exact ⟨rfl, rfl⟩

/-- Reports that are the same without their roots are both fine or both not. -/
theorem isOk_eq_of_unrooted {report report' : Report}
    (same : Unrooted root other report.violations report'.violations) :
    report.isOk = report'.isOk := by
  have vacant := congrArg List.isEmpty same
  rwa [List.isEmpty_map, List.isEmpty_map] at vacant

/-- If a violation in the report of a run belongs to a manifest, that is a discovered one. -/
theorem mem_manifests_of_mem_violations {violation : Violation}
    (member : violation ∈ (run tree root).violations) (belongs : violation.manifest? = some path) :
    path ∈ tree.manifests (basePath root) := by
  by_cases base : tree.has (basePath root) = true
  · rw [violations_run base] at member
    obtain ⟨origin, found, inside⟩ := List.mem_flatMap.mp member
    have owner : origin = path := Option.some.inj ((manifest?_of_mem inside).symm.trans belongs)
    exact owner ▸ found
  · unfold run at member
    rw [if_neg base] at member
    obtain rfl := List.mem_singleton.mp member
    cases belongs

/-- **The spelling of the root is irrelevant.** Two roots that lead to one place have the same
printed document, but for the messages and for the root that is named where there is no base, if all
that is looked at keeps to the limits of the file system under both. A manifest is named there by
the names that lead to it from the root, with `/` between them. -/
theorem root_spelling_irrelevant {location : Location} (led : tree.resolve root true = .ok location)
    (ledOther : tree.resolve other true = .ok location)
    (fits : ∀ path, Probed tree root path → tree.WithinLimits path)
    (fitsOther : ∀ path, Probed tree other path → tree.WithinLimits path) :
    Report.unrooted ((run tree root).document root) =
        Report.unrooted ((run tree other).document other) ∧
      ∀ violation ∈ (run tree root).violations, ∀ path, violation.manifest? = some path →
        ∃ names shown, (∀ name ∈ names, name.Valid) ∧ path = (basePath root).descend names ∧
          (Report.item root violation).at? "manifest" = some (.string shown) ∧
          shown = Path.slashed ([separator].intercalate (baseNames ++ names)) ∧
          shown = "docs/exercises/" ++ Path.slashed ([separator].intercalate names) := by
  constructor
  · obtain ⟨violations, summary⟩ :=
      Rerooted.unrooted_run ⟨⟨location, led, ledOther⟩, fits, fitsOther⟩
    rw [Report.unrooted_document, Report.unrooted_document, isOk_eq_of_unrooted violations,
      summary, violations]
  · intro violation member path belongs
    obtain ⟨names, inhabited, valid, rfl⟩ :=
      exists_names_of_mem_manifests (mem_manifests_of_mem_violations member belongs)
    refine ⟨names, _, valid, rfl, Report.at?_manifest root belongs,
      shownFrom_descend_basePath led valid, ?_⟩
    rw [shownFrom_descend_basePath led valid, slashed_baseNames_append inhabited]

/-- A tree with a link to the directory above the base, from which the root can be reached. -/
def roundaboutTree : FileTree :=
  plainTree.put (.ofString "x") (.link (.ofString "/w/docs"))

/-- The root is reached by its whole path, through the link, and through the directory above it. -/
theorem root_spelling_irrelevant_roundaboutTree :
    (∀ spelling ∈ ["/w", "x/..//", "../w/."],
      roundaboutTree.resolve (.ofString spelling) true = .ok [Utf8.encode "w".toList]) ∧
    (run roundaboutTree (.ofString "/w")).messages ≠
      (run roundaboutTree (.ofString ".")).messages ∧
    ∀ spelling ∈ ["/w", "x/..//", "../w/."],
      Report.unrooted ((run roundaboutTree (.ofString spelling)).document (.ofString spelling)) =
        Report.unrooted ((run roundaboutTree (.ofString ".")).document (.ofString ".")) := by
  have led : ∀ spelling ∈ ["/w", "x/..//", "../w/."],
      roundaboutTree.resolve (.ofString spelling) true = .ok [Utf8.encode "w".toList] := by
    decide +kernel
  have ledOther : roundaboutTree.resolve (.ofString ".") true = .ok [Utf8.encode "w".toList] := by
    decide +kernel
  have short : ∀ spelling ∈ ["/w", "x/..//", "../w/.", "."],
      ∀ path ∈ probes roundaboutTree (.ofString spelling),
        path.bytes.length < pathByteLimit := by decide +kernel
  have few : ∀ spelling ∈ ["/w", "x/..//", "../w/.", "."],
      ∀ path ∈ probes roundaboutTree (.ofString spelling),
        roundaboutTree.resolve path true ≠ .error .tooManyLinks := by decide +kernel
  refine ⟨led, by decide +kernel, fun spelling listed => ?_⟩
  have inside : spelling ∈ ["/w", "x/..//", "../w/.", "."] := List.mem_append_left ["."] listed
  exact (root_spelling_irrelevant (led spelling listed) ledOther
    (fun _ => withinLimits_of_probes (short _ inside) (few _ inside))
    (fun _ => withinLimits_of_probes (short "." (by simp)) (few "." (by simp)))).1

end Audit

end ExerciseAudit
