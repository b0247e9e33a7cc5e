import ExerciseAudit.Proofs.Audit.Isolation
import ExerciseAudit.Proofs.Audit.Related
import ExerciseAudit.Proofs.FileTree.Content
import ExerciseAudit.Proofs.Heading

/-!
# Adding lines to a document

Lines added at the end of a document give it more headings and take none away. So of what a run
reports, just the sections are gone that are required of this document and are headings of the new
lines (`Audit.appending_repairs`), in every manifest and by whatever path it leads to the document.
-/

namespace ExerciseAudit

open FileTree

/-- Whether a violation says that the file at a location lacks a section, which is one of some
headings. -/
def Violation.suppliedAt (tree : FileTree) (root : Path) (location : Location)
    (headings : List String) : Violation → Bool
  | .missingHeading _ heading path _ =>
    tree.resolve (root.join (.ofString path)) true = .ok location &&
      headings.contains heading
  | _ => false

namespace Audit

variable {tree other : FileTree} {root path : Path} {location : Location}

/-- Two trees differ in one file, to which the second adds lines. -/
structure Extends (tree other : FileTree) (location : Location) (text more : String) : Prop where
  sameBut : SameBut (· = location) tree other
  first : ∀ path, tree.resolve path true = .ok location → tree.readText path = .ok text
  second : ∀ path, other.resolve path true = .ok location →
    other.readText path = .ok (text ++ "\n" ++ more)

/-- Replacing a document's content by a longer one extends it. -/
theorem extends_insert {content content' : List UInt8} {text more : String}
    (file : tree.lookup location = some (.file content))
    (spelled : Utf8.decode? content = some text.toList)
    (appended : Utf8.decode? content' = some (text ++ "\n" ++ more).toList) :
    Extends tree (tree.insert location (.file content')) location text more where
  sameBut := sameBut_insert file
  first _ leads := readText_of_resolve leads file spelled
  second _ leads := by
    have there : (tree.insert location (.file content')).lookup location =
        some (.file content') := by
      rw [lookup_insert_file file, if_pos rfl]
    exact readText_of_resolve leads there appended

variable {text more : String}

/-- In the longer document just the headings that the appended text has are no longer missing. -/
theorem sections_extended (extended : Extends tree other location text more) (entry : Entry)
    (name : String) (required : List String) :
    (sections tree root path entry name required).filter
        (fun violation => !violation.suppliedAt tree root location (Heading.ofText more)) =
      sections other root path entry name required := by
  unfold sections
  split
  case isTrue => rfl
  case isFalse =>
    by_cases leads : tree.resolve (root.join (.ofString name)) true = .ok location
    · have leadsOther := leads
      rw [extended.sameBut.outline.resolve_eq] at leadsOther
      rw [extended.first _ leads, extended.second _ leadsOther]
      simp only [Heading.ofText_append, List.filter_map, List.filter_filter]
      congr 1
      apply List.filter_congr
      intro heading _
      simp [Violation.suppliedAt, leads, Bool.and_comm]
    · have read : tree.readText (root.join (.ofString name)) =
          other.readText (root.join (.ofString name)) :=
        extended.sameBut.readText_eq fun _ here same => leads (same ▸ here)
      rw [← read]
      apply List.filter_eq_self.mpr
      intro violation member
      split at member
      · obtain rfl := List.mem_singleton.mp member
        rfl
      · obtain ⟨heading, _, rfl⟩ := List.mem_map.mp member
        simp [Violation.suppliedAt, leads]

/-- What is left of some violations when those are taken away that the added lines settle. -/
def Unsettled (tree : FileTree) (root : Path) (location : Location) (more : String)
    (violations left : List Violation) : Prop :=
  violations.filter (fun violation =>
    !violation.suppliedAt tree root location (Heading.ofText more)) = left

/-- Violations that stay unsettled in two reports stay so in the two put together. -/
theorem composes_unsettled :
    Findings.Composes (Unsettled tree root location more) where
  nil := rfl
  append left right := by
    unfold Unsettled at left right ⊢
    rw [List.filter_append, left, right]

/-- What is found of one document stays as it is, but for the headings that are supplied. -/
theorem related_found_extended (extended : Extends tree other location text more) (entry : Entry)
    (spec : DocSpec) :
    Findings.Related (Unsettled tree root location more) (found tree root path entry spec)
      (found other root path entry spec) where
  documents := by simp only [found, extended.sameBut.outline.has_eq]
  violations := by
    simp only [found, document, ← extended.sameBut.outline.has_eq]
    split
    · exact sections_extended extended entry spec.path spec.requiredSections
    · cases entry <;> rfl

/-- A reference stands or is missing as before. -/
theorem related_reference_extended (extended : Extends tree other location text more)
    (name : String) :
    Findings.Related (Unsettled tree root location more) (reference tree root path name)
      (reference other root path name) := by
  unfold reference
  rw [← extended.sameBut.outline.has_eq]
  split <;> exact ⟨rfl, rfl⟩

/-- A manifest that is not the extended file itself is found as before, but for what the added lines
settle. -/
theorem related_manifest_extended (extended : Extends tree other location text more)
    (apart : tree.resolve path true ≠ .ok location) :
    Findings.Related (Unsettled tree root location more) (manifest tree root path)
      (manifest other root path) := by
  have read : tree.readText path = other.readText path :=
    extended.sameBut.readText_eq fun _ leads same => apart (same ▸ leads)
  refine related_manifest read (fun _ => rfl) (fun _ _ _ => rfl) fun decoded _ => ?_
  exact related_declared composes_unsettled
    (fun entry spec _ => related_found_extended extended entry spec)
    (fun name _ => related_reference_extended extended name)

/-- A run on the extended tree reports what was reported before and is not supplied, and counts as
before. -/
theorem run_extended (extended : Extends tree other location text more)
    (unlisted : ∀ path ∈ tree.manifests (basePath root),
      tree.resolve path true ≠ .ok location) :
    Unsettled tree root location more (run tree root).violations (run other root).violations ∧
      (run other root).summary.manifests = (run tree root).summary.manifests ∧
      (run other root).summary.documents = (run tree root).summary.documents := by
  have same := extended.sameBut.outline
  have all : Findings.Related (Unsettled tree root location more)
      (.gather (manifest tree root) (tree.manifests (basePath root)))
      (.gather (manifest other root) (tree.manifests (basePath root))) :=
    Findings.related_gather composes_unsettled fun path found =>
      related_manifest_extended extended (unlisted path found)
  simp only [run, ← same.has_eq, ← same.manifests_eq]
  split
  · exact ⟨all.violations, rfl, all.documents.symm⟩
  · exact ⟨rfl, rfl, rfl⟩

/-- **Added lines repair and do no harm.** With lines added to a document that is no manifest, a run
reports what it did but for the sections that these lines supply to the document, and counts the
same manifests and documents. So a line that is a heading settles that section of the document in
every manifest, and adds nothing to the report. -/
theorem appending_repairs {content : List UInt8}
    (file : tree.lookup location = some (.file content))
    (spelled : Utf8.decode? content = some text.toList)
    (unlisted : ∀ path ∈ tree.manifests (basePath root),
      tree.resolve path true ≠ .ok location) :
    (∀ (more : String) (content' : List UInt8),
      Utf8.decode? content' = some (text ++ "\n" ++ more).toList →
        (run (tree.insert location (.file content')) root).violations =
          (run tree root).violations.filter (fun violation =>
            !violation.suppliedAt tree root location (Heading.ofText more)) ∧
        (run (tree.insert location (.file content')) root).summary.manifests =
          (run tree root).summary.manifests ∧
        (run (tree.insert location (.file content')) root).summary.documents =
          (run tree root).summary.documents) ∧
    ∀ (title ending : String) (content' : List UInt8), Heading.IsTitle title →
      (ending = "" ∨ ending = "\n") →
      Utf8.decode? content' = some (text ++ "\n" ++ ("# " ++ title ++ ending)).toList →
        (∀ manifest path entry,
          tree.resolve (root.join (.ofString path)) true = .ok location →
            .missingHeading manifest title path entry ∉
              (run (tree.insert location (.file content')) root).violations) ∧
        (run (tree.insert location (.file content')) root).violations.Sublist
          (run tree root).violations := by
  have extended {more : String} {content' : List UInt8}
      (appended : Utf8.decode? content' = some (text ++ "\n" ++ more).toList) :=
    run_extended (extends_insert file spelled appended) unlisted
  constructor
  · intro more content' appended
    obtain ⟨violations, manifests, documents⟩ := extended appended
    exact ⟨violations.symm, manifests, documents⟩
  · intro title ending content' valid ends appended
    obtain ⟨violations, _, _⟩ := extended appended
    rw [Unsettled, Heading.ofText_heading valid ends] at violations
    rw [← violations]
    refine ⟨?_, List.filter_sublist⟩
    intro manifest path entry leads member
    have left := (List.mem_filter.mp member).2
    simp [Violation.suppliedAt, leads] at left

/-- A document lacks a heading that is required of it, and the appended text supplies it. -/
theorem appending_repairs_plainTree :
    plainTree.lookup [Utf8.encode "d".toList] = some (.file (Utf8.encode "# A\n".toList)) ∧
    (∀ path ∈ plainTree.manifests (basePath (.ofString ".")),
      plainTree.resolve path true ≠ .ok [Utf8.encode "d".toList]) ∧
    .missingHeading (.ofString "./docs/exercises/m.manifest.json") "B" "/d" .doc ∈
      (run plainTree (.ofString ".")).violations ∧
    .missingHeading (.ofString "./docs/exercises/m.manifest.json") "B" "/d" .doc ∉
      (run (plainTree.insert [Utf8.encode "d".toList]
        (.file (Utf8.encode "# A\n\n# B".toList))) (.ofString ".")).violations := by
  have file : plainTree.lookup [Utf8.encode "d".toList] =
      some (.file (Utf8.encode "# A\n".toList)) := by decide +kernel
  have spelled : Utf8.decode? (Utf8.encode "# A\n".toList) = some "# A\n".toList := by
    decide +kernel
  have unlisted : ∀ path ∈ plainTree.manifests (basePath (.ofString ".")),
      plainTree.resolve path true ≠ .ok [Utf8.encode "d".toList] := by decide +kernel
  have title : Heading.IsTitle "B" := by
    refine ⟨by decide, by decide, fun c stands => ?_, fun c stands => ?_⟩
    all_goals
      obtain rfl : 'B' = c := Option.some.inj stands
      decide
  have appended : Utf8.decode? (Utf8.encode "# A\n\n# B".toList) =
      some ("# A\n" ++ "\n" ++ ("# " ++ "B" ++ "")).toList := by decide +kernel
  have leads : plainTree.resolve ((Path.ofString ".").join (.ofString "/d")) true =
      .ok [Utf8.encode "d".toList] := by decide +kernel
  have cleared := ((appending_repairs file spelled unlisted).2 _ _ _ title (.inl rfl) appended).1
  exact ⟨file, unlisted, by decide +kernel, cleared _ _ _ leads⟩

end Audit

end ExerciseAudit
