import ExerciseAudit.Proofs.Audit.Appending
import ExerciseAudit.Proofs.Audit.Scope
import ExerciseAudit.Proofs.Audit.Tally
import ExerciseAudit.Proofs.Manifest.Grammar
import ExerciseAudit.Proofs.Manifest.Respelling

/-!
# Manifests in other words are audited alike

What a run finds depends on what manifests declare, not on how they spell it. So a manifest can be
put in other words without any change in the report (`Audit.respelling_irrelevant`), unless it is
itself a document of which sections are required.
-/

namespace ExerciseAudit

open FileTree Json Json.Writing

namespace Audit

variable {tree other : FileTree} {root path : Path} {location : Location} {manifest : Manifest}

/-- Manifests that declare the same give the same findings. -/
theorem declared_eq_of_equivalent {manifest' : Manifest} (same : manifest.Equivalent manifest') :
    declared tree root path manifest = declared tree root path manifest' := by
  rw [declared_eq_found, declared_eq_found, same.docs, same.references, same.fixtures]

/-- Outputs without a fixture have no part in what a manifest declares. -/
theorem equivalent_filter_hasFixture (manifest : Manifest) :
    manifest.Equivalent
      { manifest with outputs := manifest.outputs.filter OutputSpec.hasFixture } where
  docs := rfl
  references := rfl
  fixtures := by
    rw [List.filterMap_filter]
    apply List.filterMap_congr
    intro output _
    split
    case isTrue => rfl
    case isFalse vacant =>
      obtain ⟨fixture, sections⟩ := output
      cases fixture <;> simp_all [OutputSpec.hasFixture, OutputSpec.document?,
        OutputSpec.fixturePath?]

/-- Two trees differ in one file, in which both of them spell a manifest, and these declare the
same. -/
structure Respells (tree other : FileTree) (location : Location) : Prop where
  sameBut : SameBut (· = location) tree other
  manifests : ∃ first second : Manifest, first.Equivalent second ∧
    (∀ path, tree.resolve path true = .ok location → load tree path = .ok first) ∧
    ∀ path, other.resolve path true = .ok location → load other path = .ok second

/-- A respelled manifest leaves the two trees in agreement on everything that another manifest
declares. -/
theorem agree_of_respells (respells : Respells tree other location)
    (free : ¬ RequiredAt tree root location) (found : path ∈ tree.manifests (basePath root))
    (loaded : load tree path = .ok manifest) : Agree tree other root manifest where
  present _ _ := respells.sameBut.outline.has_eq _
  read spec declared required := by
    unfold ReadsAlike
    rw [respells.sameBut.readText_eq fun location leads here => free
      ⟨path, found, manifest, loaded, spec, declared, required, here ▸ leads⟩]

/-- Each manifest gives the same findings in the two trees, the respelled one included. -/
theorem manifest_eq_of_respells (respells : Respells tree other location)
    (free : ¬ RequiredAt tree root location) (found : path ∈ tree.manifests (basePath root)) :
    Audit.manifest tree root path = Audit.manifest other root path := by
  by_cases leads : tree.resolve path true = .ok location
  · obtain ⟨first, second, same, here, there⟩ := respells.manifests
    have leadsOther := leads
    rw [respells.sameBut.outline.resolve_eq] at leadsOther
    have agree := agree_of_respells respells free found (here path leads)
    unfold Audit.manifest
    rw [here path leads, there path leadsOther]
    exact (declared_eq agree).trans (declared_eq_of_equivalent same)
  · exact manifest_eq (respells.sameBut.readText_eq fun _ here same => leads (same ▸ here))
      fun _ loaded => agree_of_respells respells free found loaded

/-- A run reports the same in the two trees. -/
theorem run_eq_of_respells (respells : Respells tree other location)
    (free : ¬ RequiredAt tree root location) : run other root = run tree root := by
  have same := respells.sameBut.outline
  have findings : Findings.gather (Audit.manifest tree root) (tree.manifests (basePath root)) =
      Findings.gather (Audit.manifest other root) (tree.manifests (basePath root)) :=
    Findings.gather_congr fun _ found => manifest_eq_of_respells respells free found
  simp only [run, ← same.has_eq, ← same.manifests_eq, findings]

/-- The content of a file is the text of a value, with blanks around it. -/
def Contains (content : List UInt8) (writing : Writing) : Prop :=
  ∃ before after, Utf8.decode? content = some (spaces before ++ (writing.text ++ spaces after))

section Content

variable {content : List UInt8} {writing : Writing}

/-- A file that contains a spelling of a manifest is loaded as what the spelling declares. -/
theorem load_of_contains (leads : tree.resolve path true = .ok location)
    (file : tree.lookup location = some (.file content)) (spelled : Contains content writing)
    (decoded : Manifest.ofWriting? writing = some manifest) : load tree path = .ok manifest := by
  obtain ⟨before, after, text⟩ := spelled
  rw [← Manifest.toOption_ofText_written writing before after] at decoded
  have read := readText_of_resolve leads file (by rw [text, String.toList_ofList])
  exact load_eq_ok_iff.mpr ⟨_, read, eq_ok_of_toOption decoded⟩

variable (ends : tree.target? path = some (.file content)) (loaded : load tree path = .ok manifest)
include ends loaded

/-- A manifest that was loaded is spelled in its file. -/
theorem exists_contains_of_load : ∃ writing, Contains content writing := by
  obtain ⟨text, read, given⟩ := exists_text_of_target? ends loaded
  obtain ⟨before, writing, after, split⟩ := Manifest.exists_writing_of_ofText given
  exact ⟨writing, before, after, split ▸ Node.read_file_eq_ok_iff.mp read⟩

/-- What a loaded manifest's file spells is what was loaded. -/
theorem ofWriting?_of_load (spelled : Contains content writing) :
    Manifest.ofWriting? writing = some manifest := by
  obtain ⟨text, read, given⟩ := exists_text_of_target? ends loaded
  obtain ⟨before, after, whole⟩ := spelled
  rw [Node.read_file_eq_ok_iff.mp read, Option.some.injEq] at whole
  rw [← Manifest.toOption_ofText_written writing before after, ← whole, String.ofList_toList, given]
  rfl

end Content

/-- **Equivalent spellings are audited alike.** A file from which a manifest is decoded contains a
spelling of it. With any other spelling there, in which any number of entries and members are put in
other words at once, the report on the tree is the same, if no discovered manifest requires sections
of that file. Outputs without a fixture contribute nothing to what is found. -/
theorem respelling_irrelevant {content : List UInt8}
    (leads : tree.resolve path true = .ok location)
    (file : tree.lookup location = some (.file content))
    (loaded : load tree path = .ok manifest) (free : ¬ RequiredAt tree root location) :
    (∃ writing, Contains content writing) ∧
      (∀ writing writing' content', Contains content writing →
        Manifest.Respelled writing writing' → Contains content' writing' →
          run (tree.insert location (.file content')) root = run tree root) ∧
      declared tree root path manifest = declared tree root path
        { manifest with outputs := manifest.outputs.filter OutputSpec.hasFixture } := by
  have ends := target?_of_resolve leads file
  refine ⟨exists_contains_of_load ends loaded, ?_,
    declared_eq_of_equivalent (equivalent_filter_hasFixture manifest)⟩
  intro writing writing' content' spelled same spelled'
  have decoded := ofWriting?_of_load ends loaded spelled
  obtain ⟨manifest', decoded', equivalent⟩ :=
    Manifest.exists_equivalent_of_respelled same decoded
  have there : (tree.insert location (.file content')).lookup location = some (.file content') := by
    rw [lookup_insert_file file, if_pos rfl]
  exact run_eq_of_respells ⟨sameBut_insert file, manifest, manifest', equivalent,
    fun _ leads => load_of_contains leads file spelled decoded,
    fun _ leads => load_of_contains leads there spelled' decoded'⟩ free

/-- The signs of a word without quotes, backslashes and controls. -/
def word (text : String) : List Glyph :=
  text.toList.filterMap fun c =>
    if ordinary : 0x20 ≤ c.toNat ∧ c ≠ '"' ∧ c ≠ '\\' then some (.plain c ordinary) else none

/-- A member without blanks. -/
def field (name : String) (value : Writing) : Member Writing :=
  ⟨[], word name, [], [], value, []⟩

/-- A manifest with a bare path and an empty fixture. -/
def briefWriting : Writing :=
  .object [] [field "docs" (.array [] [⟨[], .string (word "d"), []⟩]),
    field "outputs" (.array [] [⟨[], .object [] [field "fixture" (.string [])], []⟩])]

/-- The same manifest with a record for the path and no fixture, and with its members the other way
round. -/
def fullWriting : Writing :=
  .object [] [field "outputs" (.array [] [⟨[], .object [] [], []⟩]),
    field "docs" (.array [] [⟨[], .object []
      [field "requiredSections" (.array [] []), field "path" (.string (word "d"))], []⟩])]

/-- How the first is spelled. -/
def briefText : String := "\x7b\"docs\":[\"d\"],\"outputs\":[\x7b\"fixture\":\"\"\x7d]\x7d"

/-- How the second is spelled. -/
def fullText : String :=
  "\x7b\"outputs\":[\x7b\x7d],\"docs\":[\x7b\"requiredSections\":[],\"path\":\"d\"\x7d]\x7d"

theorem text_briefWriting : briefWriting.text = briefText.toList := by
  simp only [briefWriting, field, Writing.text, List.map]
  decide +kernel

theorem text_fullWriting : fullWriting.text = fullText.toList := by
  simp only [fullWriting, field, Writing.text, List.map]
  decide +kernel

/-- Both declare one document. -/
theorem respelled_briefWriting : Manifest.Respelled briefWriting fullWriting := by
  have path : DocRef.Respelled (.string (word "d")) (.object []
      [field "requiredSections" (.array [] []), field "path" (.string (word "d"))]) :=
    .trans _ _ _ (.rel _ _ (.bare [] (by decide +kernel) rfl))
      (.rel _ _ (.sections (.intro (by decide +kernel) (by decide +kernel) ⟨[], rfl⟩)))
  have fixture : OutputSpec.Respelled (.object [] [field "fixture" (.string [])]) (.object [] []) :=
    .symm _ _ (.rel _ _ (.fixture (.intro rfl (by decide +kernel) (.empty rfl))))
  have docs : string? (word "docs") = some "docs" := by decide +kernel
  have outputs : string? (word "outputs") = some "outputs" := by decide +kernel
  refine .record (.swap _ _ []) rfl (.cons ?_ (.cons ?_ .nil))
  · intro name named
    obtain rfl := Option.some.inj (outputs.symm.trans named)
    exact .outputs (.cons fixture .nil)
  · intro name named
    obtain rfl := Option.some.inj (docs.symm.trans named)
    exact .docs (.cons path .nil)

/-- A tree with the first as its only manifest. -/
def briefTree : FileTree :=
  FileTree.empty.put (.ofString "docs/exercises/m.manifest.json")
    (.file (Utf8.encode briefText.toList))

/-- The document is missing under either spelling. -/
theorem respelling_irrelevant_briefTree :
    (run briefTree (.ofString ".")).violations =
      [.missingDoc (.ofString "./docs/exercises/m.manifest.json") "d"] ∧
    run (briefTree.insert (["docs", "exercises", "m.manifest.json"].map (Utf8.encode ·.toList))
      (.file (Utf8.encode fullText.toList))) (.ofString ".") = run briefTree (.ofString ".") := by
  have only : briefTree.manifests (basePath (.ofString ".")) =
      [.ofString "./docs/exercises/m.manifest.json"] := by decide +kernel
  have loaded : load briefTree (.ofString "./docs/exercises/m.manifest.json") =
      .ok ⟨[.path "d"], [], [⟨some "", []⟩]⟩ := by decide +kernel
  have free : ¬ RequiredAt briefTree (.ofString ".")
      (["docs", "exercises", "m.manifest.json"].map (Utf8.encode ·.toList)) := by
    rintro ⟨path, found, decoded, given, spec, declared, required, _⟩
    rw [only, List.mem_singleton] at found
    rw [found, loaded] at given
    cases given
    obtain rfl := List.mem_singleton.mp (Manifest.declares_iff.mp declared)
    exact required rfl
  have brief : Contains (Utf8.encode briefText.toList) briefWriting := by
    refine ⟨[], [], ?_⟩
    rw [text_briefWriting]
    decide +kernel
  have full : Contains (Utf8.encode fullText.toList) fullWriting := by
    refine ⟨[], [], ?_⟩
    rw [text_fullWriting]
    decide +kernel
  have leads : briefTree.resolve (.ofString "./docs/exercises/m.manifest.json") true = .ok
      (["docs", "exercises", "m.manifest.json"].map (Utf8.encode ·.toList)) := by
    decide +kernel
  have file : briefTree.lookup (["docs", "exercises", "m.manifest.json"].map
      (Utf8.encode ·.toList)) = some (.file (Utf8.encode briefText.toList)) := by decide +kernel
  have alike := (respelling_irrelevant leads file loaded free).2.1
  exact ⟨by decide +kernel, alike _ _ _ brief respelled_briefWriting full⟩

end Audit

end ExerciseAudit
