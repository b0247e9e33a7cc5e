import ExerciseAudit.Proofs.Audit.Respelling
import ExerciseAudit.Proofs.Manifest.Fields
import ExerciseAudit.Proofs.Manifest.Grammar

/-!
# The shapes that are accepted

A record is written as an object, or as a list of the values of its members in a fixed order, of
which those at the end may be missing. So it is with a manifest, with an entry of `docs` and with an
output alike, and a list stands for the object with the members of these names
(`Lists.gated_manifest`, `Lists.gated_document`, `Lists.gated_output`). Together with the bare paths
in `docs` these are all shapes that are accepted (`Manifest.shapes_exact`). So what is accepted in
place of a record is written as one exactly if it is no list (`Manifest.Shaped.written_iff`).
-/

namespace ExerciseAudit

open Json Json.Writing

/-! ## Records written as lists -/

/-- The members of an object have the first of some names, one after the other, and the values of
the items of a list. -/
inductive Labelled : List String → List (Member Writing) → List (Slot Writing) → Prop
  | nil (names : List String) : Labelled names [] []
  | cons {name : String} {names : List String} {member : Member Writing}
      {members : List (Member Writing)} {slot : Slot Writing} {slots : List (Slot Writing)}
      (named : string? member.name = some name) (held : member.value = slot.value)
      (later : Labelled names members slots) :
      Labelled (name :: names) (member :: members) (slot :: slots)

/-- A record is written as the list of the values of its members, in the order of the record's
names. -/
inductive Lists (kind : RecordKind) : Writing → Writing → Prop
  | intro (opening opening' : List Blank) {members : List (Member Writing)}
      {slots : List (Slot Writing)} (labels : Labelled kind.known members slots) :
      Lists kind (.object opening members) (.array opening' slots)

namespace Labelled

variable {names : List String} {members : List (Member Writing)} {slots : List (Slot Writing)}

theorem length_le (labels : Labelled names members slots) : slots.length ≤ names.length := by
  induction labels with
  | nil names => exact Nat.zero_le _
  | cons _ _ _ ih => exact Nat.succ_le_succ ih

theorem named (labels : Labelled names members slots) :
    ∀ member ∈ members, (string? member.name).isSome := by
  induction labels with
  | nil names => exact List.forall_mem_nil _
  | cons here _ _ ih => exact List.forall_mem_cons.mpr ⟨by rw [here]; rfl, ih⟩

theorem writtenValues_eq_nil (labels : Labelled names members slots) {name : String}
    (absent : name ∉ names) : writtenValues name members = [] := by
  induction labels with
  | nil names => rfl
  | cons here _ _ ih =>
    rw [List.mem_cons, not_or] at absent
    rw [writtenValues_cons_other here (Ne.symm absent.1), ih absent.2]

/-- What a name holds is the item at the name's place. -/
theorem writtenValues_eq (labels : Labelled names members slots) (distinct : names.Nodup)
    {place : Nat} {name : String} (placed : names[place]? = some name) :
    writtenValues name members = (slots[place]?.map Slot.value).toList := by
  induction labels generalizing place with
  | nil names => rfl
  | @cons first names member members slot slots here held later ih =>
    obtain ⟨fresh, others⟩ := List.nodup_cons.mp distinct
    cases place with
    | zero =>
      cases placed
      rw [writtenValues_cons_named here, later.writtenValues_eq_nil fresh, held]
      rfl
    | succ place =>
      have apart : first ≠ name := fun same => fresh (same ▸ List.mem_of_getElem? placed)
      rw [writtenValues_cons_other here apart, ih others placed]
      rfl

/-- The object can be read whole if the list can. -/
theorem isSome_value?_iff (labels : Labelled names members slots) (opening opening' : List Blank)
    (depth : Nat) : ((Writing.object opening members).value? (depth + 1)).isSome ↔
      ((Writing.array opening' slots).value? (depth + 1)).isSome := by
  rw [isSome_value?_object, value?, Option.isSome_map, isSome_mapM_iff]
  induction labels with
  | nil names => simp
  | cons here held _ ih => simp only [List.forall_mem_cons, ih, here, held, Option.isSome_some,
      true_and]

end Labelled

/-! ## Lists stand for objects -/

/-- An entry written as a list has a path in its first place and may have headings in its second. -/
theorem DocSpec.positional?_eq_some_iff {values : List Writing} {spec : DocSpec} :
    positional? values = some spec ↔ values.length ≤ 2 ∧
      ∃ path sections, once? text? values[0]?.toList = some (some path) ∧
        once? (list? text?) values[1]?.toList = some sections ∧
        ⟨path, sections.getD []⟩ = spec := by
  rcases values with _ | ⟨path, _ | ⟨sections, _ | ⟨other, later⟩⟩⟩
  · simp [positional?, once?]
  · simp [positional?, once?]
  · simp [positional?, once?, Option.bind_eq_some_iff]
  · simp [positional?]

/-- An output written as a list has two places at most, either of which may be left out. -/
theorem OutputSpec.positional?_eq_some_iff {slots : List (Slot Writing)} {output : OutputSpec} :
    positional? slots = some output ↔ slots.length ≤ 2 ∧
      ∃ fixture sections, once? textOrNull? (slots[0]?.map Slot.value).toList = some fixture ∧
        once? (list? text?) (slots[1]?.map Slot.value).toList = some sections ∧
        ⟨fixture.getD none, sections.getD []⟩ = output := by
  rcases slots with _ | ⟨fixture, _ | ⟨sections, _ | ⟨other, later⟩⟩⟩
  · simp [positional?, once?]
  · simp [positional?, once?]
  · simp [positional?, once?, Option.bind_eq_some_iff]
  · simp [positional?]

namespace Lists

variable {writing other : Writing}

/-- An entry written as a list is taken in as the one that it lists. -/
theorem gated_document (lists : Lists .document writing other) :
    Gated True (DocRef.written? writing) (DocRef.written? other) := by
  obtain @⟨opening, opening', members, slots, labels⟩ := lists
  have positive : DocRef.maxDepth = DocRef.maxDepth - 1 + 1 := rfl
  have readable : ((Writing.object opening members).value? DocRef.maxDepth).isSome ↔
      ((Writing.array opening' slots).value? DocRef.maxDepth).isSome := by
    rw [positive]
    exact labels.isSome_value?_iff opening opening' _
  have path : writtenValues "path" members = (slots[0]?.map Slot.value).toList :=
    labels.writtenValues_eq (by decide) rfl
  have sections : writtenValues "requiredSections" members = (slots[1]?.map Slot.value).toList :=
    labels.writtenValues_eq (by decide) rfl
  have few : slots.length ≤ 2 := labels.length_le
  intro entry
  rw [DocRef.written?_object_eq_some_iff, DocRef.written?_array, readable, path, sections]
  simp only [Option.ite_none_right_eq_some, Option.map_eq_some_iff,
    DocSpec.positional?_eq_some_iff, List.getElem?_map, List.length_map, few, true_and]
  refine and_congr_right fun _ => ⟨?_, ?_⟩
  · rintro ⟨_, ⟨path, sections, first, second, rfl⟩, rfl⟩
    exact ⟨path, sections, first, second, rfl⟩
  · rintro ⟨path, sections, first, second, rfl⟩
    exact ⟨_, ⟨path, sections, first, second, rfl⟩, rfl⟩

theorem gated_output (lists : Lists .output writing other) :
    Gated True (OutputSpec.written? writing) (OutputSpec.written? other) := by
  obtain @⟨opening, opening', members, slots, labels⟩ := lists
  have fixture : writtenValues "fixture" members = (slots[0]?.map Slot.value).toList :=
    labels.writtenValues_eq (by decide) rfl
  have sections : writtenValues "requiredSections" members = (slots[1]?.map Slot.value).toList :=
    labels.writtenValues_eq (by decide) rfl
  have few : slots.length ≤ 2 := labels.length_le
  intro output
  rw [OutputSpec.written?_object_eq_some_iff, OutputSpec.written?,
    OutputSpec.positional?_eq_some_iff, fixture, sections, and_iff_right few,
    and_iff_right labels.named, true_and]

theorem gated_manifest (lists : Lists .manifest writing other) :
    Gated True (Manifest.ofWriting? writing) (Manifest.ofWriting? other) := by
  obtain @⟨opening, opening', members, slots, labels⟩ := lists
  have values {place : Nat} {name : String}
      (placed : RecordKind.manifest.known[place]? = some name) :
      Manifest.fieldValues name place (.object opening members) =
        Manifest.fieldValues name place (.array opening' slots) := by
    rw [Manifest.fieldValues_array]
    exact labels.writtenValues_eq (by decide) placed
  have few : slots.length ≤ 3 := labels.length_le
  intro manifest
  rw [Manifest.ofWriting?_eq_some_iff, Manifest.ofWriting?_eq_some_iff, values rfl, values rfl,
    values rfl, Manifest.framed_object_iff, Manifest.framed_array_iff, and_iff_right few,
    and_iff_right labels.named, true_and]

end Lists

/-! ## The shapes -/

/-- A list of values that all have a property. -/
inductive ListOf (holds : Writing → Prop) : Writing → Prop
  | intro (opening : List Blank) {slots : List (Slot Writing)}
      (each : ∀ slot ∈ slots, holds slot.value) : ListOf holds (.array opening slots)

/-- A path, an object with a path in just one member of that name, or a list of a path and perhaps
one more value. -/
inductive DocRef.Shaped : Writing → Prop
  | path (glyphs : List Glyph) : Shaped (.string glyphs)
  | record (opening : List Blank) {members : List (Member Writing)} {glyphs : List Glyph}
      (named : writtenValues "path" members = [.string glyphs]) : Shaped (.object opening members)
  | list (opening : List Blank) {slot : Slot Writing} {slots : List (Slot Writing)}
      {glyphs : List Glyph} (first : slot.value = .string glyphs) (few : slots.length ≤ 1) :
      Shaped (.array opening (slot :: slots))

/-- An object, or a list of at most two values. -/
inductive OutputSpec.Shaped : Writing → Prop
  | record (opening : List Blank) (members : List (Member Writing)) :
      Shaped (.object opening members)
  | list (opening : List Blank) {slots : List (Slot Writing)} (few : slots.length ≤ 2) :
      Shaped (.array opening slots)

/-- An object, or a list of at most three values, in which the documents and the outputs are lists
of such values as can be entries there. -/
structure Manifest.Shaped (writing : Writing) : Prop where
  frame : Framed writing
  docs : ∀ value ∈ fieldValues "docs" 0 writing, ListOf DocRef.Shaped value
  outputs : ∀ value ∈ fieldValues "outputs" 2 writing, ListOf OutputSpec.Shaped value

/-- A value holds another in a place where a record of some kind belongs. -/
inductive Manifest.Holds (writing : Writing) : RecordKind → Writing → Prop
  | manifest : Holds writing .manifest writing
  | document {opening : List Blank} {slots : List (Slot Writing)} {slot : Slot Writing}
      (docs : .array opening slots ∈ fieldValues "docs" 0 writing) (item : slot ∈ slots) :
      Holds writing .document slot.value
  | output {opening : List Blank} {slots : List (Slot Writing)} {slot : Slot Writing}
      (outputs : .array opening slots ∈ fieldValues "outputs" 2 writing) (item : slot ∈ slots) :
      Holds writing .output slot.value

/-- A value is a record written as an object, or the path that stands for one. -/
inductive RecordKind.Written : RecordKind → Writing → Prop
  | manifest (opening : List Blank) (members : List (Member Writing)) :
      Written .manifest (.object opening members)
  | path (glyphs : List Glyph) : Written .document (.string glyphs)
  | document (opening : List Blank) {members : List (Member Writing)} {glyphs : List Glyph}
      (named : writtenValues "path" members = [.string glyphs]) :
      Written .document (.object opening members)
  | output (opening : List Blank) (members : List (Member Writing)) :
      Written .output (.object opening members)

/-- A value is a list. -/
def IsList (writing : Writing) : Prop :=
  ∃ opening slots, writing = .array opening slots

theorem RecordKind.Written.not_isList {kind : RecordKind} {writing : Writing}
    (written : kind.Written writing) : ¬ IsList writing := by
  rintro ⟨opening, slots, rfl⟩
  cases written

theorem DocRef.Shaped.written {writing : Writing} (shaped : Shaped writing)
    (single : ¬ IsList writing) : RecordKind.Written .document writing := by
  cases shaped with
  | path glyphs => exact .path glyphs
  | record opening named => exact .document opening named
  | list opening first few => exact absurd ⟨opening, _, rfl⟩ single

theorem OutputSpec.Shaped.written {writing : Writing} (shaped : Shaped writing)
    (single : ¬ IsList writing) : RecordKind.Written .output writing := by
  cases shaped with
  | record opening members => exact .output opening members
  | list opening few => exact absurd ⟨opening, _, rfl⟩ single

/-- In a value of the shape of a manifest, what is held in place of a record is written as one just
if it is no list. -/
theorem Manifest.Shaped.written_iff {writing value : Writing} {kind : RecordKind}
    (shaped : Shaped writing) (held : Holds writing kind value) :
    kind.Written value ↔ ¬ IsList value := by
  refine ⟨RecordKind.Written.not_isList, fun single => ?_⟩
  cases held with
  | manifest =>
    cases shaped.frame with
    | object opening named => exact .manifest opening _
    | array opening few => exact absurd ⟨opening, _, rfl⟩ single
  | document docs item =>
    cases shaped.docs _ docs with
    | intro opening each => exact (each _ item).written single
  | output outputs item =>
    cases shaped.outputs _ outputs with
    | intro opening each => exact (each _ item).written single

theorem exists_of_once? {α β : Type} {result : α → Option β} {values : List α} {found : Option β}
    (given : once? result values = some found) {value : α} (member : value ∈ values) :
    ∃ made, result value = some made := by
  match values, given with
  | [only], given =>
    obtain ⟨made, here, _⟩ := Option.map_eq_some_iff.mp given
    exact ⟨made, List.mem_singleton.mp member ▸ here⟩

theorem exists_string_of_text? {writing : Writing} {text : String}
    (given : writing.text? = some text) : ∃ glyphs, writing = .string glyphs := by
  cases writing with
  | string glyphs => exact ⟨glyphs, rfl⟩
  | _ => cases given

/-- What is taken in as a list is a list of what its items are. -/
theorem listOf_of_list? {α : Type} {result : Writing → Option α} {holds : Writing → Prop}
    {writing : Writing} {found : List α} (given : writing.list? result = some found)
    (each : ∀ {value made}, result value = some made → holds value) : ListOf holds writing := by
  cases writing with
  | array opening slots =>
    refine .intro opening fun slot member => ?_
    obtain ⟨made, _, here⟩ := exists_of_forall₂_left (mapM_eq_some_iff.mp given) member
    exact each here
  | _ => cases given

/-- What is taken in as an entry has the shape of one. -/
theorem DocRef.shaped_of_written? {writing : Writing} {entry : DocRef}
    (given : written? writing = some entry) : Shaped writing := by
  cases writing with
  | string glyphs => exact .path glyphs
  | object opening members =>
    obtain ⟨_, path, _, once, _⟩ := written?_object_eq_some_iff.mp given
    match values : writtenValues "path" members, once with
    | [value], once =>
      obtain ⟨text, here, _⟩ := Option.map_eq_some_iff.mp once
      obtain ⟨glyphs, rfl⟩ := exists_string_of_text? here
      exact .record opening values
  | array opening slots =>
    rw [written?_array, Option.ite_none_right_eq_some, Option.map_eq_some_iff] at given
    obtain ⟨_, spec, declared, _⟩ := given
    obtain ⟨few, path, _, once, _⟩ := DocSpec.positional?_eq_some_iff.mp declared
    match slots, few, once with
    | slot :: slots, few, once =>
      obtain ⟨text, here, _⟩ := Option.map_eq_some_iff.mp once
      obtain ⟨glyphs, first⟩ := exists_string_of_text? here
      exact .list opening first (by simpa using few)
  | null => cases given
  | bool flag => cases given
  | number figure =>
    unfold written? at given
    obtain ⟨read, kept, shape⟩ := Option.bind_eq_some_iff.mp given
    cases kept_of_value? kept with
    | number => cases shape

theorem OutputSpec.shaped_of_written? {writing : Writing} {output : OutputSpec}
    (given : written? writing = some output) : Shaped writing := by
  cases writing with
  | object opening members => exact .record opening members
  | array opening slots => exact .list opening (positional?_eq_some_iff.mp given).1
  | _ => cases given

namespace Manifest

theorem shaped_of_ofWriting? {writing : Writing} {manifest : Manifest}
    (given : ofWriting? writing = some manifest) : Shaped writing := by
  obtain ⟨frame, docs, references, outputs, first, _, third, _⟩ := ofWriting?_eq_some_iff.mp given
  refine ⟨frame, fun value member => ?_, fun value member => ?_⟩
  · obtain ⟨made, here⟩ := exists_of_once? first member
    exact listOf_of_list? here DocRef.shaped_of_written?
  · obtain ⟨made, here⟩ := exists_of_once? third member
    exact listOf_of_list? here OutputSpec.shaped_of_written?

/-- **The shapes of a manifest.** A text that can be decoded is a value between blanks, and any such
value has the shape of a manifest: what it holds in place of a record is written as one, unless it is
a list. A text in which no value of that shape stands is reported as invalid. A record may be written
as the list of the values of its members: the text is then decoded just as it is with the record as
an object. -/
theorem shapes_exact (text : String) :
    (∀ manifest, ofText text = .ok manifest →
      (∃ before writing after, text = valueText before writing after) ∧
      ∀ before writing after, text = valueText before writing after →
        Shaped writing ∧
        ∀ kind value, Holds writing kind value → (kind.Written value ↔ ¬ IsList value)) ∧
    (∀ (tree : FileTree) (path : Path), tree.readText path = .ok text →
      (∀ before writing after, text = valueText before writing after → ¬ Shaped writing) →
      ∃ reason line column,
        Audit.load tree path = .error (.invalidManifest path reason line column)) ∧
    ∀ before writing after, text = valueText before writing after →
      ∀ (kind : RecordKind) (other : Writing), RecordChanges Lists kind writing other →
        ∀ manifest, ofText (valueText before other after) = .ok manifest ↔
          ofText text = .ok manifest := by
  have shaped {manifest : Manifest} (decoded : ofText text = .ok manifest)
      (before : List Blank) (writing : Writing) (after : List Blank)
      (split : text = valueText before writing after) : Shaped writing := by
    rw [split, ofText_valueText_eq_ok_iff] at decoded
    exact shaped_of_ofWriting? decoded
  refine ⟨fun manifest decoded => ⟨exists_eq_valueText decoded, ?_⟩, ?_, ?_⟩
  · intro before writing after split
    have here := shaped decoded before writing after split
    exact ⟨here, fun kind value => here.written_iff⟩
  · intro tree path read shapeless
    cases given : ofText text with
    | error refusal =>
      exact ⟨refusal.reason, refusal.line, refusal.column, by simp only [Audit.load, read, given]⟩
    | ok manifest =>
      obtain ⟨before, writing, after, split⟩ := exists_eq_valueText given
      exact absurd (shaped given before writing after split) (shapeless before writing after split)
  · intro before writing after split kind other changed manifest
    have same : Gated True (ofWriting? writing) (ofWriting? other) :=
      changed.gated (fun _ => True) Lists.gated_manifest Lists.gated_document Lists.gated_output
    rw [split, ofText_valueText_eq_ok_iff, ofText_valueText_eq_ok_iff, same manifest, true_and]

open Audit (field word)

/-- A manifest that is a list, with one entry of `docs` and one output. -/
def listWriting (entry output : Writing) : Writing :=
  .array [] [⟨[], .array [] [⟨[], entry, []⟩], []⟩, ⟨[], .array [] [], []⟩,
    ⟨[], .array [] [⟨[], output, []⟩], []⟩]

/-- No record in this text is an object, and yet it is decoded. -/
theorem lists_accepted :
    '\x7b' ∉ "[[[\"a\"]],[],[[]]]".toList ∧
    ofText "[[[\"a\"]],[],[[]]]" = .ok ⟨[.record ⟨"a", []⟩], [], [⟨none, []⟩]⟩ := by
  decide +kernel

/-- A tree with a manifest that is a number. -/
def numberTree : FileTree :=
  FileTree.empty.put (.ofString "docs/exercises/m.manifest.json") (.file (Utf8.encode "0".toList))

theorem shapeless_number (before : List Blank) (writing : Writing) (after : List Blank)
    (split : "0" = valueText before writing after) : ¬ Shaped writing := by
  intro shaped
  have inside {c : Char} (member : c ∈ writing.text) : c ∈ "0".toList := by
    rw [split, valueText, String.toList_ofList]
    exact List.mem_append_right _ (List.mem_append_left _ member)
  cases shaped.frame with
  | object opening named =>
    have brace := inside (by rw [Writing.text_object]; exact List.mem_cons_self)
    exact absurd brace (by decide)
  | array opening few =>
    have bracket := inside (by rw [Writing.text_array]; exact List.mem_cons_self)
    exact absurd bracket (by decide)

/-- Records written as lists, and a number in the place of a manifest. -/
theorem shapes_exact_lists :
    (∃ before writing after, "[[[\"a\"]],[],[[]]]" = valueText before writing after ∧
      Shaped writing) ∧
    (∃ reason line column, Audit.load numberTree (.ofString "docs/exercises/m.manifest.json") =
      .error (.invalidManifest (.ofString "docs/exercises/m.manifest.json") reason line column)) ∧
    RecordChanges Lists .document
      (listWriting (.object [] [field "path" (.string (word "a"))]) (.array [] []))
      (listWriting (.array [] [⟨[], .string (word "a"), []⟩]) (.array [] [])) ∧
    ofText "[[\x7b\"path\":\"a\"\x7d],[],[[]]]" =
      .ok ⟨[.record ⟨"a", []⟩], [], [⟨none, []⟩]⟩ := by
  have accepted : ofText "[[[\"a\"]],[],[[]]]" = .ok ⟨[.record ⟨"a", []⟩], [], [⟨none, []⟩]⟩ := by
    decide +kernel
  obtain ⟨shaped, _, _⟩ := shapes_exact "[[[\"a\"]],[],[[]]]"
  obtain ⟨⟨before, writing, after, split⟩, shapes⟩ := shaped _ accepted
  obtain ⟨_, reported, _⟩ := shapes_exact "0"
  obtain ⟨_, _, same⟩ := shapes_exact "[[\x7b\"path\":\"a\"\x7d],[],[[]]]"
  have read : numberTree.readText (.ofString "docs/exercises/m.manifest.json") = .ok "0" := by
    decide +kernel
  have named : string? (word "path") = some "path" := by decide +kernel
  have changed : RecordChanges Lists .document
      (listWriting (.object [] [field "path" (.string (word "a"))]) (.array [] []))
      (listWriting (.array [] [⟨[], .string (word "a"), []⟩]) (.array [] [])) :=
    .document (.list [] [] _ _ rfl (.intro [] [] [] _ (.intro [] [] (.cons named rfl (.nil _)))))
  have lists : valueText []
      (listWriting (.array [] [⟨[], .string (word "a"), []⟩]) (.array [] [])) [] =
      "[[[\"a\"]],[],[[]]]" := by
    simp only [valueText, listWriting, Writing.text, List.map]
    decide +kernel
  have objects : valueText []
      (listWriting (.object [] [field "path" (.string (word "a"))]) (.array [] [])) [] =
        "[[\x7b\"path\":\"a\"\x7d],[],[[]]]" := by
    simp only [valueText, listWriting, field, Writing.text, List.map]
    decide +kernel
  have decodes := same [] _ [] objects.symm _ _ changed ⟨[.record ⟨"a", []⟩], [], [⟨none, []⟩]⟩
  rw [lists] at decodes
  exact ⟨⟨before, writing, after, split, (shapes before writing after split).1⟩,
    reported numberTree _ read shapeless_number, changed, decodes.mp accepted⟩

end Manifest

end ExerciseAudit
