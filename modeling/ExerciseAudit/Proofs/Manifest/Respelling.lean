import ExerciseAudit.Proofs.Json.Alike
import ExerciseAudit.Proofs.Manifest.Decode
import ExerciseAudit.Proofs.Audit.Obligation

/-!
# Manifests in other words

An entry can be spelled in several ways. A document of which no sections are required is a bare path
or a record, a list of sections that is empty may be left out, and so may a fixture that is null or
has no name. Members stand in any order. Manifests that differ in nothing else are decoded to
manifests that declare the same (`Manifest.exists_equivalent_of_respelled`).
-/

namespace ExerciseAudit

open Json Json.Writing

/-- What agrees wherever there is a step agrees along any chain of steps, in either direction. -/
theorem eq_of_eqvGen {α β : Type} {step : α → α → Prop} (view : α → β)
    (agrees : ∀ {first second}, step first second → view first = view second) {first second : α}
    (chain : Relation.EqvGen step first second) : view first = view second :=
  congrArg (Quot.lift view fun _ _ => agrees) (Quot.eqvGen_sound chain)

/-! ## Members of records -/

section Members

variable {α β : Type} {members others : List (Member Writing)}

theorem once?_eq_once? {γ : Type} {f : α → Option γ} {g : β → Option γ} {values : List α}
    {others : List β} (each : List.Forall₂ (fun value other => f value = g other) values others) :
    once? f values = once? g others := by
  rcases each with _ | ⟨here, _ | ⟨_, _⟩⟩
  · rfl
  · rw [once?, once?, here]
  · rfl

theorem map_once? (result : Writing → Option α) (view : α → β) (values : List Writing) :
    (once? result values).map (Option.map view) =
      once? (fun value => (result value).map view) values := by
  rcases values with _ | ⟨value, _ | ⟨_, _⟩⟩
  · rfl
  · simp [once?, Function.comp_def]
  · rfl

/-- Members of one name after the other have the same names and related values. -/
theorem forall₂_writtenValues_of_named {relates : String → Writing → Writing → Prop}
    (names : members.map (string? ·.name) = others.map (string? ·.name))
    (values : List.Forall₂ (fun member other => ∀ name, string? member.name = some name →
      relates name member.value other.value) members others) (name : String) :
    List.Forall₂ (relates name) (writtenValues name members) (writtenValues name others) := by
  induction values with
  | nil => exact .nil
  | @cons member other members others here _ ih =>
    obtain ⟨first, later⟩ := List.cons.inj names
    have rest := ih later
    unfold writtenValues at rest ⊢
    by_cases named : string? member.name = some name
    · have namedOther : string? other.name = some name := first.symm.trans named
      simp only [named, namedOther, decide_true, List.filter_cons_of_pos, List.map_cons]
      exact .cons (here name named) rest
    · have apart : string? other.name ≠ some name := fun same => named (first.trans same)
      simpa [named, apart] using rest

/-- Fields of objects whose members are alike, in any order, hold the same. -/
theorem once?_eq_of_alike {result : Writing → Option α} {middle : List (Member Writing)}
    (each : ∀ {value other : Writing}, Alike value other → result value = result other)
    (order : members.Perm middle)
    (names : middle.map (string? ·.name) = others.map (string? ·.name))
    (values : List.Forall₂ (fun member other => Alike member.value other.value) middle others)
    (name : String) :
    once? result (writtenValues name members) = once? result (writtenValues name others) := by
  have related := forall₂_writtenValues_of_named names
    (values.imp fun _ _ (same : Alike _ _) _ _ => same) name
  rw [once?_perm result (writtenValues_perm order name)]
  exact once?_eq_once? (related.imp fun _ _ => each)

/-- Whether all names are spelled does not depend on their order or spelling. -/
theorem forall_named_iff_of_alike {middle : List (Member Writing)} (order : members.Perm middle)
    (names : middle.map (string? ·.name) = others.map (string? ·.name)) :
    (∀ member ∈ members, (string? member.name).isSome) ↔
      ∀ member ∈ others, (string? member.name).isSome := by
  have same := order.map (string? ·.name)
  have each (members : List (Member Writing)) : (∀ member ∈ members, (string? member.name).isSome) ↔
      ∀ name ∈ members.map (string? ·.name), name.isSome := by simp
  rw [names] at same
  rw [each, each]
  simp only [same.mem_iff]

/-- An object gets one more member, of a name that it does not have. -/
inductive Supplied (name : String) (holds : Writing → Prop) : Writing → Writing → Prop
  | intro {opening : List Blank} {members : List (Member Writing)} {member : Member Writing}
      (absent : writtenValues name members = []) (named : string? member.name = some name)
      (held : holds member.value) :
      Supplied name holds (.object opening members) (.object opening (member :: members))

/-- An empty list. -/
def Vacant (writing : Writing) : Prop :=
  ∃ opening, writing = .array opening []

theorem writtenValues_cons_named {member : Member Writing} {name : String}
    (named : string? member.name = some name) :
    writtenValues name (member :: members) = member.value :: writtenValues name members := by
  simp [writtenValues, named]

theorem writtenValues_cons_other {member : Member Writing} {name other : String}
    (named : string? member.name = some name) (apart : name ≠ other) :
    writtenValues other (member :: members) = writtenValues other members := by
  simp [writtenValues, named, apart]

end Members

/-! ## Entries of documents -/

namespace DocSpec

/-- The document that the values of its members declare, in the order of the members. -/
def positional? : List Writing → Option DocSpec
  | [path] => path.text?.map (⟨·, []⟩)
  | [path, sections] => path.text?.bind fun path => (sections.list? text?).map (⟨path, ·⟩)
  | _ => none

end DocSpec

section Buffer

/-- What is written, by its kind, and what is kept of it when it is read whole. -/
inductive Kept (depth : Nat) : Writing → Value → Prop
  | null : Kept depth .null .null
  | bool (value : Bool) : Kept depth (.bool value) (.bool value)
  | number (figure : Figure) (number : Json.Number) : Kept depth (.number figure) (.number number)
  | string {glyphs : List Glyph} {text : String} (spelled : string? glyphs = some text) :
      Kept depth (.string glyphs) (.string text)
  | array (opening : List Blank) {items : List (Slot Writing)} {reads : List Value}
      (each : List.Forall₂ (fun slot read => slot.value.value? (depth - 1) = some read)
        items reads) :
      Kept depth (.array opening items) (.array reads)
  | object (opening : List Blank) {members : List (Member Writing)} {reads : List (String × Value)}
      (each : Spelled (value? (depth - 1)) members reads) :
      Kept depth (.object opening members) (.object reads)

variable {writing : Writing} {read : Value} {depth : Nat}

/-- An object can be buffered if its names are spelled and its values can be. -/
theorem isSome_value?_object {opening : List Blank} {members : List (Member Writing)} :
    ((Writing.object opening members).value? (depth + 1)).isSome ↔
      ∀ member ∈ members, (string? member.name).isSome ∧ (member.value.value? depth).isSome := by
  rw [value?, Option.isSome_map, isSome_mapM_iff]
  refine forall₂_congr fun member _ => ?_
  cases string? member.name <;> simp

/-- What is buffered keeps the parts of what is written. -/
theorem kept_of_value? (given : writing.value? depth = some read) : Kept depth writing read := by
  cases writing with
  | null =>
    rw [value?, Option.some.injEq] at given
    rw [← given]
    exact .null
  | bool flag =>
    rw [value?, Option.some.injEq] at given
    rw [← given]
    exact .bool flag
  | number figure =>
    rw [value?, Option.map_eq_some_iff] at given
    obtain ⟨number, _, rfl⟩ := given
    exact .number figure number
  | string glyphs =>
    rw [value?, Option.map_eq_some_iff] at given
    obtain ⟨text, spelled, rfl⟩ := given
    exact .string spelled
  | array opening items =>
    cases depth with
    | zero => cases given
    | succ depth =>
      rw [value?, Option.map_eq_some_iff] at given
      obtain ⟨reads, kept, rfl⟩ := given
      exact .array opening (mapM_eq_some_iff.mp kept)
  | object opening members =>
    cases depth with
    | zero => cases given
    | succ depth =>
      rw [value?, Option.map_eq_some_iff] at given
      obtain ⟨reads, kept, rfl⟩ := given
      exact .object opening (mapM_pair_eq_some_iff.mp kept)

/-- A text is buffered as itself, and nothing else is buffered as it. -/
theorem eq_string_iff_of_value? (given : writing.value? depth = some read) (text : String) :
    read = .string text ↔ writing.text? = some text := by
  cases kept_of_value? given with
  | string spelled => simp [text?, spelled]
  | _ => simp [text?]

theorem eq_singleton_string_iff_of_value? {values : List Writing} {reads : List Value}
    (each : List.Forall₂ (fun value read => value.value? depth = some read) values reads)
    (text : String) : reads = [.string text] ↔ once? text? values = some (some text) := by
  rcases each with _ | ⟨here, _ | ⟨_, _⟩⟩
  · simp [once?]
  · simpa [once?] using eq_string_iff_of_value? here text
  · simp [once?]

theorem textsOf?_of_value? (given : writing.value? depth = some read) :
    textsOf? read = writing.list? text? := by
  cases kept_of_value? given with
  | array opening each =>
    refine (mapM_eq_mapM (each.imp fun slot read kept => ?_)).symm
    apply Option.ext
    intro text
    rw [← eq_string_iff_of_value? kept text]
    cases read <;> simp
  | _ => rfl

theorem ofValue?_array {values : List Writing} {reads : List Value}
    (each : List.Forall₂ (fun value read => value.value? depth = some read) values reads) :
    DocSpec.ofValue? (.array reads) = DocSpec.positional? values := by
  rcases each with _ | ⟨path, _ | ⟨sections, _ | ⟨_, _⟩⟩⟩
  · rfl
  · cases kept_of_value? path with
    | string spelled => simp [DocSpec.ofValue?, DocSpec.positional?, text?, spelled]
    | _ => rfl
  · cases kept_of_value? path with
    | string spelled =>
      simp [DocSpec.ofValue?, DocSpec.positional?, text?, spelled, textsOf?_of_value? sections]
    | _ => rfl
  · cases kept_of_value? path <;> rfl

end Buffer

namespace DocRef

variable {writing other : Writing} {opening : List Blank} {members : List (Member Writing)}

/-- A written object declares a document if it can be read whole and its fields are given as they
should be. -/
theorem written?_object_eq_some_iff {entry : DocRef} :
    written? (.object opening members) = some entry ↔
      ((Writing.object opening members).value? maxDepth).isSome ∧
      ∃ path sections, once? text? (writtenValues "path" members) = some (some path) ∧
        once? (list? text?) (writtenValues "requiredSections" members) = some sections ∧
        .record ⟨path, sections.getD []⟩ = entry := by
  unfold written?
  cases given : (Writing.object opening members).value? maxDepth with
  | none => simp
  | some read =>
    cases kept_of_value? given with
    | @object _ _ reads spelled =>
      have path (text : String) : membersOf "path" reads = [.string text] ↔
          once? text? (writtenValues "path" members) = some (some text) :=
        eq_singleton_string_iff_of_value? (forall₂_writtenValues spelled _) text
      have sections : once? textsOf? (membersOf "requiredSections" reads) =
          once? (list? text?) (writtenValues "requiredSections" members) :=
        (once?_eq_once? ((forall₂_writtenValues spelled _).imp fun _ _ kept =>
          (textsOf?_of_value? kept).symm)).symm
      simp only [Option.bind_some, Option.isSome_some, true_and, ofValue?, DocSpec.ofValue?,
        Option.map_eq_some_iff, DocSpec.ofMembers?_eq_some_iff, path, sections]
      constructor
      · intro found
        rcases found with ⟨_, ⟨text, required, named, once, rfl⟩, rfl⟩
        exact ⟨text, required, named, once, rfl⟩
      · intro found
        rcases found with ⟨text, required, named, once, rfl⟩
        exact ⟨_, ⟨text, required, named, once, rfl⟩, rfl⟩

/-- An entry written as a list has to be one that can be buffered. -/
theorem written?_array (slots : List (Slot Writing)) :
    written? (.array opening slots) =
      if ((Writing.array opening slots).value? maxDepth).isSome then
        (DocSpec.positional? (slots.map Slot.value)).map .record else none := by
  unfold written?
  cases given : (Writing.array opening slots).value? maxDepth with
  | none => rfl
  | some read =>
    cases kept_of_value? given with
    | array _ each =>
      rw [← ofValue?_array (List.forall₂_map_left_iff.mpr each)]
      rfl

/-- Entries that are written alike are taken in alike. -/
theorem written?_eq_of_alike (same : Alike writing other) : written? writing = written? other := by
  have readable := same.isSome_value? maxDepth
  cases same with
  | null => rfl
  | bool flag => rfl
  | number figure => rfl
  | string same =>
    unfold written?
    simp only [value?, same]
  | @array opening opening' items others each =>
    have declared : DocSpec.positional? (items.map Slot.value) =
        DocSpec.positional? (others.map Slot.value) := by
      rcases each with _ | ⟨path, _ | ⟨sections, _ | ⟨_, _⟩⟩⟩
      · rfl
      · simp [DocSpec.positional?, path.text?_eq]
      · simp [DocSpec.positional?, path.text?_eq, sections.texts?_eq]
      · rfl
    rw [written?_array, written?_array, readable, declared]
  | object order names values =>
    apply Option.ext
    intro entry
    rw [written?_object_eq_some_iff, written?_object_eq_some_iff, readable,
      once?_eq_of_alike Alike.text?_eq order names values,
      once?_eq_of_alike Alike.texts?_eq order names values]

/-- One step from a spelling of an entry to another. -/
inductive Step : Writing → Writing → Prop
  | alike {writing other : Writing} (same : Alike writing other) : Step writing other
  | bare {glyphs : List Glyph} {member : Member Writing} (opening : List Blank)
      (named : string? member.name = some "path") (held : member.value = .string glyphs) :
      Step (.string glyphs) (.object opening [member])
  | sections {writing other : Writing}
      (supplied : Supplied "requiredSections" Vacant writing other) : Step writing other

/-- An entry is another spelling of an entry. -/
def Respelled : Writing → Writing → Prop :=
  Relation.EqvGen Step

/-- What an entry written as an object asks for: its one path, and its headings if it has some. -/
theorem map_spec_written?_object_eq_some_iff {spec : DocSpec} :
    (written? (.object opening members)).map DocRef.spec = some spec ↔
      ((Writing.object opening members).value? maxDepth).isSome ∧
      ∃ path sections, once? text? (writtenValues "path" members) = some (some path) ∧
        once? (list? text?) (writtenValues "requiredSections" members) = some sections ∧
        ⟨path, sections.getD []⟩ = spec := by
  simp only [Option.map_eq_some_iff, written?_object_eq_some_iff]
  constructor
  · intro given
    rcases given with ⟨_, ⟨readable, path, sections, named, once, rfl⟩, rfl⟩
    exact ⟨readable, path, sections, named, once, rfl⟩
  · intro given
    rcases given with ⟨readable, path, sections, named, once, rfl⟩
    exact ⟨_, ⟨readable, path, sections, named, once, rfl⟩, rfl⟩

theorem isSome_value?_cons {member : Member Writing} (named : (string? member.name).isSome)
    (held : (member.value.value? (maxDepth - 1)).isSome) :
    ((Writing.object opening (member :: members)).value? maxDepth).isSome ↔
      ((Writing.object opening members).value? maxDepth).isSome := by
  have positive : maxDepth = maxDepth - 1 + 1 := rfl
  rw [positive, isSome_value?_object, isSome_value?_object, List.forall_mem_cons,
    and_iff_right ⟨named, held⟩]

theorem written?_string (glyphs : List Glyph) :
    written? (.string glyphs) = (string? glyphs).map .path := by
  rw [written?, value?]
  cases string? glyphs <;> rfl

/-- One rewrite of an entry leaves what it asks for as it is. -/
theorem map_spec_eq_of_step (step : Step writing other) :
    (written? writing).map DocRef.spec = (written? other).map DocRef.spec := by
  apply Option.ext
  intro spec
  cases step with
  | alike same => rw [written?_eq_of_alike same]
  | @bare glyphs member opening named held =>
    have nothing (name : String) : writtenValues name [] = [] := rfl
    rw [map_spec_written?_object_eq_some_iff, written?_string, writtenValues_cons_named named,
      writtenValues_cons_other named (by decide), held, nothing, nothing]
    cases text : string? glyphs with
    | none => simp [once?, text?, text]
    | some path =>
      have readable : ((Writing.object opening [member]).value? maxDepth).isSome := by
        have value : (member.value.value? (maxDepth - 1)).isSome := by
          rw [held, value?, text]
          rfl
        rw [isSome_value?_cons (by rw [named]; rfl) value]
        rfl
      simp [once?, text?, text, readable, DocRef.spec]
  | sections supplied =>
    obtain @⟨opening, members, member, absent, named, blanks, held⟩ := supplied
    have readable : (member.value.value? (maxDepth - 1)).isSome := by
      have positive : maxDepth - 1 = maxDepth - 2 + 1 := rfl
      rw [held, positive, value?]
      rfl
    rw [map_spec_written?_object_eq_some_iff, map_spec_written?_object_eq_some_iff,
      isSome_value?_cons (by rw [named]; rfl) readable,
      writtenValues_cons_named named, writtenValues_cons_other named (by decide), absent, held]
    simp [once?, list?]

theorem Respelled.map_spec_eq (same : Respelled writing other) :
    (written? writing).map DocRef.spec = (written? other).map DocRef.spec :=
  eq_of_eqvGen (fun writing => (written? writing).map DocRef.spec) map_spec_eq_of_step same

end DocRef

/-! ## Entries of outputs -/

namespace OutputSpec

variable {writing other : Writing} {opening : List Blank} {members : List (Member Writing)}

/-- A fixture that is none: null, or a path without a character. -/
inductive NoFixture : Writing → Prop
  | null : NoFixture .null
  | empty {glyphs : List Glyph} (spelled : string? glyphs = some "") : NoFixture (.string glyphs)

/-- What stands for no fixture asks for no document. -/
theorem NoFixture.exists_textOrNull? (held : NoFixture writing) :
    ∃ fixture, writing.textOrNull? = some fixture ∧
      ∀ sections, document? ⟨fixture, sections⟩ = document? ⟨none, sections⟩ := by
  cases held with
  | null => exact ⟨none, rfl, fun _ => rfl⟩
  | empty spelled =>
    exact ⟨some "", by simp [textOrNull?, text?, spelled], fun _ => rfl⟩

/-- One step from a spelling of an entry to another. -/
inductive Step : Writing → Writing → Prop
  | alike {writing other : Writing} (same : Alike writing other) : Step writing other
  | fixture {writing other : Writing} (supplied : Supplied "fixture" NoFixture writing other) :
      Step writing other
  | sections {writing other : Writing}
      (supplied : Supplied "requiredSections" Vacant writing other) : Step writing other

/-- An entry is another spelling of an entry. -/
def Respelled : Writing → Writing → Prop :=
  Relation.EqvGen Step

theorem written?_eq_of_alike (same : Alike writing other) : written? writing = written? other := by
  cases same with
  | array each =>
    rcases each with _ | ⟨fixture, _ | ⟨sections, _ | ⟨_, _⟩⟩⟩
    · rfl
    · simp [written?, positional?, fixture.textOrNull?_eq]
    · simp [written?, positional?, fixture.textOrNull?_eq, sections.texts?_eq]
    · rfl
  | object order names values =>
    apply Option.ext
    intro output
    rw [written?_object_eq_some_iff, written?_object_eq_some_iff,
      forall_named_iff_of_alike order names,
      once?_eq_of_alike Alike.textOrNull?_eq order names values,
      once?_eq_of_alike Alike.texts?_eq order names values]
  | _ => rfl

/-- What an output written as an object asks for: its fixture, if it names one, with its headings.
-/
theorem map_document?_written?_object_eq_some_iff {found : Option DocSpec} :
    (written? (.object opening members)).map document? = some found ↔
      (∀ member ∈ members, (string? member.name).isSome) ∧
      ∃ fixture sections,
        once? textOrNull? (writtenValues "fixture" members) = some fixture ∧
        once? (list? text?) (writtenValues "requiredSections" members) = some sections ∧
        document? ⟨fixture.getD none, sections.getD []⟩ = found := by
  simp only [Option.map_eq_some_iff, written?_object_eq_some_iff]
  constructor
  · intro given
    rcases given with ⟨_, ⟨named, fixture, sections, first, second, rfl⟩, rfl⟩
    exact ⟨named, fixture, sections, first, second, rfl⟩
  · intro given
    rcases given with ⟨named, fixture, sections, first, second, rfl⟩
    exact ⟨_, ⟨named, fixture, sections, first, second, rfl⟩, rfl⟩

theorem map_document?_eq_of_step (step : Step writing other) :
    (written? writing).map document? = (written? other).map document? := by
  apply Option.ext
  intro found
  cases step with
  | alike same => rw [written?_eq_of_alike same]
  | fixture supplied =>
    obtain @⟨opening, members, member, absent, named, held⟩ := supplied
    obtain ⟨fixture, given, nothing⟩ := held.exists_textOrNull?
    rw [map_document?_written?_object_eq_some_iff, map_document?_written?_object_eq_some_iff,
      List.forall_mem_cons, writtenValues_cons_named named,
      writtenValues_cons_other named (by decide), absent, named]
    simp [once?, given, nothing]
  | sections supplied =>
    obtain @⟨opening, members, member, absent, named, blanks, held⟩ := supplied
    rw [map_document?_written?_object_eq_some_iff, map_document?_written?_object_eq_some_iff,
      List.forall_mem_cons, writtenValues_cons_named named,
      writtenValues_cons_other named (by decide), absent, named, held]
    simp [once?, list?]

theorem Respelled.map_document?_eq (same : Respelled writing other) :
    (written? writing).map document? = (written? other).map document? :=
  eq_of_eqvGen (fun writing => (written? writing).map document?) map_document?_eq_of_step same

end OutputSpec

/-! ## Manifests -/

namespace Manifest

/-- The value of a member of a manifest is another spelling of a value: entries are spelled in other
ways in it, or it is written in another way. -/
inductive FieldRespelled : String → Writing → Writing → Prop
  | docs {opening opening' : List Blank} {items others : List (Slot Writing)}
      (each : List.Forall₂ (fun item other => DocRef.Respelled item.value other.value)
        items others) :
      FieldRespelled "docs" (.array opening items) (.array opening' others)
  | outputs {opening opening' : List Blank} {items others : List (Slot Writing)}
      (each : List.Forall₂ (fun item other => OutputSpec.Respelled item.value other.value)
        items others) :
      FieldRespelled "outputs" (.array opening items) (.array opening' others)
  | alike {name : String} {writing other : Writing} (same : Alike writing other) :
      FieldRespelled name writing other

/-- The values of members, in the order of their names. -/
inductive FieldsRespelled : List String → List (Slot Writing) → List (Slot Writing) → Prop
  | nil (names : List String) : FieldsRespelled names [] []
  | cons {name : String} {names : List String} {slot slot' : Slot Writing}
      {slots slots' : List (Slot Writing)} (here : FieldRespelled name slot.value slot'.value)
      (later : FieldsRespelled names slots slots') :
      FieldsRespelled (name :: names) (slot :: slots) (slot' :: slots')

/-- A manifest is another spelling of a manifest: any number of its entries are, and its members
stand in any order. -/
inductive Respelled : Writing → Writing → Prop
  | record {opening opening' : List Blank} {members middle others : List (Member Writing)}
      (order : members.Perm middle)
      (names : middle.map (string? ·.name) = others.map (string? ·.name))
      (values : List.Forall₂ (fun member other => ∀ name, string? member.name = some name →
        FieldRespelled name member.value other.value) middle others) :
      Respelled (.object opening members) (.object opening' others)
  | list {opening opening' : List Blank} {slots others : List (Slot Writing)}
      (values : FieldsRespelled ["docs", "references", "outputs"] slots others) :
      Respelled (.array opening slots) (.array opening' others)

/-- Two manifests declare the same documents, references and fixtures. -/
structure Equivalent (first second : Manifest) : Prop where
  docs : first.docs.map DocRef.spec = second.docs.map DocRef.spec
  references : first.references = second.references
  fixtures : first.outputs.filterMap OutputSpec.document? =
    second.outputs.filterMap OutputSpec.document?

/-- Rewritten documents ask for the same. -/
theorem FieldRespelled.docs?_eq {name : String} {writing other : Writing}
    (same : FieldRespelled name writing other) (named : name = "docs") :
    (writing.list? DocRef.written?).map (List.map DocRef.spec) =
      (other.list? DocRef.written?).map (List.map DocRef.spec) := by
  cases same with
  | docs each =>
    rw [list?, list?, map_mapM, map_mapM]
    exact mapM_eq_mapM (each.imp fun _ _ => DocRef.Respelled.map_spec_eq)
  | outputs _ => exact absurd named (by decide)
  | alike same => exact same.list?_eq fun item => by rw [DocRef.written?_eq_of_alike item]

theorem FieldRespelled.outputs?_eq {name : String} {writing other : Writing}
    (same : FieldRespelled name writing other) (named : name = "outputs") :
    (writing.list? OutputSpec.written?).map (List.map OutputSpec.document?) =
      (other.list? OutputSpec.written?).map (List.map OutputSpec.document?) := by
  cases same with
  | docs _ => exact absurd named (by decide)
  | outputs each =>
    rw [list?, list?, map_mapM, map_mapM]
    exact mapM_eq_mapM (each.imp fun _ _ => OutputSpec.Respelled.map_document?_eq)
  | alike same => exact same.list?_eq fun item => by rw [OutputSpec.written?_eq_of_alike item]

theorem FieldRespelled.references?_eq {name : String} {writing other : Writing}
    (same : FieldRespelled name writing other) (named : name = "references") :
    writing.list? text? = other.list? text? := by
  cases same with
  | docs _ => exact absurd named (by decide)
  | outputs _ => exact absurd named (by decide)
  | alike same => exact same.texts?_eq

/-- A manifest is made of the values that are given for its fields. -/
def OfFields (docs references outputs : List Writing) (manifest : Manifest) : Prop :=
  ∃ found referred produced, once? (list? DocRef.written?) docs = some found ∧
    once? (list? text?) references = some referred ∧
    once? (list? OutputSpec.written?) outputs = some produced ∧
    ⟨found.getD [], referred.getD [], produced.getD []⟩ = manifest

/-- A manifest written as a list has three places at most, one for each field. -/
theorem positional?_eq_some_iff {slots : List (Slot Writing)} {manifest : Manifest} :
    positional? slots = some manifest ↔ slots.length ≤ 3 ∧
      OfFields ((slots.map Slot.value).take 1) (((slots.map Slot.value).drop 1).take 1)
        (((slots.map Slot.value).drop 2).take 1) manifest := by
  unfold positional? OfFields
  rcases slots with _ | ⟨docs, _ | ⟨references, _ | ⟨outputs, _ | ⟨other, later⟩⟩⟩⟩
  · simp [item?, itemBehind?, once?]
  · simp [item?, itemBehind?, once?, Option.bind_eq_some_iff]
  · simp [item?, itemBehind?, once?, Option.bind_eq_some_iff]
  · simp [item?, itemBehind?, once?, Option.bind_eq_some_iff]
  · simp [item?, itemBehind?, Option.bind_eq_some_iff]

theorem getD_map_nil {α β : Type} (view : α → β) (found : Option (List α)) :
    (found.getD []).map view = (found.map (List.map view)).getD [] := by
  cases found <;> rfl

variable {writing other : Writing} {manifest : Manifest}

/-- Rewriting the places of a list rewrites each field in its place. -/
theorem fields_of_fieldsRespelled {slots others : List (Slot Writing)}
    (values : FieldsRespelled ["docs", "references", "outputs"] slots others) :
    slots.length = others.length ∧
      List.Forall₂ (FieldRespelled "docs") ((slots.map Slot.value).take 1)
        ((others.map Slot.value).take 1) ∧
      List.Forall₂ (FieldRespelled "references") (((slots.map Slot.value).drop 1).take 1)
        (((others.map Slot.value).drop 1).take 1) ∧
      List.Forall₂ (FieldRespelled "outputs") (((slots.map Slot.value).drop 2).take 1)
        (((others.map Slot.value).drop 2).take 1) := by
  rcases values with _ | ⟨docs, _ | ⟨references, _ | ⟨outputs, _ | _⟩⟩⟩
  · simp
  · simp [docs]
  · simp [docs, references]
  · simp [docs, references, outputs]

/-- Manifests whose fields are spelled in other ways declare the same. -/
theorem exists_equivalent_of_fields
    {docs docs' references references' outputs outputs' : List Writing}
    (sameDocs : List.Forall₂ (FieldRespelled "docs") docs docs')
    (sameReferences : List.Forall₂ (FieldRespelled "references") references references')
    (sameOutputs : List.Forall₂ (FieldRespelled "outputs") outputs outputs')
    (given : OfFields docs references outputs manifest) :
    ∃ manifest', OfFields docs' references' outputs' manifest' ∧ manifest.Equivalent manifest' := by
  obtain ⟨found, referred, produced, first, second, third, rfl⟩ := given
  have documents : (once? (list? DocRef.written?) docs').map (Option.map (List.map DocRef.spec)) =
      some (found.map (List.map DocRef.spec)) := by
    rw [← Option.map_some, ← first, map_once?, map_once?]
    exact (once?_eq_once? (sameDocs.imp fun _ _ same => same.docs?_eq rfl)).symm
  have fixtures : (once? (list? OutputSpec.written?) outputs').map
      (Option.map (List.map OutputSpec.document?)) =
        some (produced.map (List.map OutputSpec.document?)) := by
    rw [← Option.map_some, ← third, map_once?, map_once?]
    exact (once?_eq_once? (sameOutputs.imp fun _ _ same => same.outputs?_eq rfl)).symm
  rw [once?_eq_once? (sameReferences.imp fun _ _ same => same.references?_eq rfl)] at second
  obtain ⟨found', first', docsEq⟩ := Option.map_eq_some_iff.mp documents
  obtain ⟨produced', third', outputsEq⟩ := Option.map_eq_some_iff.mp fixtures
  refine ⟨_, ⟨found', referred, produced', first', second, third', rfl⟩, ?_, rfl, ?_⟩
  · simp only [getD_map_nil, docsEq]
  · have id (outputs : List OutputSpec) : outputs.filterMap OutputSpec.document? =
        (outputs.map OutputSpec.document?).filterMap id := by simp [List.filterMap_map]
    simp only [id, getD_map_nil, outputsEq]

/-- **Spellings of one manifest declare the same.** If a manifest can be decoded, so can any other
spelling of it, and the two declare the same. -/
theorem exists_equivalent_of_respelled (same : Respelled writing other)
    (given : ofWriting? writing = some manifest) :
    ∃ manifest', ofWriting? other = some manifest' ∧ manifest.Equivalent manifest' := by
  cases same with
  | @record _ _ members middle others order names values =>
    have related := forall₂_writtenValues_of_named names values
    obtain ⟨named, fields⟩ := written?_eq_some_iff.mp given
    simp only [once?_perm _ (writtenValues_perm order _)] at fields
    obtain ⟨manifest', fields', equivalent⟩ :=
      exists_equivalent_of_fields (related "docs") (related "references") (related "outputs") fields
    exact ⟨manifest', written?_eq_some_iff.mpr
      ⟨(forall_named_iff_of_alike order names).mp named, fields'⟩, equivalent⟩
  | @list _ _ slots others values =>
    obtain ⟨few, fields⟩ := positional?_eq_some_iff.mp given
    obtain ⟨length, docs, references, outputs⟩ := fields_of_fieldsRespelled values
    obtain ⟨manifest', fields', equivalent⟩ :=
      exists_equivalent_of_fields docs references outputs fields
    exact ⟨manifest', positional?_eq_some_iff.mpr ⟨length ▸ few, fields'⟩, equivalent⟩

end Manifest

end ExerciseAudit
