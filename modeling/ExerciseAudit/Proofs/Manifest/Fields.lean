import ExerciseAudit.Proofs.Manifest.Grammar
import ExerciseAudit.Proofs.Manifest.Respelling

/-!
# The fields and records of a manifest

A manifest is written as an object or as the list of the values of its fields. Either way it is
decoded from what is written for each field, and from nothing else
(`Manifest.ofWriting?_eq_some_iff`): in an object that is the value of the member of the field's
name, in a list the value at the field's place. So what a change of one record does to a manifest is
settled by what it does to the record (`RecordChanges.gated`).
-/

namespace ExerciseAudit

open Json Json.Writing

/-! ## What a change leaves of a result -/

section Gated

variable {α β : Type} {grants : Prop}

/-- After a change the same is made of something as before it, if the change is granted, and nothing
if it is not. -/
def Gated (grants : Prop) (before after : Option α) : Prop :=
  ∀ value, after = some value ↔ grants ∧ before = some value

/-- A list is taken in if what precedes an item is, the item, and what follows it. -/
theorem mapM_middle_eq_some_iff {result : α → Option β} {front back : List α} {item : α}
    {values : List β} :
    (front ++ item :: back).mapM result = some values ↔
      ∃ first value last, front.mapM result = some first ∧ result item = some value ∧
        back.mapM result = some last ∧ first ++ value :: last = values := by
  induction front generalizing values with
  | nil => simp [Option.bind_eq_some_iff]
  | cons head front ih =>
    simp only [List.cons_append, mapM_cons_eq, Option.bind_eq_some_iff, Option.map_eq_some_iff, ih]
    constructor
    · rintro ⟨start, here, _, ⟨first, value, last, left, middle, right, rfl⟩, rfl⟩
      exact ⟨start :: first, value, last, ⟨start, here, first, left, rfl⟩, middle, right, rfl⟩
    · rintro ⟨_, value, last, ⟨start, here, first, left, rfl⟩, middle, right, rfl⟩
      exact ⟨start, here, _, ⟨first, value, last, left, middle, right, rfl⟩, rfl⟩

theorem once?_middle_eq_some_iff {result : α → Option β} {front back : List α} {item : α}
    {found : Option β} :
    once? result (front ++ item :: back) = some found ↔
      front = [] ∧ back = [] ∧ ∃ value, result item = some value ∧ some value = found := by
  rcases front with _ | ⟨head, _ | ⟨next, front⟩⟩ <;> rcases back with _ | ⟨later, back⟩ <;>
    simp [once?, Option.map_eq_some_iff]

/-- What decides about one item decides about the list. -/
theorem Gated.mapM (result : α → Option β) {item other : α}
    (gated : Gated grants (result item) (result other)) (front back : List α) :
    Gated grants ((front ++ item :: back).mapM result) ((front ++ other :: back).mapM result) := by
  intro values
  simp only [mapM_middle_eq_some_iff, gated _]
  constructor
  · rintro ⟨first, value, last, left, ⟨granted, middle⟩, right, rfl⟩
    exact ⟨granted, first, value, last, left, middle, right, rfl⟩
  · rintro ⟨granted, first, value, last, left, middle, right, rfl⟩
    exact ⟨first, value, last, left, ⟨granted, middle⟩, right, rfl⟩

/-- What decides about a value decides about it as one that may stand once. -/
theorem Gated.once (result : α → Option β) {item other : α}
    (gated : Gated grants (result item) (result other)) (front back : List α) :
    Gated grants (once? result (front ++ item :: back))
      (once? result (front ++ other :: back)) := by
  intro found
  simp only [once?_middle_eq_some_iff, gated _]
  constructor
  · rintro ⟨first, last, value, ⟨granted, middle⟩, rfl⟩
    exact ⟨granted, first, last, value, middle, rfl⟩
  · rintro ⟨granted, first, last, value, middle, rfl⟩
    exact ⟨first, last, value, ⟨granted, middle⟩, rfl⟩

end Gated

/-! ## Fields -/

/-- The text of a value with blanks around it. -/
def Json.valueText (before : List Blank) (writing : Writing) (after : List Blank) : String :=
  .ofList (spaces before ++ (writing.text ++ spaces after))

namespace Manifest

/-- A text decodes to what the value in it is taken in as. -/
theorem ofText_valueText_eq_ok_iff {before after : List Blank} {writing : Writing}
    {manifest : Manifest} :
    ofText (valueText before writing after) = .ok manifest ↔
      ofWriting? writing = some manifest := by
  rw [← toOption_ofText_written writing before after]
  exact ⟨fun given => by rw [← valueText, given]; rfl, eq_ok_of_toOption⟩

/-- A text that decodes is a value between blanks. -/
theorem exists_eq_valueText {text : String} {manifest : Manifest}
    (decoded : ofText text = .ok manifest) :
    ∃ before writing after, text = valueText before writing after := by
  obtain ⟨before, writing, after, split⟩ := exists_writing_of_ofText decoded
  exact ⟨before, writing, after, by rw [valueText, ← split, String.ofList_toList]⟩

/-- What is written for a field: the values of the members of its name, or in a list the value at
its place. -/
def fieldValues (name : String) (place : Nat) : Writing → List Writing
  | .object _ members => writtenValues name members
  | .array _ slots => ((slots.map Slot.value).drop place).take 1
  | _ => []

/-- In a record written as a list, a field's value stands at its place. -/
theorem fieldValues_array (name : String) (place : Nat) (opening : List Blank)
    (slots : List (Slot Writing)) :
    fieldValues name place (.array opening slots) = (slots[place]?.map Slot.value).toList := by
  rw [fieldValues, List.take_one, List.head?_drop, List.getElem?_map]

/-- An object whose names all spell something, or a list with no more items than fields. -/
inductive Framed : Writing → Prop
  | object (opening : List Blank) {members : List (Member Writing)}
      (named : ∀ member ∈ members, (string? member.name).isSome) : Framed (.object opening members)
  | array (opening : List Blank) {slots : List (Slot Writing)} (few : slots.length ≤ 3) :
      Framed (.array opening slots)

theorem framed_object_iff {opening : List Blank} {members : List (Member Writing)} :
    Framed (.object opening members) ↔ ∀ member ∈ members, (string? member.name).isSome :=
  ⟨fun (.object _ named) => named, .object opening⟩

theorem framed_array_iff {opening : List Blank} {slots : List (Slot Writing)} :
    Framed (.array opening slots) ↔ slots.length ≤ 3 :=
  ⟨fun (.array _ few) => few, .array opening⟩

/-- A manifest is decoded from what is written for its fields. -/
theorem ofWriting?_eq_some_iff {writing : Writing} {manifest : Manifest} :
    ofWriting? writing = some manifest ↔
      Framed writing ∧ OfFields (fieldValues "docs" 0 writing) (fieldValues "references" 1 writing)
        (fieldValues "outputs" 2 writing) manifest := by
  cases writing with
  | object opening members => rw [ofWriting?, written?_eq_some_iff, framed_object_iff]; rfl
  | array opening slots => rw [ofWriting?, positional?_eq_some_iff, framed_array_iff]; rfl
  | _ =>
    refine ⟨fun given => ?_, fun given => ?_⟩
    · cases given
    · cases given.1

end Manifest

/-! ## Records -/

/-- The records of a manifest: itself, the entries of its documents, and its outputs. -/
inductive RecordKind where
  | manifest
  | document
  | output
  deriving DecidableEq

/-- The names of the members that a record has, in the order in which a list gives their values. -/
def RecordKind.known : RecordKind → List String
  | manifest => ["docs", "references", "outputs"]
  | document => ["path", "requiredSections"]
  | output => ["fixture", "requiredSections"]

/-- One item of a list changes. -/
inductive ItemChanges (changes : Writing → Writing → Prop) : Writing → Writing → Prop
  | intro (opening : List Blank) (front back : List (Slot Writing)) (slot : Slot Writing)
      {other : Writing} (here : changes slot.value other) :
      ItemChanges changes (.array opening (front ++ slot :: back))
        (.array opening (front ++ { slot with value := other } :: back))

/-- The value of a field of a manifest changes: of a member of the field's name, or in a list of the
values of all fields the one at the field's place. -/
inductive FieldChanges (name : String) (place : Nat) (changes : Writing → Writing → Prop) :
    Writing → Writing → Prop
  | record (opening : List Blank) (front back : List (Member Writing)) (holder : Member Writing)
      {other : Writing} (named : string? holder.name = some name)
      (here : changes holder.value other) :
      FieldChanges name place changes (.object opening (front ++ holder :: back))
        (.object opening (front ++ { holder with value := other } :: back))
  | list (opening : List Blank) (front back : List (Slot Writing)) (slot : Slot Writing)
      {other : Writing} (placed : front.length = place) (here : changes slot.value other) :
      FieldChanges name place changes (.array opening (front ++ slot :: back))
        (.array opening (front ++ { slot with value := other } :: back))

/-- A record of a manifest changes, and nothing else in it. -/
inductive RecordChanges (changes : RecordKind → Writing → Writing → Prop) :
    RecordKind → Writing → Writing → Prop
  | manifest {writing other : Writing} (here : changes .manifest writing other) :
      RecordChanges changes .manifest writing other
  | document {writing other : Writing}
      (here : FieldChanges "docs" 0 (ItemChanges (changes .document)) writing other) :
      RecordChanges changes .document writing other
  | output {writing other : Writing}
      (here : FieldChanges "outputs" 2 (ItemChanges (changes .output)) writing other) :
      RecordChanges changes .output writing other

section Members

variable {member : Member Writing} {front back : List (Member Writing)} {name : String}

/-- A member of another name does not matter for a field. -/
theorem writtenValues_middle_other (apart : string? member.name ≠ some name) :
    writtenValues name (front ++ member :: back) = writtenValues name (front ++ back) := by
  simp [writtenValues, apart]

/-- A member of the field's name is one of the field's values, at its place among them. -/
theorem writtenValues_middle_named (named : string? member.name = some name) :
    writtenValues name (front ++ member :: back) =
      writtenValues name front ++ member.value :: writtenValues name back := by
  simp [writtenValues, named]

theorem forall_mem_middle {holds : Member Writing → Prop} :
    (∀ other ∈ front ++ member :: back, holds other) ↔
      holds member ∧ ∀ other ∈ front ++ back, holds other := by
  simp only [List.forall_mem_append, List.forall_mem_cons]
  tauto

end Members

/-! ## What a change of a record does -/

variable {writing other : Writing} {grants : Prop}

/-- What decides about an item of a list decides about the list. -/
theorem ItemChanges.gated {α : Type} {changes : Writing → Writing → Prop}
    {result : Writing → Option α} (changed : ItemChanges changes writing other)
    (each : ∀ {value value'}, changes value value' → Gated grants (result value) (result value')) :
    Gated grants (writing.list? result) (other.list? result) := by
  obtain @⟨opening, front, back, slot, value, here⟩ := changed
  rw [list?, list?]
  exact Gated.mapM (fun slot : Slot Writing => result slot.value) (each here) front back

namespace Manifest

variable {docs docs' references outputs outputs' : List Writing}

/-- What decides about the documents decides about the manifest. -/
theorem OfFields.gated_docs
    (gated : Gated grants (once? (list? DocRef.written?) docs)
      (once? (list? DocRef.written?) docs')) (manifest : Manifest) :
    OfFields docs' references outputs manifest ↔
      grants ∧ OfFields docs references outputs manifest := by
  simp only [OfFields, gated _, and_assoc, exists_and_left]

theorem OfFields.gated_outputs
    (gated : Gated grants (once? (list? OutputSpec.written?) outputs)
      (once? (list? OutputSpec.written?) outputs')) (manifest : Manifest) :
    OfFields docs references outputs' manifest ↔
      grants ∧ OfFields docs references outputs manifest := by
  simp only [OfFields, gated _, and_assoc]
  constructor
  · rintro ⟨found, referred, produced, first, second, granted, third, rfl⟩
    exact ⟨granted, found, referred, produced, first, second, third, rfl⟩
  · rintro ⟨granted, found, referred, produced, first, second, third, rfl⟩
    exact ⟨found, referred, produced, first, second, granted, third, rfl⟩

end Manifest

section FieldChanges

variable {name : String} {place : Nat} {changes : Writing → Writing → Prop}

/-- A change inside a field leaves the record's frame as it is. -/
theorem FieldChanges.framed_iff (changed : FieldChanges name place changes writing other) :
    Manifest.Framed other ↔ Manifest.Framed writing := by
  cases changed with
  | record opening front back holder named here =>
    rw [Manifest.framed_object_iff, Manifest.framed_object_iff, forall_mem_middle,
      forall_mem_middle]
  | list opening front back slot placed here =>
    rw [Manifest.framed_array_iff, Manifest.framed_array_iff]
    simp

/-- What is written for other fields stays. -/
theorem FieldChanges.fieldValues_other (changed : FieldChanges name place changes writing other)
    {name' : String} {place' : Nat} (names : name ≠ name') (places : place ≠ place') :
    Manifest.fieldValues name' place' other = Manifest.fieldValues name' place' writing := by
  cases changed with
  | @record opening front back holder value named here =>
    have apart : string? holder.name ≠ some name' :=
      fun same => names (Option.some.inj (named.symm.trans same))
    have apart' : string? { holder with value := value }.name ≠ some name' := apart
    rw [Manifest.fieldValues, Manifest.fieldValues, writtenValues_middle_other apart,
      writtenValues_middle_other apart']
  | @list opening front back slot value placed here =>
    have same : (front ++ { slot with value := value } :: back)[place']? =
        (front ++ slot :: back)[place']? := by
      rcases Nat.lt_or_gt_of_ne places with later | earlier
      · have inside : place' - place = place' - place - 1 + 1 := by omega
        rw [List.getElem?_append_right (by omega), List.getElem?_append_right (by omega), placed,
          inside, List.getElem?_cons_succ, List.getElem?_cons_succ]
      · rw [List.getElem?_append_left (by omega), List.getElem?_append_left (by omega)]
    rw [Manifest.fieldValues_array, Manifest.fieldValues_array, same]

/-- A change inside a field changes one of the field's values, and nothing else. -/
theorem FieldChanges.exists_fieldValues (changed : FieldChanges name place changes writing other) :
    ∃ front back value value', changes value value' ∧
      Manifest.fieldValues name place writing = front ++ value :: back ∧
      Manifest.fieldValues name place other = front ++ value' :: back := by
  cases changed with
  | @record opening front back holder value named here =>
    refine ⟨writtenValues name front, writtenValues name back, holder.value, value, here, ?_, ?_⟩
    · exact writtenValues_middle_named named
    · exact writtenValues_middle_named named
  | @list opening front back slot value placed here =>
    refine ⟨[], [], slot.value, value, here, ?_, ?_⟩
    · simp [Manifest.fieldValues, ← placed]
    · simp [Manifest.fieldValues, ← placed]

end FieldChanges

/-- A manifest is decoded to the same after a change of its documents that is granted. -/
theorem FieldChanges.gated_docs {changes : Writing → Writing → Prop}
    (changed : FieldChanges "docs" 0 changes writing other)
    (each : ∀ {value value'}, changes value value' →
      Gated grants (value.list? DocRef.written?) (value'.list? DocRef.written?)) :
    Gated grants (Manifest.ofWriting? writing) (Manifest.ofWriting? other) := by
  intro manifest
  have references : Manifest.fieldValues "references" 1 other =
      Manifest.fieldValues "references" 1 writing :=
    changed.fieldValues_other (by decide) (by decide)
  have outputs : Manifest.fieldValues "outputs" 2 other =
      Manifest.fieldValues "outputs" 2 writing :=
    changed.fieldValues_other (by decide) (by decide)
  obtain ⟨front, back, value, value', here, before, after⟩ := changed.exists_fieldValues
  rw [Manifest.ofWriting?_eq_some_iff, Manifest.ofWriting?_eq_some_iff, changed.framed_iff,
    references, outputs, before, after,
    Manifest.OfFields.gated_docs (Gated.once _ (each here) front back)]
  exact and_left_comm

/-- A manifest is decoded to the same after a change of its outputs that is granted. -/
theorem FieldChanges.gated_outputs {changes : Writing → Writing → Prop}
    (changed : FieldChanges "outputs" 2 changes writing other)
    (each : ∀ {value value'}, changes value value' →
      Gated grants (value.list? OutputSpec.written?) (value'.list? OutputSpec.written?)) :
    Gated grants (Manifest.ofWriting? writing) (Manifest.ofWriting? other) := by
  intro manifest
  have docs : Manifest.fieldValues "docs" 0 other =
      Manifest.fieldValues "docs" 0 writing :=
    changed.fieldValues_other (by decide) (by decide)
  have references : Manifest.fieldValues "references" 1 other =
      Manifest.fieldValues "references" 1 writing :=
    changed.fieldValues_other (by decide) (by decide)
  obtain ⟨front, back, value, value', here, before, after⟩ := changed.exists_fieldValues
  rw [Manifest.ofWriting?_eq_some_iff, Manifest.ofWriting?_eq_some_iff, changed.framed_iff,
    docs, references, before, after,
    Manifest.OfFields.gated_outputs (Gated.once _ (each here) front back)]
  exact and_left_comm

/-- What a change of a record leaves of the record, it leaves of the manifest. -/
theorem RecordChanges.gated {kind : RecordKind} {changes : RecordKind → Writing → Writing → Prop}
    (granted : RecordKind → Prop) (changed : RecordChanges changes kind writing other)
    (manifests : ∀ {value value'}, changes .manifest value value' →
      Gated (granted .manifest) (Manifest.ofWriting? value) (Manifest.ofWriting? value'))
    (documents : ∀ {value value'}, changes .document value value' →
      Gated (granted .document) (DocRef.written? value) (DocRef.written? value'))
    (outputs : ∀ {value value'}, changes .output value value' →
      Gated (granted .output) (OutputSpec.written? value) (OutputSpec.written? value')) :
    Gated (granted kind) (Manifest.ofWriting? writing) (Manifest.ofWriting? other) := by
  cases changed with
  | manifest here => exact manifests here
  | document here => exact here.gated_docs fun entries => entries.gated documents
  | output here => exact here.gated_outputs fun entries => entries.gated outputs

end ExerciseAudit
