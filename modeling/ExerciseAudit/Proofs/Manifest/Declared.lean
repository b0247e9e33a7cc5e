import ExerciseAudit.Manifest.Basic
import ExerciseAudit.Proofs.Json.Datum

/-!
# What a JSON value declares

The shape of a manifest as a relation between JSON values and manifests. A record is an object; what
its members are called decides what they are for, and a member that is called otherwise is not
looked at. The relation says nothing about texts, and the order of members has no part in it
(`Manifest.stable_declared`).
-/

namespace ExerciseAudit

open Json

namespace Json.Datum

section Shapes

variable {α : Type}

/-- A string holds a text. -/
inductive IsText : Datum → String → Prop
  | intro (text : String) : IsText (string text) text

/-- A string holds a text, and null holds none. -/
inductive IsTextOrNull : Datum → Option String → Prop
  | null : IsTextOrNull null none
  | text (text : String) : IsTextOrNull (string text) (some text)

/-- An array holds a list, item by item. -/
inductive IsList (holds : Datum → α → Prop) : Datum → List α → Prop
  | intro {items : List Datum} {results : List α} (each : List.Forall₂ holds items results) :
      IsList holds (array items) results

/-- What the members of a name hold, if a record may have one such member or none. -/
inductive AtMostOnce (holds : Datum → α → Prop) : List Datum → Option α → Prop
  | absent : AtMostOnce holds [] none
  | present {value : Datum} {result : α} (here : holds value result) :
      AtMostOnce holds [value] (some result)

end Shapes

end Json.Datum

open Json.Datum

/-- An entry of `docs`: a path, or a record with exactly one path and at most one list of
sections. -/
inductive DocRef.Declared : Datum → DocRef → Prop
  | path (path : String) : Declared (.string path) (.path path)
  | record {members : List (String × Datum)} {path : String} {sections : Option (List String)}
      (named : valuesOf "path" members = [.string path])
      (required : AtMostOnce (IsList IsText) (valuesOf "requiredSections" members) sections) :
      Declared (.object members) (.record ⟨path, sections.getD []⟩)

/-- An entry of `outputs`: a record with at most one fixture, which may be null, and at most one
list of sections. -/
inductive OutputSpec.Declared : Datum → OutputSpec → Prop
  | record {members : List (String × Datum)} {fixture : Option (Option String)}
      {sections : Option (List String)}
      (given : AtMostOnce IsTextOrNull (valuesOf "fixture" members) fixture)
      (required : AtMostOnce (IsList IsText) (valuesOf "requiredSections" members) sections) :
      Declared (.object members) ⟨fixture.getD none, sections.getD []⟩

/-- A manifest: a record with at most one list of documents, of references and of outputs. -/
inductive Manifest.Declared : Datum → Manifest → Prop
  | record {members : List (String × Datum)} {docs : Option (List DocRef)}
      {references : Option (List String)} {outputs : Option (List OutputSpec)}
      (documents : AtMostOnce (IsList DocRef.Declared) (valuesOf "docs" members) docs)
      (referred : AtMostOnce (IsList IsText) (valuesOf "references" members) references)
      (produced : AtMostOnce (IsList OutputSpec.Declared) (valuesOf "outputs" members) outputs) :
      Declared (.object members) ⟨docs.getD [], references.getD [], outputs.getD []⟩

/-- No array stands where a manifest, a record of `docs` or a record of `outputs` is expected. -/
def Manifest.RecordShaped : Datum → Prop
  | .array _ => False
  | .object members => ∀ name ∈ ["docs", "outputs"], ∀ items, .array items ∈ valuesOf name members →
      ∀ inner, .array inner ∉ items
  | _ => True

/-! ## The order of members -/

/-- The order of members in a value has no influence on what is made of it. -/
def Stable {α : Type} (holds : Datum → α → Prop) : Prop :=
  ∀ {value other : Datum}, Rearranged value other → ∀ {result : α}, holds value result →
    holds other result

section Stable

variable {α : Type} {holds : Datum → α → Prop}

theorem stable_isText : Stable IsText := by
  rintro value other same result ⟨⟩
  rw [same.eq_of_scalar (by simp) (by simp)]
  exact .intro result

theorem stable_isTextOrNull : Stable IsTextOrNull := by
  intro value other same result kind
  cases kind with
  | null =>
    rw [same.eq_of_scalar (by simp) (by simp)]
    exact .null
  | text text =>
    rw [same.eq_of_scalar (by simp) (by simp)]
    exact .text text

theorem stable_isList (stable : Stable holds) : Stable (IsList holds) := by
  intro value other same results given
  rcases given with ⟨each⟩
  obtain ⟨others, rfl, items⟩ := same.array_left rfl
  exact .intro (forall₂_of_common items each fun _ _ _ here => stable here)

/-- What is declared at most once is so whatever the order of the members. -/
theorem stable_atMostOnce (stable : Stable holds) {values others : List Datum}
    (same : Multiset.Rel Rearranged values others) {result : Option α}
    (once : AtMostOnce holds values result) : AtMostOnce holds others result := by
  cases once with
  | absent =>
    rw [Multiset.coe_nil, Multiset.rel_zero_left, Multiset.coe_eq_zero] at same
    rw [same]
    exact .absent
  | present here =>
    obtain ⟨other, rfl, inner⟩ := rel_singleton_left same
    exact .present (stable inner here)

end Stable

/-- What an entry declares is not changed by rearranging. -/
theorem DocRef.stable_declared : Stable DocRef.Declared := by
  intro value other same entry given
  rcases given with path | ⟨named, required⟩
  · rw [same.eq_of_scalar (by simp) (by simp)]
    exact .path path
  · obtain ⟨others, rfl, holds⟩ := same.object_left rfl
    have path := holds "path"
    rw [named] at path
    obtain ⟨value, single, inner⟩ := rel_singleton_left path
    rw [inner.eq_of_scalar (by simp) (by simp)] at single
    exact .record single (stable_atMostOnce (stable_isList stable_isText) (holds _) required)

/-- What an output declares is not changed by rearranging. -/
theorem OutputSpec.stable_declared : Stable OutputSpec.Declared := by
  intro value other same output whole
  rcases whole with ⟨given, required⟩
  obtain ⟨others, rfl, holds⟩ := same.object_left rfl
  exact .record (stable_atMostOnce stable_isTextOrNull (holds _) given)
    (stable_atMostOnce (stable_isList stable_isText) (holds _) required)

/-- The order of members in a value, at any depth, has no influence on the manifest it declares. -/
theorem Manifest.stable_declared : Stable Manifest.Declared := by
  intro value other same manifest given
  rcases given with ⟨documents, referred, produced⟩
  obtain ⟨others, rfl, holds⟩ := same.object_left rfl
  exact .record (stable_atMostOnce (stable_isList DocRef.stable_declared) (holds _) documents)
    (stable_atMostOnce (stable_isList stable_isText) (holds _) referred)
    (stable_atMostOnce (stable_isList OutputSpec.stable_declared) (holds _) produced)

/-- A record stays one when rearranged. -/
theorem Manifest.recordShaped_of_rearranged {value other : Datum} (same : Rearranged value other)
    (shaped : RecordShaped value) : RecordShaped other := by
  cases other with
  | array others =>
    obtain ⟨items, rfl, _⟩ := same.symm.array_left rfl
    exact shaped
  | object others =>
    obtain ⟨members, rfl, holds⟩ := same.symm.object_left rfl
    intro name wanted items inside inner broken
    obtain ⟨list, stands, here⟩ := Multiset.exists_mem_of_rel_of_mem (holds name) inside
    obtain ⟨earlier, rfl, each⟩ := here.array_left rfl
    obtain ⟨record, member, back⟩ := exists_of_forall₂_left each broken
    obtain ⟨others, rfl, _⟩ := back.array_left rfl
    exact shaped name wanted earlier stands others member
  | _ => trivial

end ExerciseAudit
