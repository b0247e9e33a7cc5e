import ExerciseAudit.Proofs.Manifest.Read

/-!
# What the members of a record declare

Reading a record is a fold over its members. Each member is for at most one of the record's fields,
so the fold comes apart into one fold for each field (`foldlM_both`), and that of a field asks only
what the members of its name hold (`foldlM_takeOnce`). The order of the members is lost on the way
(`Manifest.written?_perm`).
-/

namespace ExerciseAudit

open Json

/-! ## Folds over several fields -/

section Fold

variable {σ τ υ ι : Type}

/-- Two steps at once, each on a part of the state. -/
def both (first : τ → ι → Option τ) (second : υ → ι → Option υ) (state : τ × υ) (item : ι) :
    Option (τ × υ) :=
  (first state.1 item).bind fun left => (second state.2 item).map (left, ·)

/-- Two things gathered side by side are each gathered on its own. -/
theorem foldlM_both (first : τ → ι → Option τ) (second : υ → ι → Option υ) (items : List ι)
    (left : τ) (right : υ) :
    items.foldlM (both first second) (left, right) =
      (items.foldlM first left).bind fun left => (items.foldlM second right).map (left, ·) := by
  induction items generalizing left right with
  | nil => rfl
  | cons item items ih =>
    simp only [List.foldlM_cons, bind, both]
    cases first left item with
    | none => rfl
    | some left =>
      cases second right item with
      | none =>
        simp only [Option.bind_some, Option.map_none, Option.bind_none]
        cases items.foldlM first left <;> rfl
      | some right => exact ih left right

/-- Steps on a record are steps on its parts. -/
theorem foldlM_combine {combine : τ → σ} {step : σ → ι → Option σ} {part : τ → ι → Option τ}
    (same : ∀ state item, step (combine state) item = (part state item).map combine)
    (items : List ι) (state : τ) :
    items.foldlM step (combine state) = (items.foldlM part state).map combine := by
  induction items generalizing state with
  | nil => rfl
  | cons item items ih =>
    simp only [List.foldlM_cons, bind, same]
    cases part state item with
    | none => rfl
    | some next => exact ih next

end Fold

/-! ## One field -/

/-- The values of the members of a name, in order. -/
def writtenValues (name : String) (members : List (Member Writing)) : List Writing :=
  (members.filter fun member => string? member.name = some name).map Member.value

/-- What a field is given by all that its members hold: nothing by none of them, something by
one. -/
def once? {α β : Type} (result : β → Option α) : List β → Option (Option α)
  | [] => some none
  | [value] => (result value).map some
  | _ => none

/-- What may stand once is taken in the same in any order. -/
theorem once?_perm {α β : Type} (result : β → Option α) {values others : List β}
    (same : values.Perm others) : once? result values = once? result others := by
  match values, others, same with
  | [], others, same => rw [same.nil_eq]
  | [value], others, same => rw [List.singleton_perm.mp same]
  | _ :: _ :: _, others, same =>
    have long := same.length_eq
    match others, long with
    | _ :: _ :: _, _ => rfl

section Field

variable {α : Type} (name : String) (result : Writing → Option α)

/-- Take a member for a field if it has the field's name. -/
def takeOnce (before : Option α) (member : Member Writing) : Option (Option α) :=
  if string? member.name = some name then
    if before.isSome then none else (result member.value).map some
  else some before

theorem foldlM_takeOnce_some (members : List (Member Writing)) (given : α) :
    members.foldlM (takeOnce name result) (some given) =
      if writtenValues name members = [] then some (some given) else none := by
  induction members with
  | nil => rfl
  | cons member members ih =>
    rw [List.foldlM_cons]
    by_cases here : string? member.name = some name
    · simp [takeOnce, writtenValues, here]
    · have others : writtenValues name (member :: members) = writtenValues name members := by
        simp [writtenValues, here]
      simpa [takeOnce, here, others] using ih

/-- Gathering a field over the members is taking in its values, of which there may be one. -/
theorem foldlM_takeOnce (members : List (Member Writing)) :
    members.foldlM (takeOnce name result) none = once? result (writtenValues name members) := by
  induction members with
  | nil => rfl
  | cons member members ih =>
    rw [List.foldlM_cons]
    by_cases here : string? member.name = some name
    · have values : writtenValues name (member :: members) =
          member.value :: writtenValues name members := by simp [writtenValues, here]
      rw [values]
      cases given : result member.value with
      | none =>
        cases writtenValues name members <;> simp [takeOnce, here, given, once?]
      | some value =>
        have later := foldlM_takeOnce_some name result members value
        cases more : writtenValues name members <;> simp [takeOnce, here, given, once?, later, more]
    · have others : writtenValues name (member :: members) = writtenValues name members := by
        simp [writtenValues, here]
      simpa [takeOnce, here, others] using ih

end Field

theorem writtenValues_perm {members others : List (Member Writing)} (same : members.Perm others)
    (name : String) : (writtenValues name members).Perm (writtenValues name others) :=
  (same.filter _).map _

/-- Of a member only that its name spells something. -/
def keepName (_ : Unit) (member : Member Writing) : Option Unit :=
  (string? member.name).map fun _ => ()

/-- Going over the members fails if one has a name that is not spelled. -/
theorem foldlM_keepName (members : List (Member Writing)) :
    members.foldlM keepName () =
      if ∀ member ∈ members, (string? member.name).isSome then some () else none := by
  induction members with
  | nil => rfl
  | cons member members ih =>
    rw [List.foldlM_cons]
    cases named : string? member.name <;> simp [keepName, named, ih]

/-! ## Outputs and manifests -/

namespace OutputSpec

/-- What is known of an output, from its fields apart. -/
def Draft.ofFields (fields : Unit × Option (Option String) × Option (List String)) : Draft :=
  ⟨fields.2.1, fields.2.2⟩

/-- Each field of an output with one more member, apart from the others. -/
def addFields : Unit × Option (Option String) × Option (List String) → Member Writing →
    Option (Unit × Option (Option String) × Option (List String)) :=
  both keepName (both (takeOnce "fixture" Writing.textOrNull?)
    (takeOnce "requiredSections" (Writing.list? Writing.text?)))

theorem addMember_addWritten (fields : Unit × Option (Option String) × Option (List String))
    (member : Member Writing) :
    addMember addWritten (Draft.ofFields fields) member =
      (addFields fields member).map Draft.ofFields := by
  obtain ⟨_, fixture, sections⟩ := fields
  unfold addMember addFields both keepName
  cases named : string? member.name with
  | none => rfl
  | some name =>
    by_cases first : name = "fixture"
    · subst first
      cases fixture <;> cases given : member.value.textOrNull? <;>
        simp [addWritten, takeOnce, named, given, Draft.ofFields]
    · by_cases second : name = "requiredSections"
      · subst second
        cases sections <;> cases given : member.value.list? Writing.text? <;>
          simp [addWritten, takeOnce, named, given, Draft.ofFields]
      · simp [addWritten, takeOnce, named, first, second, Draft.ofFields]

/-- A written object declares an output if every name in it spells something and each field is given
at most once, and then what it should be. -/
theorem written?_object_eq_some_iff {opening : List Blank} {members : List (Member Writing)}
    {output : OutputSpec} :
    written? (.object opening members) = some output ↔
      (∀ member ∈ members, (string? member.name).isSome) ∧
        ∃ fixture sections,
          once? Writing.textOrNull? (writtenValues "fixture" members) = some fixture ∧
          once? (Writing.list? Writing.text?) (writtenValues "requiredSections" members) =
            some sections ∧
          ⟨fixture.getD none, sections.getD []⟩ = output := by
  have apart : members.foldlM (addMember addWritten) ⟨none, none⟩ =
      (members.foldlM addFields ((), none, none)).map Draft.ofFields :=
    foldlM_combine addMember_addWritten members ((), none, none)
  have fields : members.foldlM addFields ((), none, none) = _ := foldlM_both ..
  rw [foldlM_both, foldlM_keepName, foldlM_takeOnce, foldlM_takeOnce] at fields
  simp only [written?, apart, fields]
  split
  case isFalse broken => simp [broken]
  case isTrue named =>
    rw [and_iff_right named]
    simp [Option.bind_eq_some_iff, Draft.ofFields, Draft.finish]

end OutputSpec

namespace Manifest

/-- What is known of a manifest, from its fields apart. -/
def Draft.ofFields (fields : Unit × Option (List DocRef) × Option (List String) ×
    Option (List OutputSpec)) : Draft :=
  ⟨fields.2.1, fields.2.2.1, fields.2.2.2⟩

/-- Each field of a manifest with one more member, apart from the others. -/
def addFields : Unit × Option (List DocRef) × Option (List String) × Option (List OutputSpec) →
    Member Writing →
    Option (Unit × Option (List DocRef) × Option (List String) × Option (List OutputSpec)) :=
  both keepName (both (takeOnce "docs" (Writing.list? DocRef.written?))
    (both (takeOnce "references" (Writing.list? Writing.text?))
      (takeOnce "outputs" (Writing.list? OutputSpec.written?))))

theorem addMember_addWritten (fields : Unit × Option (List DocRef) × Option (List String) ×
    Option (List OutputSpec)) (member : Member Writing) :
    addMember addWritten (Draft.ofFields fields) member =
      (addFields fields member).map Draft.ofFields := by
  obtain ⟨_, docs, references, outputs⟩ := fields
  unfold addMember addFields both keepName
  cases named : string? member.name with
  | none => rfl
  | some name =>
    by_cases first : name = "docs"
    · subst first
      cases docs <;> cases given : member.value.list? DocRef.written? <;>
        simp [addWritten, takeOnce, named, given, Draft.ofFields]
    · by_cases second : name = "references"
      · subst second
        cases references <;> cases given : member.value.list? Writing.text? <;>
          simp [addWritten, takeOnce, named, given, Draft.ofFields]
      · by_cases third : name = "outputs"
        · subst third
          cases outputs <;> cases given : member.value.list? OutputSpec.written? <;>
            simp [addWritten, takeOnce, named, given, Draft.ofFields]
        · simp [addWritten, takeOnce, named, first, second, third, Draft.ofFields]

/-- The members of a written object declare a manifest if every name among them spells something and
each field is given at most once, and then what it should be. -/
theorem written?_eq_some_iff {members : List (Member Writing)} {manifest : Manifest} :
    written? members = some manifest ↔
      (∀ member ∈ members, (string? member.name).isSome) ∧
        ∃ docs references outputs,
          once? (Writing.list? DocRef.written?) (writtenValues "docs" members) = some docs ∧
          once? (Writing.list? Writing.text?) (writtenValues "references" members) =
            some references ∧
          once? (Writing.list? OutputSpec.written?) (writtenValues "outputs" members) =
            some outputs ∧
          ⟨docs.getD [], references.getD [], outputs.getD []⟩ = manifest := by
  have apart : members.foldlM (addMember addWritten) ⟨none, none, none⟩ =
      (members.foldlM addFields ((), none, none, none)).map Draft.ofFields :=
    foldlM_combine addMember_addWritten members ((), none, none, none)
  have fields : members.foldlM addFields ((), none, none, none) = _ := foldlM_both ..
  rw [foldlM_both, foldlM_both, foldlM_keepName, foldlM_takeOnce, foldlM_takeOnce,
    foldlM_takeOnce] at fields
  simp only [written?, apart, fields]
  split
  case isFalse broken => simp [broken]
  case isTrue named =>
    rw [and_iff_right named]
    simp [Option.bind_eq_some_iff, Draft.ofFields, Draft.finish]

/-- The order in which an object's members are written has no influence on the manifest. -/
theorem written?_perm {members others : List (Member Writing)} (same : members.Perm others) :
    written? members = written? others := by
  apply Option.ext
  intro manifest
  simp only [written?_eq_some_iff, same.mem_iff, once?_perm _ (writtenValues_perm same _)]

/-- A manifest decodes to the same whatever the order and the blanks of its members. -/
theorem toOption_ofText_perm {members others : List (Member Writing)} (same : members.Perm others)
    (before opening after before' opening' after' : List Blank) :
    (ofText (objectText before opening members after)).toOption =
      (ofText (objectText before' opening' others after')).toOption := by
  rw [toOption_ofText_object, toOption_ofText_object, written?_perm same]

end Manifest

end ExerciseAudit
