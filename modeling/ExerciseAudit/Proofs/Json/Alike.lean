import ExerciseAudit.Proofs.Json.Ordinary

/-!
# One value written in two ways

Writings are `Alike` if they differ only in what is free: the blanks between tokens, the signs that
spell a string or a name, and the order in which the members of an object stand. A reader makes the
same text of them, the same list of texts, and reads both or none (`Writing.Alike.isSome_value?`).
-/

namespace ExerciseAudit.Json

theorem isSome_mapM_iff {α β : Type} {f : α → Option β} {items : List α} :
    (items.mapM f).isSome ↔ ∀ item ∈ items, (f item).isSome := by
  constructor
  · intro given item member
    obtain ⟨results, all⟩ := Option.isSome_iff_exists.mp given
    obtain ⟨result, _, here⟩ := exists_of_forall₂_left (mapM_eq_some_iff.mp all) member
    rw [here, Option.isSome_some]
  · intro each
    exact Option.isSome_iff_exists.mpr (exists_mapM_eq_some fun item member =>
      Option.isSome_iff_exists.mp (each item member))

theorem isSome_mapM_perm {α β : Type} {f : α → Option β} {items others : List α}
    (same : items.Perm others) : (items.mapM f).isSome = (others.mapM f).isSome := by
  rw [Bool.eq_iff_iff, isSome_mapM_iff, isSome_mapM_iff]
  simp only [same.mem_iff]

theorem isSome_mapM_eq {α β : Type} {f : α → Option β} {items others : List α}
    (each : List.Forall₂ (fun item other => (f item).isSome = (f other).isSome) items others) :
    (items.mapM f).isSome = (others.mapM f).isSome := by
  rw [Bool.eq_iff_iff, isSome_mapM_iff, isSome_mapM_iff]
  induction each with
  | nil => simp
  | cons here _ ih => simp only [List.forall_mem_cons, here, ih]

theorem mapM_eq_mapM {α β γ : Type} {f : α → Option γ} {g : β → Option γ} {items : List α}
    {others : List β} (each : List.Forall₂ (fun item other => f item = g other) items others) :
    items.mapM f = others.mapM g := by
  induction each with
  | nil => rfl
  | cons here _ ih => rw [mapM_cons_eq, mapM_cons_eq, here, ih]

theorem map_mapM {α β γ : Type} (f : α → Option β) (view : β → γ) (items : List α) :
    (items.mapM f).map (List.map view) = items.mapM fun item => (f item).map view := by
  induction items with
  | nil => rfl
  | cons item items ih =>
    rw [mapM_cons_eq, mapM_cons_eq, ← ih]
    cases f item <;> cases items.mapM f <;> rfl

namespace Writing

/-- The same value, written with other blanks and other signs and with the members of its objects in
another order. -/
inductive Alike : Writing → Writing → Prop
  | null : Alike null null
  | bool (value : Bool) : Alike (bool value) (bool value)
  | number (figure : Figure) : Alike (number figure) (number figure)
  | string {glyphs signs : List Glyph} (same : string? glyphs = string? signs) :
      Alike (string glyphs) (string signs)
  | array {opening opening' : List Blank} {items others : List (Slot Writing)}
      (each : List.Forall₂ (fun item other => Alike item.value other.value) items others) :
      Alike (array opening items) (array opening' others)
  | object {opening opening' : List Blank} {members middle others : List (Member Writing)}
      (order : members.Perm middle)
      (names : middle.map (string? ·.name) = others.map (string? ·.name))
      (values : List.Forall₂ (fun member other => Alike member.value other.value) middle others) :
      Alike (object opening members) (object opening' others)

/-- Members that pair up by name and by value pair up as members. -/
theorem forall₂_named {relates : Writing → Writing → Prop} {members others : List (Member Writing)}
    (names : members.map (string? ·.name) = others.map (string? ·.name))
    (values : List.Forall₂ (fun member other => relates member.value other.value) members others) :
    List.Forall₂ (fun member other => string? member.name = string? other.name ∧
      relates member.value other.value) members others := by
  induction values with
  | nil => exact .nil
  | cons here _ ih =>
    obtain ⟨first, later⟩ := List.cons.inj names
    exact .cons ⟨first, here⟩ (ih later)

namespace Alike

variable {writing other : Writing}

/-- Spellings that are alike are taken in as the same text. -/
theorem text?_eq (alike : Alike writing other) : writing.text? = other.text? := by
  cases alike with
  | string same => exact same
  | _ => rfl

theorem textOrNull?_eq (alike : Alike writing other) : writing.textOrNull? = other.textOrNull? := by
  cases alike with
  | string same => simp only [textOrNull?, text?, same]
  | _ => rfl

/-- Lists that are written alike are made into the same if their items are. -/
theorem list?_eq {α β : Type} {result : Writing → Option α} {view : α → β}
    (alike : Alike writing other)
    (each : ∀ {item other}, Alike item other → (result item).map view = (result other).map view) :
    (writing.list? result).map (List.map view) = (other.list? result).map (List.map view) := by
  cases alike with
  | array items =>
    rw [list?, list?, map_mapM, map_mapM]
    exact mapM_eq_mapM (items.imp fun _ _ => each)
  | _ => rfl

theorem texts?_eq (alike : Alike writing other) : writing.list? text? = other.list? text? := by
  have same : (writing.list? text?).map (List.map id) = (other.list? text?).map (List.map id) :=
    alike.list?_eq fun item => by rw [item.text?_eq]
  simpa using same

/-- Of two writings that are alike, a reader takes both or none. -/
theorem isSome_value? (alike : Alike writing other) (depth : Nat) :
    (writing.value? depth).isSome = (other.value? depth).isSome := by
  induction depth using Nat.strong_induction_on generalizing writing other with
  | _ depth ih =>
    cases alike with
    | null => rfl
    | bool value => rfl
    | number figure => rfl
    | string same => simp only [value?, same]
    | array each =>
      cases depth with
      | zero => simp only [value?]
      | succ depth =>
        simp only [value?, Option.isSome_map]
        exact isSome_mapM_eq (each.imp fun _ _ item => ih depth (Nat.lt_succ_self _) item)
    | object order names values =>
      cases depth with
      | zero => simp only [value?]
      | succ depth =>
        simp only [value?, Option.isSome_map]
        rw [isSome_mapM_perm order]
        refine isSome_mapM_eq ((forall₂_named names values).imp fun member other same => ?_)
        obtain ⟨name, value⟩ := same
        rw [name]
        cases string? other.name with
        | none => rfl
        | some name => simp [ih depth (Nat.lt_succ_self _) value]

end Alike

end Writing

end ExerciseAudit.Json
