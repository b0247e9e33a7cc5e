import Mathlib.Algebra.Order.Field.Rat
import Mathlib.Data.Multiset.AddSub

/-!
# JSON values

A `Datum` is a JSON value in the sense of the grammar, with exact numbers, and with the members of
an object in order and with repeats. The order of members carries no meaning: two values are
`Rearranged` if they differ in nothing but the order of members, at any depth.
-/

namespace ExerciseAudit.Json

/-! ## Related lists -/

section Related

variable {α β γ δ : Type}

/-- Each item of one row is paired with an item of the other. -/
theorem exists_of_forall₂_left {relates : α → β → Prop} {items : List α} {results : List β}
    (each : List.Forall₂ relates items results) {item : α} (member : item ∈ items) :
    ∃ result ∈ results, relates item result := by
  induction each with
  | nil => cases member
  | cons here _ ih =>
    rcases List.mem_cons.mp member with rfl | later
    · exact ⟨_, List.mem_cons_self, here⟩
    · obtain ⟨result, inside, holds⟩ := ih later
      exact ⟨result, List.mem_cons_of_mem _ inside, holds⟩

theorem forall₂_of_mem {before after : α → β → Prop} {items : List α} {others : List β}
    (each : List.Forall₂ before items others)
    (step : ∀ item ∈ items, ∀ other ∈ others, before item other → after item other) :
    List.Forall₂ after items others := by
  induction each with
  | nil => exact .nil
  | cons here _ ih =>
    refine .cons (step _ List.mem_cons_self _ List.mem_cons_self here) (ih ?_)
    intro item member other inside
    exact step item (List.mem_cons_of_mem _ member) other (List.mem_cons_of_mem _ inside)

theorem forall₂_of_common {first : α → β → Prop} {second : α → γ → Prop} {relates : β → γ → Prop}
    {items : List α} {left : List β} {right : List γ}
    (lefts : List.Forall₂ first items left) (rights : List.Forall₂ second items right)
    (step : ∀ item l r, first item l → second item r → relates l r) :
    List.Forall₂ relates left right := by
  induction lefts generalizing right with
  | nil => cases rights; exact .nil
  | cons here _ ih =>
    cases rights with
    | cons there later => exact .cons (step _ _ _ here there) (ih later)

/-- Rows in which the same places are chosen are paired in what is chosen. -/
theorem forall₂_filter_map {relates : γ → δ → Prop} {chosen : α → Bool} {wanted : β → Bool}
    {left : α → γ} {right : β → δ} {items : List α} {others : List β}
    (each : List.Forall₂ (fun item other => chosen item = wanted other ∧
      relates (left item) (right other)) items others) :
    List.Forall₂ relates ((items.filter chosen).map left) ((others.filter wanted).map right) := by
  induction each with
  | nil => exact .nil
  | @cons item other items others here _ ih =>
    obtain ⟨same, holds⟩ := here
    by_cases taken : wanted other = true
    · rw [List.filter_cons_of_pos taken, List.filter_cons_of_pos (same.trans taken)]
      exact .cons holds ih
    · rw [List.filter_cons_of_neg taken, List.filter_cons_of_neg (by rwa [same])]
      exact ih

end Related

/-! ## Values -/

/-- A JSON value, with exact numbers. -/
inductive Datum where
  | null
  | bool (value : Bool)
  | number (value : ℚ)
  | string (value : String)
  | array (items : List Datum)
  | object (members : List (String × Datum))

namespace Datum

/-- What the members of a name hold, in order. -/
def valuesOf (name : String) (members : List (String × Datum)) : List Datum :=
  (members.filter (·.1 = name)).map (·.2)

theorem mem_valuesOf {name : String} {members : List (String × Datum)} {value : Datum} :
    value ∈ valuesOf name members ↔ (name, value) ∈ members := by
  simp [valuesOf]

theorem valuesOf_append (name : String) (members others : List (String × Datum)) :
    valuesOf name (members ++ others) = valuesOf name members ++ valuesOf name others := by
  simp [valuesOf]

/-- Brackets nest at most `depth` deep, and no number is beyond `10 ^ 300`. -/
def Ordinary : Nat → Datum → Prop
  | _, null => True
  | _, bool _ => True
  | _, number value => |value| ≤ 10 ^ 300
  | _, string _ => True
  | 0, array _ => False
  | depth + 1, array items => ∀ item ∈ items, item.Ordinary depth
  | 0, object _ => False
  | depth + 1, object members => ∀ member ∈ members, member.2.Ordinary depth

/-- The same value with the members of its objects in another order. -/
inductive Rearranged : Datum → Datum → Prop
  | refl (value : Datum) : Rearranged value value
  | trans {first second third : Datum} (left : Rearranged first second)
      (right : Rearranged second third) : Rearranged first third
  | order {members others : List (String × Datum)} (same : members.Perm others) :
      Rearranged (object members) (object others)
  | item {value other : Datum} (before after : List Datum) (inner : Rearranged value other) :
      Rearranged (array (before ++ value :: after)) (array (before ++ other :: after))
  | member {value other : Datum} (before after : List (String × Datum)) (name : String)
      (inner : Rearranged value other) :
      Rearranged (object (before ++ (name, value) :: after))
        (object (before ++ (name, other) :: after))

namespace Rearranged

variable {value other : Datum}

theorem symm (same : Rearranged value other) : Rearranged other value := by
  induction same with
  | refl value => exact .refl value
  | trans _ _ left right => exact .trans right left
  | order same => exact .order same.symm
  | item before after _ ih => exact .item before after ih
  | member before after name _ ih => exact .member before after name ih

instance : IsTrans Datum Rearranged :=
  ⟨fun _ _ _ => .trans⟩

/-- A value without parts cannot be rearranged. -/
theorem eq_of_scalar (same : Rearranged value other) (noArray : ∀ items, value ≠ array items)
    (noObject : ∀ members, value ≠ object members) : other = value := by
  induction same with
  | refl value => rfl
  | trans _ _ left right =>
    have middle := left noArray noObject
    subst middle
    exact right noArray noObject
  | order _ => exact absurd rfl (noObject _)
  | item before after _ _ => exact absurd rfl (noArray _)
  | member before after name _ _ => exact absurd rfl (noObject _)

/-- An array keeps its items in order, each of them rearranged. -/
theorem array_left (same : Rearranged value other) {items : List Datum}
    (list : value = array items) :
    ∃ others, other = array others ∧ List.Forall₂ Rearranged items others := by
  induction same generalizing items with
  | refl value => exact ⟨items, list, List.forall₂_same.mpr fun item _ => .refl item⟩
  | trans _ _ left right =>
    obtain ⟨middle, list, first⟩ := left list
    obtain ⟨others, list, second⟩ := right list
    have back : List.Forall₂ (flip Rearranged) middle items := List.Forall₂.flip first
    exact ⟨others, list, forall₂_of_common back second fun _ _ _ => .trans⟩
  | order _ => cases list
  | item before after inner _ =>
    cases list
    have whole := fun items : List Datum =>
      List.forall₂_same.mpr fun (item : Datum) (_ : item ∈ items) => Rearranged.refl item
    exact ⟨_, rfl, List.rel_append (whole before) (.cons inner (whole after))⟩
  | member before after name _ _ => cases list

/-- Each name of an object holds the same values, rearranged and in any order. -/
theorem object_left (same : Rearranged value other) {members : List (String × Datum)}
    (record : value = object members) :
    ∃ others, other = object others ∧ ∀ name,
      Multiset.Rel Rearranged (valuesOf name members) (valuesOf name others) := by
  have whole := fun values : Multiset Datum =>
    Multiset.rel_refl_of_refl_on fun (item : Datum) (_ : item ∈ values) => Rearranged.refl item
  induction same generalizing members with
  | refl value => exact ⟨members, record, fun name => whole _⟩
  | trans _ _ left right =>
    obtain ⟨middle, record, first⟩ := left record
    obtain ⟨others, record, second⟩ := right record
    exact ⟨others, record, fun name => (first name).trans Rearranged (second name)⟩
  | order same =>
    cases record
    refine ⟨_, rfl, fun name => ?_⟩
    have perm := Multiset.coe_eq_coe.mpr ((same.filter (·.1 = name)).map (·.2))
    unfold valuesOf
    rw [perm]
    exact whole _
  | item before after _ _ => cases record
  | @member value other before after held inner _ =>
    cases record
    refine ⟨_, rfl, fun name => ?_⟩
    simp only [valuesOf_append, ← Multiset.coe_add]
    apply (whole _).add
    by_cases here : held = name
    · simp only [valuesOf, List.filter_cons, here, decide_true, ↓reduceIte, List.map_cons,
        ← Multiset.cons_coe]
      exact .cons inner (whole _)
    · simp only [valuesOf, List.filter_cons, here, decide_false, Bool.false_eq_true, ↓reduceIte]
      exact whole _

/-- What is rearranged stays ordinary. -/
theorem ordinary (same : Rearranged value other) {depth : Nat} (ordinary : value.Ordinary depth) :
    other.Ordinary depth := by
  induction same generalizing depth with
  | refl value => exact ordinary
  | trans _ _ left right => exact right (left ordinary)
  | order same =>
    cases depth with
    | zero => exact ordinary
    | succ depth => exact fun member inside => ordinary member (same.mem_iff.mpr inside)
  | item before after _ ih =>
    cases depth with
    | zero => exact ordinary
    | succ depth =>
      simp only [Ordinary, List.forall_mem_append, List.forall_mem_cons] at ordinary ⊢
      exact ⟨ordinary.1, ih ordinary.2.1, ordinary.2.2⟩
  | member before after name _ ih =>
    cases depth with
    | zero => exact ordinary
    | succ depth =>
      simp only [Ordinary, List.forall_mem_append, List.forall_mem_cons] at ordinary ⊢
      exact ⟨ordinary.1, ih ordinary.2.1, ordinary.2.2⟩

end Rearranged

/-- A row of one value is rearranged into a row of one. -/
theorem rel_singleton_left {value : Datum} {others : List Datum}
    (same : Multiset.Rel Rearranged ([value] : List Datum) others) :
    ∃ other, others = [other] ∧ Rearranged value other := by
  rw [Multiset.coe_singleton, ← Multiset.cons_zero, Multiset.rel_cons_left] at same
  obtain ⟨other, rest, here, none, all⟩ := same
  rw [Multiset.rel_zero_left] at none
  rw [none, Multiset.cons_zero, ← Multiset.coe_singleton, Multiset.coe_eq_coe,
    List.perm_singleton] at all
  exact ⟨other, all, here⟩

end Datum

end ExerciseAudit.Json
