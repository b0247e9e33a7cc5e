import ExerciseAudit.Audit
import Mathlib.Data.List.Basic
import Mathlib.Data.Set.Card
import Mathlib.Order.Lattice

/-!
# Accounting for violations

A list of violations accounts for what is broken if every violation stands there for something
broken that it names, everything broken is there once, and the list follows the order of the keys of
what is broken. Lists that account for parts of what is checked are put together to one that
accounts for the whole.
-/

namespace ExerciseAudit

/-- A list of violations accounts for what is broken: each of them belongs to one broken thing, all
that is broken has its violations there, and they come in the strict order of keys. -/
def Accounts {ι κ : Type} [LT κ] (key : ι → κ) (broken : ι → Violation → Prop)
    (violations : List Violation) : Prop :=
  ∃ located : List (ι × Violation), located.map Prod.snd = violations ∧
    (located.Pairwise fun first second => key first.1 < key second.1) ∧
    ∀ thing violation, (thing, violation) ∈ located ↔ broken thing violation

namespace Accounts

variable {ι κ : Type}

section Order

variable [LT κ] {key : ι → κ} {broken other : ι → Violation → Prop}
  {violations : List Violation}

/-- Where nothing is broken, the empty report accounts for it. -/
theorem nil (none : ∀ thing violation, ¬ broken thing violation) : Accounts key broken [] :=
  ⟨[], rfl, .nil, fun thing violation => by simp [none thing violation]⟩

/-- One violation accounts for the one obligation that is broken. -/
theorem singleton (here : ι) {violation : Violation}
    (only : ∀ thing name, broken thing name ↔ thing = here ∧ name = violation) :
    Accounts key broken [violation] :=
  ⟨[(here, violation)], rfl, List.pairwise_singleton _ _, fun thing name => by
    simp [only thing name]⟩

theorem congr (account : Accounts key broken violations)
    (same : ∀ thing violation, broken thing violation ↔ other thing violation) :
    Accounts key other violations := by
  obtain ⟨located, names, ordered, exact⟩ := account
  exact ⟨located, names, ordered, fun thing violation =>
    (exact thing violation).trans (same thing violation)⟩

/-- Two reports put one behind the other account for both, if the keys of the first come first. -/
theorem append {later : List Violation} (account : Accounts key broken violations)
    (rest : Accounts key other later)
    (apart : ∀ first second name violation, broken first name → other second violation →
      key first < key second) :
    Accounts key (fun thing violation => broken thing violation ∨ other thing violation)
      (violations ++ later) := by
  obtain ⟨located, rfl, ordered, exact⟩ := account
  obtain ⟨locatedLater, rfl, orderedLater, exactLater⟩ := rest
  refine ⟨located ++ locatedLater, List.map_append, ?_, fun thing violation => ?_⟩
  · refine List.pairwise_append.mpr ⟨ordered, orderedLater, ?_⟩
    intro first member second memberLater
    exact apart _ _ _ _ ((exact _ _).mp member) ((exactLater _ _).mp memberLater)
  · rw [List.mem_append, exact, exactLater]

/-- Things that are seen as other things are accounted for as these, where this keeps their
order. -/
theorem map {ι' κ' : Type} [LT κ'] {key' : ι' → κ'} (view : ι → ι')
    (account : Accounts key broken violations)
    (ordered : ∀ first second, key first < key second → key' (view first) < key' (view second)) :
    Accounts key' (fun thing violation => ∃ part, view part = thing ∧ broken part violation)
      violations := by
  obtain ⟨located, rfl, sorted, exact⟩ := account
  refine ⟨located.map (Prod.map view id), by simp [Function.comp_def], ?_, ?_⟩
  · exact List.pairwise_map.mpr (sorted.imp (ordered _ _))
  · intro thing violation
    simp only [List.mem_map, Prod.exists, Prod.map_apply, id_eq, Prod.mk.injEq]
    constructor
    · intro given
      rcases given with ⟨part, name, member, rfl, rfl⟩
      exact ⟨part, rfl, (exact _ _).mp member⟩
    · intro given
      rcases given with ⟨part, rfl, isBroken⟩
      exact ⟨part, violation, (exact _ _).mpr isBroken, rfl, rfl⟩

/-- The items of a list, each of which is accounted for by a check, are accounted for by all checks,
one behind the other, where earlier items have lesser keys. -/
theorem flatMap {α : Type} (items : List α) (check : α → List Violation)
    (brokenAt : Nat → ι → Violation → Prop)
    (each : ∀ index item, items[index]? = some item →
      Accounts key (brokenAt index) (check item))
    (apart : ∀ index later first second name violation, index < later → later < items.length →
      brokenAt index first name → brokenAt later second violation → key first < key second) :
    Accounts key (fun thing violation => ∃ index < items.length, brokenAt index thing violation)
      (items.flatMap check) := by
  induction items using List.reverseRecOn with
  | nil => exact nil (by simp)
  | append_singleton front last ih =>
    have account := ih
      (fun index item found => each index item (by
        rw [List.getElem?_append_left (List.getElem?_eq_some_iff.mp found).1, found]))
      (fun index later first second name violation less inside =>
        apart index later first second name violation less (by simp; omega))
    have atLast := each front.length last (by simp)
    rw [List.flatMap_append, List.flatMap_singleton]
    refine (account.append atLast ?_).congr fun thing violation => ?_
    · rintro first second name violation ⟨index, less, isBroken⟩ isBrokenLast
      exact apart index front.length first second name violation less (by simp) isBroken
        isBrokenLast
    · constructor
      · intro given
        rcases given with ⟨index, less, isBroken⟩ | isBroken
        · exact ⟨index, by simp; omega, isBroken⟩
        · exact ⟨front.length, by simp, isBroken⟩
      · intro given
        rcases given with ⟨index, less, isBroken⟩
        rcases Nat.lt_succ_iff_lt_or_eq.mp (by simpa using less) with earlier | rfl
        · exact .inl ⟨index, earlier, isBroken⟩
        · exact .inr isBroken

/-- What an account lists are the violations that name something broken. -/
theorem mem_iff (account : Accounts key broken violations) (violation : Violation) :
    violation ∈ violations ↔ ∃ thing, broken thing violation := by
  obtain ⟨located, rfl, _, exact⟩ := account
  simp [exact]

end Order

section Preorder

variable [Preorder κ] {key : ι → κ} {broken : ι → Violation → Prop} {violations : List Violation}

/-- In an account, a violation stands as often as there are broken things that it names. -/
theorem count_eq (account : Accounts key broken violations) (violation : Violation) :
    (violations.count violation : ℕ∞) = {thing | broken thing violation}.encard := by
  classical
  obtain ⟨located, rfl, ordered, exact⟩ := account
  have distinct : (located.map Prod.fst).Nodup :=
    List.pairwise_map.mpr (ordered.imp fun {_ _} less same => (same ▸ less).ne rfl)
  let named := (located.filter fun entry => entry.2 = violation).map Prod.fst
  have things : {thing | broken thing violation} = (named.toFinset : Set ι) := by
    ext thing
    simp [named, exact]
  have count : (located.map Prod.snd).count violation = named.length := by
    simp [named, List.count, List.countP_eq_length_filter, List.filter_map, Function.comp_def,
      beq_eq_decide]
  have nodup : named.Nodup := distinct.sublist (List.filter_sublist.map _)
  rw [things, Set.encard_coe_eq_coe_finsetCard, List.toFinset_card_of_nodup nodup, count]

end Preorder

end Accounts

namespace Findings

/-- Violations of several checks come one check behind the other. -/
theorem violations_gather {α : Type} (check : α → Findings) (items : List α) :
    (gather check items).violations = items.flatMap fun item => (check item).violations := by
  induction items with
  | nil => rfl
  | cons item rest ih =>
    rw [List.flatMap_cons, ← ih]
    rfl

end Findings

end ExerciseAudit
