import ExerciseAudit.Proofs.Path.Join
import Mathlib.Data.List.Lex
import Mathlib.Data.List.Sort
import Mathlib.Data.Prod.Lex

/-!
# The order of paths

The order of paths is the lexicographic order of what their components weigh, so it is strict and
any two paths with different components are comparable. Sorting rearranges a row of paths, and if no
two of them have the same components, each stands strictly before the next.
-/

namespace ExerciseAudit

/-- Rows keep their order under a view that keeps the order of items. -/
theorem map_lt_map_iff {α β : Type} [LT α] [LT β] {f : α → β} (injective : Function.Injective f)
    (monotone : ∀ {first second}, f first < f second ↔ first < second) (row other : List α) :
    row.map f < other.map f ↔ row < other := by
  induction row generalizing other with
  | nil => cases other <;> simp
  | cons first rest ih =>
    cases other with
    | nil => simp
    | cons second others =>
      simp only [List.map_cons, List.cons_lt_cons_iff, monotone, injective.eq_iff, ih]

namespace Path

namespace Component

/-- What a component weighs in the order of paths: its kind, then the bytes of a name. -/
def weight : Component → ℕ ×ₗ List ℕ
  | name bytes => toLex (3, bytes.map UInt8.toNat)
  | other => toLex (other.rank, [])

theorem weight_injective : Function.Injective weight := by
  intro first second same
  cases first <;> cases second <;>
    simp only [weight, rank, toLex_inj, Prod.mk.injEq, reduceCtorEq, Nat.reduceEqDiff,
      and_true, false_and] at same ⊢
  exact congrArg name (List.map_injective_iff.mpr (fun _ _ => UInt8.toNat_inj.mp) same.2)

theorem weight_name_lt_iff {first second : List UInt8} :
    (name first).weight < (name second).weight ↔ first < second := by
  simp only [weight, Prod.Lex.toLex_lt_toLex, lt_irrefl, false_or, true_and]
  exact map_lt_map_iff (fun _ _ => UInt8.toNat_inj.mp) UInt8.lt_iff_toNat_lt.symm first second

theorem before_iff_weight_lt {first second : Component} :
    first.before second = true ↔ first.weight < second.weight := by
  cases first with
  | name bytes =>
    cases second with
    | name others => simpa only [before, decide_eq_true_eq] using weight_name_lt_iff.symm
    | _ => simp [before, weight, rank, Prod.Lex.toLex_lt_toLex]
  | _ => cases second <;> simp [before, weight, rank, Prod.Lex.toLex_lt_toLex]

end Component

/-- What the components of a path weigh, one after another. -/
def weights (path : Path) : List (ℕ ×ₗ List ℕ) :=
  path.components.map Component.weight

theorem componentsBefore_iff_lt {row other : List Component} :
    componentsBefore row other = true ↔ row.map Component.weight < other.map Component.weight := by
  induction row generalizing other with
  | nil => cases other <;> simp [componentsBefore]
  | cons first rest ih =>
    cases other with
    | nil => simp [componentsBefore]
    | cons second others =>
      simp only [componentsBefore, List.map_cons, List.cons_lt_cons_iff,
        Component.weight_injective.eq_iff]
      by_cases same : first = second
      · subst same
        simp [ih]
      · simp [same, Component.before_iff_weight_lt]

/-- The order of paths is the order of their weights. -/
theorem before_iff_weights_lt {first second : Path} :
    first.before second = true ↔ first.weights < second.weights :=
  componentsBefore_iff_lt

theorem before_trans {first second third : Path} (left : first.before second = true)
    (right : second.before third = true) : first.before third = true := by
  rw [before_iff_weights_lt] at left right ⊢
  exact left.trans right

theorem not_before_self (path : Path) : ¬ path.before path = true := by
  rw [before_iff_weights_lt]
  exact lt_irrefl _

theorem weights_inj {first second : Path} :
    first.weights = second.weights ↔ first.components = second.components :=
  (List.map_injective_iff.mpr Component.weight_injective).eq_iff

/-- Of two paths that follow names from one path, that one stands before whose names do. -/
theorem descend_before_descend_iff (path : Path) {first second : List Name}
    (valid : ∀ name ∈ first, name.Valid) (other : ∀ name ∈ second, name.Valid) :
    (path.descend first).before (path.descend second) = true ↔ first < second := by
  have common : StrictMono fun row => path.weights ++ row := fun _ _ => List.append_left_lt
  have weigh (names : List Name) (valid : ∀ name ∈ names, name.Valid) :
      (path.descend names).weights =
        path.weights ++ names.map fun name => (Component.name name).weight := by
    simp [weights, components_descend path valid, Function.comp_def]
  rw [before_iff_weights_lt, weigh first valid, weigh second other, common.lt_iff_lt]
  exact map_lt_map_iff (fun _ _ same => Component.name.inj (Component.weight_injective same))
    Component.weight_name_lt_iff first second

/-! ## Sorting -/

/-- Sorting paths is sorting them by weights. -/
theorem sort_eq_insertionSort (paths : List Path) :
    sort paths = paths.insertionSort fun first second => first.weights ≤ second.weights := by
  have insert_eq (path : Path) (row : List Path) : path.orderedInsert row =
      row.orderedInsert (fun first second => first.weights ≤ second.weights) path := by
    induction row with
    | nil => rfl
    | cons first rest ih =>
      by_cases later : first.before path = true
      · have heavier : ¬ path.weights ≤ first.weights := not_le.mpr (before_iff_weights_lt.mp later)
        simp only [orderedInsert, later, ↓reduceIte, List.orderedInsert_cons, heavier, ih]
      · have lighter : path.weights ≤ first.weights :=
          not_lt.mp (mt before_iff_weights_lt.mpr later)
        simp only [orderedInsert, later, Bool.false_eq_true, ↓reduceIte, List.orderedInsert_cons,
          lighter]
  induction paths with
  | nil => rfl
  | cons path rest ih =>
    rw [List.insertionSort_cons, ← ih, ← insert_eq]
    rfl

theorem perm_sort (paths : List Path) : (sort paths).Perm paths := by
  rw [sort_eq_insertionSort]
  exact List.perm_insertionSort _ paths

/-- Paths with different components are sorted into a strict order. -/
theorem pairwise_sort {paths : List Path} (different : (paths.map components).Nodup) :
    (sort paths).Pairwise fun first second => first.before second = true := by
  have ordered : (sort paths).Pairwise fun first second => first.weights ≤ second.weights := by
    rw [sort_eq_insertionSort]
    have total : Std.Total fun first second : Path => first.weights ≤ second.weights :=
      ⟨fun first second => le_total first.weights second.weights⟩
    have trans : IsTrans Path fun first second => first.weights ≤ second.weights :=
      ⟨fun _ _ _ => le_trans⟩
    exact List.pairwise_insertionSort _ paths
  have apart : (sort paths).Pairwise fun first second => first.components ≠ second.components :=
    List.pairwise_map.mp (((perm_sort paths).map components).nodup_iff.mpr different)
  exact (ordered.and apart).imp fun ⟨noHeavier, differ⟩ =>
    before_iff_weights_lt.mpr (lt_of_le_of_ne noHeavier (mt weights_inj.mp differ))

/-- A strictly sorted row of paths is determined by its members. -/
theorem eq_of_pairwise_before {row other : List Path}
    (sorted : row.Pairwise fun first second => first.before second = true)
    (otherSorted : other.Pairwise fun first second => first.before second = true)
    (same : ∀ path, path ∈ row ↔ path ∈ other) : row = other := by
  have irreflexive : Std.Irrefl fun first second : Path => first.before second = true :=
    ⟨fun _ self => lt_irrefl _ (before_iff_weights_lt.mp self)⟩
  have antisymmetric : Std.Antisymm fun first second : Path => first.before second = true :=
    ⟨fun _ _ forth back =>
      absurd (before_iff_weights_lt.mp forth) (before_iff_weights_lt.mp back).not_gt⟩
  exact sorted.eq_of_mem_iff otherSorted same

end Path

end ExerciseAudit
