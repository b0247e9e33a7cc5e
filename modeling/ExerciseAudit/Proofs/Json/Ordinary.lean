import ExerciseAudit.Proofs.Json.Magnitude
import ExerciseAudit.Proofs.Json.Reader

/-!
# Ordinary values can be read

A reader of values refuses a writing for three reasons only: half a surrogate pair, brackets that
nest too deep, and a number that is out of range. An ordinary value gives no such reason in whatever
way it is written (`Writing.exists_value?`), unless the digits behind a point are too many to be
counted.
-/

namespace ExerciseAudit.Json

theorem mapM_eq_some_iff {α β : Type} {f : α → Option β} {items : List α} {results : List β} :
    items.mapM f = some results ↔
      List.Forall₂ (fun item result => f item = some result) items results := by
  induction items generalizing results with
  | nil => cases results <;> simp
  | cons item items ih =>
    rw [mapM_cons_eq]
    constructor
    · intro given
      obtain ⟨result, here, later⟩ := Option.bind_eq_some_iff.mp given
      obtain ⟨rest, tail, rfl⟩ := Option.map_eq_some_iff.mp later
      exact .cons here (ih.mp tail)
    · intro given
      rcases given with _ | ⟨here, later⟩
      rw [here, Option.bind_some, ih.mpr later, Option.map_some]

theorem exists_mapM_eq_some {α β : Type} {f : α → Option β} {items : List α}
    (each : ∀ item ∈ items, ∃ result, f item = some result) :
    ∃ results, items.mapM f = some results := by
  induction items with
  | nil => exact ⟨[], rfl⟩
  | cons item items ih =>
    obtain ⟨⟨result, here⟩, later⟩ := List.forall_mem_cons.mp each
    obtain ⟨results, rest⟩ := ih later
    exact ⟨result :: results, by rw [mapM_cons_eq, here, rest]; rfl⟩

namespace Writing

variable {opening : List Blank} {items : List (Slot Writing)} {members : List (Member Writing)}

/-! ## Parts of a value -/

/-- The members of a written object, name by name and value by value. -/
def Spelled {β : Type} (result : Writing → Option β) (members : List (Member Writing))
    (pairs : List (String × β)) : Prop :=
  List.Forall₂ (fun member pair => string? member.name = some pair.1 ∧
    result member.value = some pair.2) members pairs

/-- Members are taken in as pairs if their names are spelled and their values are taken in. -/
theorem mapM_pair_eq_some_iff {β : Type} {result : Writing → Option β} {pairs : List (String × β)} :
    (members.mapM fun member : Member Writing => (string? member.name).bind fun name =>
        (result member.value).map (name, ·)) = some pairs ↔ Spelled result members pairs := by
  have pair (member : Member Writing) (pair : String × β) :
      ((string? member.name).bind fun name => (result member.value).map (name, ·)) = some pair ↔
        string? member.name = some pair.1 ∧ result member.value = some pair.2 := by
    simp only [Option.bind_eq_some_iff, Option.map_eq_some_iff]
    constructor
    · intro given
      rcases given with ⟨name, named, value, valued, rfl⟩
      exact ⟨named, valued⟩
    · intro given
      rcases given with ⟨named, valued⟩
      exact ⟨pair.1, named, pair.2, valued, rfl⟩
  rw [mapM_eq_some_iff]
  simp only [pair, Spelled]

/-- What is written, by its kind, and the value that is made of the values of its parts. -/
inductive Writes : Writing → Datum → Prop
  | null : Writes null .null
  | bool (value : Bool) : Writes (bool value) (.bool value)
  | number (figure : Figure) : Writes (number figure) (.number figure.value)
  | string {glyphs : List Glyph} {text : String} (spelled : string? glyphs = some text) :
      Writes (string glyphs) (.string text)
  | array (opening : List Blank) {items : List (Slot Writing)} {values : List Datum}
      (each : List.Forall₂ (fun slot value => slot.value.datum? = some value) items values) :
      Writes (array opening items) (.array values)
  | object (opening : List Blank) {members : List (Member Writing)} {pairs : List (String × Datum)}
      (each : Spelled datum? members pairs) : Writes (object opening members) (.object pairs)

/-- A spelling writes the value that it is taken in as. -/
theorem writes_of_datum? {writing : Writing} {value : Datum}
    (spells : writing.datum? = some value) : Writes writing value := by
  cases writing with
  | null =>
    rw [datum?, Option.some.injEq] at spells
    rw [← spells]
    exact .null
  | bool flag =>
    rw [datum?, Option.some.injEq] at spells
    rw [← spells]
    exact .bool flag
  | number figure =>
    rw [datum?, Option.some.injEq] at spells
    rw [← spells]
    exact .number figure
  | string glyphs =>
    rw [datum?, Option.map_eq_some_iff] at spells
    obtain ⟨text, spelled, rfl⟩ := spells
    exact .string spelled
  | array opening items =>
    rw [datum?, Option.map_eq_some_iff] at spells
    obtain ⟨values, each, rfl⟩ := spells
    exact .array opening (mapM_eq_some_iff.mp each)
  | object opening members =>
    rw [datum?, Option.map_eq_some_iff] at spells
    obtain ⟨pairs, each, rfl⟩ := spells
    exact .object opening (mapM_pair_eq_some_iff.mp each)

/-! ## Reading -/

section Ordinary

variable {depth places : Nat} {value : Datum}

/-- An array of ordinary depth is read if its items are. -/
theorem exists_value?_array {values : List Datum}
    (ih : ∀ {writing : Writing} {value : Datum}, writing.datum? = some value →
      value.Ordinary depth → writing.Within places → ∃ read, writing.value? depth = some read)
    (each : List.Forall₂ (fun slot value => slot.value.datum? = some value) items values)
    (ordinary : (Datum.array values).Ordinary (depth + 1))
    (within : (array opening items).Within places) :
    ∃ read, (array opening items).value? (depth + 1) = some read := by
  rw [Within] at within
  have readable : ∀ slot ∈ items, ∃ read, slot.value.value? depth = some read := by
    intro slot inside
    obtain ⟨value, member, spelled⟩ := exists_of_forall₂_left each inside
    exact ih spelled (ordinary value member) (within slot inside)
  obtain ⟨reads, all⟩ := exists_mapM_eq_some readable
  exact ⟨.array reads, by rw [value?, all, Option.map_some]⟩

theorem exists_value?_object {pairs : List (String × Datum)}
    (ih : ∀ {writing : Writing} {value : Datum}, writing.datum? = some value →
      value.Ordinary depth → writing.Within places → ∃ read, writing.value? depth = some read)
    (each : Spelled datum? members pairs) (ordinary : (Datum.object pairs).Ordinary (depth + 1))
    (within : (object opening members).Within places) :
    ∃ read, (object opening members).value? (depth + 1) = some read := by
  rw [Within] at within
  have readable : ∀ member ∈ members, ∃ pair, ((string? member.name).bind fun name =>
      (member.value.value? depth).map (name, ·)) = some pair := by
    intro member inside
    obtain ⟨pair, listed, named, spelled⟩ := exists_of_forall₂_left each inside
    obtain ⟨read, given⟩ := ih spelled (ordinary pair listed) (within member inside)
    exact ⟨(pair.1, read), by rw [named, given]; rfl⟩
  obtain ⟨reads, all⟩ := exists_mapM_eq_some readable
  exact ⟨.object reads, by rw [value?, all, Option.map_some]⟩

/-- An ordinary value can be read in whatever way it is written. -/
theorem exists_value? {writing : Writing} (spells : writing.datum? = some value)
    (ordinary : value.Ordinary depth) (within : writing.Within places)
    (few : places ≤ maxWrittenDecimals) :
    ∃ read, writing.value? depth = some read := by
  induction depth using Nat.strong_induction_on generalizing writing value with
  | _ depth ih =>
    cases writes_of_datum? spells with
    | null => exact ⟨.null, by rw [value?]⟩
    | bool given => exact ⟨.bool given, by rw [value?]⟩
    | string spelled => exact ⟨.string _, by rw [value?, spelled, Option.map_some]⟩
    | number figure =>
      rw [Datum.Ordinary] at ordinary
      rw [Within] at within
      obtain ⟨number, given⟩ := Figure.exists_number? ordinary (by omega)
      exact ⟨.number number, by rw [value?, given, Option.map_some]⟩
    | array opening each =>
      cases depth with
      | zero => exact ordinary.elim
      | succ depth => exact exists_value?_array (ih depth (Nat.lt_succ_self _)) each ordinary within
    | object opening each =>
      cases depth with
      | zero => exact ordinary.elim
      | succ depth => exact exists_value?_object (ih depth (Nat.lt_succ_self _)) each ordinary within

end Ordinary

end Writing

end ExerciseAudit.Json
