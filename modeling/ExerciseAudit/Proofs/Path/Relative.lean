import ExerciseAudit.Path.Relative
import ExerciseAudit.Proofs.Path.Join
import ExerciseAudit.Proofs.Text.Ascii

/-!
# Paths below a root

Names that are followed from a root, however the root is spelled, are a path that is joined to it
(`Path.descend_eq_join`), and they are the way from the root to where they lead
(`Path.relativeTo_descend`).
-/

namespace ExerciseAudit.Path

variable {root path : Path} {names : List Name}

/-- An absolute path replaces the root it is put under. -/
theorem join_of_isAbsolute (absolute : path.isAbsolute = true) : root.join path = path := by
  simp [join, absolute]

/-- The path that some names make. -/
def ofNames (names : List Name) : Path :=
  descend ⟨[]⟩ names

theorem ofNames_cons (name : Name) (names : List Name) :
    ofNames (name :: names) = (⟨name⟩ : Path).descend names := by
  have first : (⟨[]⟩ : Path).join ⟨name⟩ = ⟨name⟩ := by simp [join]
  rw [ofNames, descend_cons, first]

/-- A path under a root ends as the path does. -/
theorem getLast?_join (root : Path) (relative : path.isAbsolute = false)
    (inhabited : path.bytes ≠ []) :
    (root.join path).bytes.getLast? = path.bytes.getLast? := by
  obtain ⟨front, last, split⟩ := (List.eq_nil_or_concat' path.bytes).resolve_left inhabited
  rw [bytes_join root relative, split]
  split <;> simp [List.getLast?_append, List.getLast?_cons]

/-- A name that is joined to a path below a root is joined below the root. -/
theorem join_join_name (inhabited : path.bytes ≠ []) {name : Name} (valid : name.Valid) :
    (root.join path).join ⟨name⟩ = root.join (path.join ⟨name⟩) := by
  have below := isAbsolute_join_name inhabited valid
  by_cases absolute : path.isAbsolute = true
  · rw [join_of_isAbsolute absolute, join_of_isAbsolute (below.trans absolute)]
  · rw [Bool.not_eq_true] at absolute
    have last := getLast?_join root absolute inhabited
    have whole : (root.join path).bytes ≠ [] := fun vacant => by
      rw [vacant] at last
      exact inhabited (List.getLast?_eq_none_iff.mp last.symm)
    have bytes : ((root.join path).join ⟨name⟩).bytes = (root.join (path.join ⟨name⟩)).bytes := by
      rw [bytes_join_name _ valid, bytes_join root (below.trans absolute), bytes_join_name _ valid,
        last]
      simp only [whole, inhabited, false_or]
      rw [bytes_join root absolute]
      split <;> split <;> simp
    exact congrArg Path.mk bytes

/-- Descending from a path under a root is descending before it is put there. -/
theorem descend_join (inhabited : path.bytes ≠ []) (valid : ∀ name ∈ names, name.Valid) :
    (root.join path).descend names = root.join (path.descend names) := by
  induction names generalizing path with
  | nil => rfl
  | cons name rest ih =>
    obtain ⟨here, later⟩ := List.forall_mem_cons.mp valid
    rw [descend_cons, descend_cons, join_join_name inhabited here,
      ih (bytes_join_name_ne_nil path here) later]

/-- Names that are followed from a root are a path that is joined to it. -/
theorem descend_eq_join (inhabited : names ≠ []) (valid : ∀ name ∈ names, name.Valid) :
    root.descend names = root.join (ofNames names) := by
  obtain ⟨name, rest, rfl⟩ := List.exists_cons_of_ne_nil inhabited
  obtain ⟨here, later⟩ := List.forall_mem_cons.mp valid
  rw [descend_cons, ofNames_cons, descend_join here.1 later]

theorem intercalate_cons {α : Type} (row first : List α) (rest : List (List α)) :
    row.intercalate (first :: rest) = first ++ rest.flatMap (row ++ ·) := by
  induction rest generalizing first with
  | nil => simp [List.intercalate]
  | cons next rest ih => simp [List.intercalate_cons_cons, ih]

theorem isAbsolute_descend (inhabited : path.bytes ≠ []) (valid : ∀ name ∈ names, name.Valid) :
    (path.descend names).isAbsolute = path.isAbsolute := by
  induction names generalizing path with
  | nil => rfl
  | cons name rest ih =>
    obtain ⟨here, later⟩ := List.forall_mem_cons.mp valid
    rw [descend_cons, ih (bytes_join_name_ne_nil path here) later,
      isAbsolute_join_name inhabited here]

/-- Descending puts each name behind a separator. -/
theorem bytes_descend (solid : path.bytes.getLast? ≠ some separator) (inhabited : path.bytes ≠ [])
    (valid : ∀ name ∈ names, name.Valid) :
    (path.descend names).bytes = path.bytes ++ names.flatMap (separator :: ·) := by
  induction names generalizing path with
  | nil => simp
  | cons name rest ih =>
    obtain ⟨here, later⟩ := List.forall_mem_cons.mp valid
    have last : (path.join ⟨name⟩).bytes.getLast? ≠ some separator := by
      rw [getLast?_join path (isAbsolute_name here) here.1]
      exact fun same => here.2.1 (List.mem_of_getLast? same)
    rw [descend_cons, ih last (bytes_join_name_ne_nil path here) later, bytes_join_name path here]
    simp [solid, inhabited]

/-- The path that some names make is the names with a separator between each and the next. -/
theorem bytes_ofNames (valid : ∀ name ∈ names, name.Valid) :
    (ofNames names).bytes = [separator].intercalate names := by
  cases names with
  | nil => rfl
  | cons name rest =>
    obtain ⟨here, later⟩ := List.forall_mem_cons.mp valid
    have last : name.getLast? ≠ some separator :=
      fun same => here.2.1 (List.mem_of_getLast? same)
    rw [ofNames_cons, bytes_descend last here.1 later, intercalate_cons]
    rfl

/-! ## The way back -/

/-- The way down from a directory is what follows it. -/
theorem route?_append (directory rest : List Component) :
    route? true (directory ++ rest) directory = some rest := by
  induction directory with
  | nil => cases rest <;> rfl
  | cons step directory ih => simp [route?, ih]

theorem ofComponents_map_name (names : List Name) :
    ofComponents (names.map .name) = ofNames names := by
  rw [ofComponents, List.foldl_map]
  rfl

/-- The way from a root to where names lead from it are these names. -/
theorem relativeTo_descend (inhabited : root.bytes ≠ []) (valid : ∀ name ∈ names, name.Valid) :
    (root.descend names).relativeTo root = ofNames names := by
  rw [relativeTo, if_pos (isAbsolute_descend inhabited valid), components_descend root valid,
    route?_append]
  exact ofComponents_map_name names

/-- Bytes as a report shows them: as text, with broken stretches replaced and `/` for every `\`. -/
def slashed (bytes : List UInt8) : String :=
  String.ofList ((Utf8.lossy bytes).map fun c => if c = '\\' then '/' else c)

/-- A path that names make from a root is shown as these names with `/` between them. -/
theorem shownFrom_descend (inhabited : root.bytes ≠ []) (valid : ∀ name ∈ names, name.Valid) :
    (root.descend names).shownFrom root = slashed ([separator].intercalate names) := by
  rw [shownFrom, relativeTo_descend inhabited valid, bytes_ofNames valid, slashed]

/-- Plain text in front of some bytes is shown as it is. -/
theorem slashed_encode_append {text : List Char} (plain : ∀ c ∈ text, Utf8.Plain c)
    (straight : '\\' ∉ text) (bytes : List UInt8) :
    slashed (Utf8.encode text ++ bytes) = String.ofList text ++ slashed bytes := by
  have kept : text.map (fun c => if c = '\\' then '/' else c) = text :=
    (List.map_congr_left fun c member => if_neg (ne_of_mem_of_not_mem member straight)).trans
      (List.map_id' text)
  have read : Utf8.lossy (Utf8.encode text ++ bytes) = text ++ Utf8.lossy bytes :=
    Utf8.lossyFrom_encode_append plain bytes
  rw [slashed, read, List.map_append, kept, String.ofList_append, slashed]

end ExerciseAudit.Path
