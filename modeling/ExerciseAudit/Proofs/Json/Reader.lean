import ExerciseAudit.Proofs.Json.Figure
import Mathlib.Data.List.DropRight

/-!
# Reading what is written: values

A reader of values takes exactly a writing, wherever it stands, and gives a result that depends on
the writing alone (`Reads`). Lists and objects are read item by item and member by member, so what a
reader makes of them is what it makes of their parts, in order.
-/

namespace ExerciseAudit.Json

/-- Behind any blanks, a reader takes a text up to where it stops, and gives a result or refuses
it. -/
def Reads {α : Type} (read : List Char → Outcome α) (text : List Char) (result : Option α) : Prop :=
  ∀ (blanks : List Blank) {rest : List Char}, Stops rest →
    (read (spaces blanks ++ (text ++ rest))).toOption = result.map (·, rest)

theorem eq_ok_of_toOption {ε α : Type} {outcome : Except ε α} {value : α}
    (given : outcome.toOption = some value) : outcome = .ok value := by
  cases outcome with
  | error fault => cases given
  | ok other => cases given; rfl

theorem exists_eq_error_of_toOption {α : Type} {outcome : Except Fault α}
    (refused : outcome.toOption = none) : ∃ fault, outcome = .error fault := by
  cases outcome with
  | error fault => exact ⟨fault, rfl⟩
  | ok other => cases refused

theorem mapM_cons_eq {α β : Type} (f : α → Option β) (first : α) (rest : List α) :
    (first :: rest).mapM f = (f first).bind fun value => (rest.mapM f).map (value :: ·) := by
  rw [List.mapM_cons]
  cases f first with
  | none => rfl
  | some value => cases rest.mapM f <;> rfl

/-- A text with commas between items is longer than the number of items, so that there is fuel for
all of them. -/
theorem length_le_length_flatMap {α : Type} (text : α → List Char) (items : List α) :
    items.length ≤ (items.flatMap fun item => ',' :: text item).length := by
  induction items with
  | nil => exact le_rfl
  | cons item items ih =>
    rw [List.flatMap_cons, List.length_append, List.length_cons, List.length_cons]
    omega

/-! ## How a value starts -/

/-- The first character of a number. -/
theorem exists_figure_eq_cons (figure : Figure) :
    ∃ c rest, figure.text = c :: rest ∧ (c = '-' ∨ isDigit c = true) := by
  obtain ⟨digit, later, unsigned⟩ := exists_unsigned_eq_cons figure
  unfold Figure.text
  cases figure.negative with
  | true => exact ⟨'-', _, rfl, .inl rfl⟩
  | false => exact ⟨digitChar digit, later, unsigned, .inr (isDigit_digitChar digit)⟩

/-- A number's first character starts nothing else. -/
theorem ne_of_numeric {c : Char} (numeric : c = '-' ∨ isDigit c = true) :
    c ∉ [' ', '\n', '\t', '\r', ',', ']', '\x7d', '[', '\x7b', '"', 'n', 't', 'f'] := by
  rcases numeric with rfl | digit
  · decide
  · intro member
    have none : [' ', '\n', '\t', '\r', ',', ']', '\x7d', '[', '\x7b', '"', 'n', 't', 'f'].all
        (fun c => !isDigit c) = true := by decide
    have other := List.all_eq_true.mp none c member
    rw [digit] at other
    cases other

namespace Writing

/-- A value starts with a visible character that no list or object ends or goes on with. -/
theorem exists_text_eq_cons (writing : Writing) :
    ∃ c rest, writing.text = c :: rest ∧ isSpace c = false ∧ c ≠ ',' ∧ c ≠ ']' ∧ c ≠ '\x7d' := by
  cases writing with
  | null => exact ⟨_, _, by rw [text], by decide⟩
  | bool value => cases value <;> exact ⟨_, _, by rw [text], by decide⟩
  | number figure =>
    obtain ⟨c, rest, start, numeric⟩ := exists_figure_eq_cons figure
    have other := ne_of_numeric numeric
    simp only [List.mem_cons, not_or] at other
    exact ⟨c, rest, by rw [text, start], by simp [isSpace, other]⟩
  | string glyphs => exact ⟨_, _, by rw [text], by decide⟩
  | array opening items => exact ⟨_, _, by rw [text], by decide⟩
  | object opening members => exact ⟨_, _, by rw [text], by decide⟩

/-- Behind its blanks a value is left as it is written, since it starts with no blank. -/
theorem skipSpace_text (writing : Writing) (blanks : List Blank) (rest : List Char) :
    skipSpace (spaces blanks ++ (writing.text ++ rest)) = writing.text ++ rest := by
  obtain ⟨c, later, start, visible, _⟩ := writing.exists_text_eq_cons
  rw [skipSpace_spaces, start, List.cons_append, skipSpace_cons visible]

end Writing

/-! ## Lists -/

theorem nextItem_close (first : Bool) (blanks : List Blank) (rest : List Char) :
    nextItem first (spaces blanks ++ ']' :: rest) = .ok (.close rest) := by
  unfold nextItem
  rw [skipSpace_spaces, skipSpace_cons (by decide)]
  rfl

theorem nextItem_first (writing : Writing) (blanks : List Blank) (rest : List Char) :
    nextItem true (spaces blanks ++ (writing.text ++ rest)) =
      .ok (.item (writing.text ++ rest)) := by
  unfold nextItem
  rw [writing.skipSpace_text]
  obtain ⟨c, later, start, _, _, notClosing, _⟩ := writing.exists_text_eq_cons
  simp [start, notClosing]

theorem nextItem_comma (writing : Writing) (blanks before : List Blank) (rest : List Char) :
    nextItem false (spaces blanks ++ ',' :: (spaces before ++ (writing.text ++ rest))) =
      .ok (.item (writing.text ++ rest)) := by
  unfold nextItem
  rw [skipSpace_spaces, skipSpace_cons (by decide)]
  simp only [Char.reduceEq, ↓reduceIte, Bool.false_eq_true, writing.skipSpace_text]
  obtain ⟨c, later, start, _, _, notClosing, _⟩ := writing.exists_text_eq_cons
  simp [start, notClosing]

section Items

variable {α : Type} {item : List Char → Outcome α} {result : Writing → Option α}

/-- Reading an item and all that follow it is reading each. -/
theorem toOption_readItems_item {slot : Slot Writing} {bound : Nat} {first : Bool}
    {text later rest : List Char} {others : Option (List α)}
    (next : nextItem first text = .ok (.item (slot.value.text ++ later))) (stops : Stops later)
    (reads : Reads item slot.value.text (result slot.value))
    (readsLater : (readItems item bound false later).toOption = others.map (·, rest)) :
    (readItems item (bound + 1) first text).toOption =
      ((result slot.value).bind fun value => others.map (value :: ·)).map (·, rest) := by
  have here := reads [] stops
  rw [spaces, List.map_nil, List.nil_append] at here
  simp only [readItems, next]
  cases given : result slot.value with
  | none =>
    rw [given] at here
    obtain ⟨fault, refused⟩ := exists_eq_error_of_toOption here
    rw [refused]
    rfl
  | some value =>
    rw [given] at here
    rw [eq_ok_of_toOption here]
    cases others with
    | none =>
      obtain ⟨fault, refused⟩ := exists_eq_error_of_toOption readsLater
      simp only [refused]
      rfl
    | some values =>
      simp only [eq_ok_of_toOption readsLater]
      rfl

theorem stops_items (slots : List (Slot Writing)) (rest : List Char) :
    Stops (slots.flatMap (fun slot => ',' :: slot.text) ++ ']' :: rest) := by
  cases slots with
  | nil => exact stops_cons (by decide)
  | cons slot slots => exact stops_cons (by decide)

/-- A list's reader takes in the items behind the first one as each of them is taken in. -/
theorem toOption_readItems_later {slots : List (Slot Writing)}
    (reads : ∀ slot ∈ slots, Reads item slot.value.text (result slot.value)) {bound : Nat}
    (enough : slots.length < bound) (blanks : List Blank) (rest : List Char) :
    (readItems item bound false
        (spaces blanks ++ (slots.flatMap (fun slot => ',' :: slot.text) ++ ']' :: rest))).toOption =
      (slots.mapM fun slot => result slot.value).map (·, rest) := by
  induction slots generalizing bound blanks with
  | nil =>
    obtain ⟨bound, rfl⟩ := Nat.exists_eq_add_of_lt enough
    simp [readItems, nextItem_close, Except.toOption]
  | cons slot slots ih =>
    obtain ⟨readsHere, readsLater⟩ := List.forall_mem_cons.mp reads
    obtain ⟨bound, rfl⟩ := Nat.exists_eq_add_of_lt enough
    have enoughLater : slots.length < slots.length + 1 + bound := by omega
    have later := ih readsLater enoughLater slot.after
    have next := nextItem_comma slot.value blanks slot.before
      (spaces slot.after ++ (slots.flatMap (fun slot => ',' :: slot.text) ++ ']' :: rest))
    rw [mapM_cons_eq, ← toOption_readItems_item next (stops_spaces _ (stops_items slots rest))
      readsHere later]
    simp [Slot.text]

/-- A list is read item by item. -/
theorem toOption_readList {slots : List (Slot Writing)}
    (reads : ∀ slot ∈ slots, Reads item slot.value.text (result slot.value))
    (blanks : List Blank) (rest : List Char) :
    (readList item (spaces blanks ++ (separated (slots.map Slot.text) ++ ']' :: rest))).toOption =
      (slots.mapM fun slot => result slot.value).map (·, rest) := by
  unfold readList
  cases slots with
  | nil => simp [separated, readItems, nextItem_close, Except.toOption]
  | cons slot slots =>
    obtain ⟨readsHere, readsLater⟩ := List.forall_mem_cons.mp reads
    let tail := slots.flatMap (fun slot => ',' :: slot.text) ++ ']' :: rest
    have bound : slots.length < (spaces blanks ++
        (separated ((slot :: slots).map Slot.text) ++ ']' :: rest)).length := by
      have enough := length_le_length_flatMap Slot.text slots
      simp only [separated, List.map_cons, List.flatMap_map, List.length_append, List.length_cons]
      omega
    have later := toOption_readItems_later readsLater bound slot.after rest
    have next := nextItem_first slot.value (blanks ++ slot.before) (spaces slot.after ++ tail)
    have found := toOption_readItems_item next (stops_spaces _ (stops_items slots rest)) readsHere
      later
    rw [mapM_cons_eq, ← found]
    simp [separated, Slot.text, spaces, tail, List.flatMap_map]

end Items

/-! ## Objects -/

theorem nextKey_close (first : Bool) (blanks : List Blank) (rest : List Char) :
    nextKey first (spaces blanks ++ '\x7d' :: rest) = .ok (.close rest) := by
  unfold nextKey
  rw [skipSpace_spaces, skipSpace_cons (by decide)]
  rfl

/-- A quoted name is read as what it spells, or refused if it spells nothing. -/
theorem toOption_readKey (glyphs : List Glyph) (rest : List Char) :
    (readKey ('"' :: (quoted glyphs ++ rest))).toOption =
      (string? glyphs).map fun name => .key name rest := by
  have here := toOption_readString glyphs rest
  rw [readKey, string?]
  cases spelled : Glyph.spelled? glyphs with
  | none =>
    rw [spelled] at here
    obtain ⟨fault, refused⟩ := exists_eq_error_of_toOption here
    rw [refused]
    rfl
  | some text =>
    rw [spelled] at here
    rw [eq_ok_of_toOption here]
    rfl

theorem nextKey_first (blanks : List Blank) (rest : List Char) :
    nextKey true (spaces blanks ++ '"' :: rest) = readKey ('"' :: rest) := by
  unfold nextKey
  rw [skipSpace_spaces, skipSpace_cons (by decide)]
  rfl

theorem nextKey_comma (blanks before : List Blank) (rest : List Char) :
    nextKey false (spaces blanks ++ ',' :: (spaces before ++ '"' :: rest)) =
      readKey ('"' :: rest) := by
  unfold nextKey
  rw [skipSpace_spaces, skipSpace_cons (by decide)]
  simp only [Char.reduceEq, ↓reduceIte, Bool.false_eq_true, skipSpace_spaces]
  rw [skipSpace_cons (by decide)]
  simp

theorem readColon_spaces (gap : List Blank) (rest : List Char) :
    readColon (spaces gap ++ ':' :: rest) = .ok rest := by
  unfold readColon
  rw [skipSpace_spaces, skipSpace_cons (by decide)]
  rfl

section Members

variable {σ : Type} {member : σ → String → List Char → Outcome σ}
  {step : σ → String → Writing → Option σ}

/-- Behind a member's name, a reader takes the rest of the member and adds to what was gathered. -/
def ReadsMember (member : σ → String → List Char → Outcome σ)
    (step : σ → String → Writing → Option σ) (written : Member Writing) : Prop :=
  ∀ gathered name {rest : List Char}, Stops rest →
    (member gathered name (spaces written.gap ++ ':' ::
      (spaces written.ahead ++ (written.value.text ++ rest)))).toOption =
        (step gathered name written.value).map (·, rest)

/-- What a member adds to what was gathered, if its name is one. -/
def addMember (step : σ → String → Writing → Option σ) (gathered : σ) (written : Member Writing) :
    Option σ :=
  (string? written.name).bind fun name => step gathered name written.value

/-- Reading a member and all that follow it is adding each to what was gathered. -/
theorem toOption_readMembers_key {written : Member Writing} {bound : Nat} {first : Bool}
    (gathered : σ) {text later rest : List Char} {others : σ → Option σ}
    (next : nextKey first text = readKey ('"' :: (quoted written.name ++ (spaces written.gap ++
      ':' :: (spaces written.ahead ++ (written.value.text ++ later)))))) (stops : Stops later)
    (reads : ReadsMember member step written)
    (readsLater : ∀ gathered, (readMembers member bound false gathered later).toOption =
      (others gathered).map (·, rest)) :
    (readMembers member (bound + 1) first gathered text).toOption =
      ((addMember step gathered written).bind others).map (·, rest) := by
  have key := toOption_readKey written.name (spaces written.gap ++ ':' ::
    (spaces written.ahead ++ (written.value.text ++ later)))
  rw [← next] at key
  unfold addMember
  cases named : string? written.name with
  | none =>
    rw [named] at key
    obtain ⟨fault, refused⟩ := exists_eq_error_of_toOption key
    simp only [readMembers, refused]
    rfl
  | some name =>
    rw [named] at key
    have here := reads gathered name stops
    simp only [readMembers, eq_ok_of_toOption key, Option.bind_some]
    cases added : step gathered name written.value with
    | none =>
      rw [added] at here
      obtain ⟨fault, refused⟩ := exists_eq_error_of_toOption here
      rw [refused]
      rfl
    | some value =>
      rw [added] at here
      rw [eq_ok_of_toOption here]
      exact readsLater value

theorem stops_members (members : List (Member Writing)) (rest : List Char) :
    Stops (members.flatMap (fun written => ',' :: written.text) ++ '\x7d' :: rest) := by
  cases members with
  | nil => exact stops_cons (by decide)
  | cons written members => exact stops_cons (by decide)

/-- An object's reader takes in the members behind the first one step by step. -/
theorem toOption_readMembers_later {members : List (Member Writing)}
    (reads : ∀ written ∈ members, ReadsMember member step written) {bound : Nat}
    (enough : members.length < bound) (gathered : σ) (blanks : List Blank) (rest : List Char) :
    (readMembers member bound false gathered (spaces blanks ++
        (members.flatMap (fun written => ',' :: written.text) ++ '\x7d' :: rest))).toOption =
      (members.foldlM (addMember step) gathered).map (·, rest) := by
  induction members generalizing bound blanks gathered with
  | nil =>
    obtain ⟨bound, rfl⟩ := Nat.exists_eq_add_of_lt enough
    simp [readMembers, nextKey_close, Except.toOption]
  | cons written members ih =>
    obtain ⟨readsHere, readsLater⟩ := List.forall_mem_cons.mp reads
    obtain ⟨bound, rfl⟩ := Nat.exists_eq_add_of_lt enough
    have enoughLater : members.length < members.length + 1 + bound := by omega
    have later := fun gathered => ih readsLater enoughLater gathered written.after
    have next := nextKey_comma blanks written.before (quoted written.name ++ (spaces written.gap ++
      ':' :: (spaces written.ahead ++ (written.value.text ++ (spaces written.after ++
        (members.flatMap (fun written => ',' :: written.text) ++ '\x7d' :: rest))))))
    have found := toOption_readMembers_key gathered next
      (stops_spaces _ (stops_members members rest)) readsHere later
    rw [List.foldlM_cons]
    simp only [bind] at found ⊢
    rw [← found]
    simp [Member.text]

/-- An object is read member by member. -/
theorem toOption_readObject {members : List (Member Writing)}
    (reads : ∀ written ∈ members, ReadsMember member step written) (start : σ)
    (blanks : List Blank) (rest : List Char) :
    (readObject member start (spaces blanks ++
        (separated (members.map Member.text) ++ '\x7d' :: rest))).toOption =
      (members.foldlM (addMember step) start).map (·, rest) := by
  unfold readObject
  cases members with
  | nil => simp [separated, readMembers, nextKey_close, Except.toOption]
  | cons written members =>
    obtain ⟨readsHere, readsLater⟩ := List.forall_mem_cons.mp reads
    have bound : members.length < (spaces blanks ++
        (separated ((written :: members).map Member.text) ++ '\x7d' :: rest)).length := by
      have enough := length_le_length_flatMap Member.text members
      simp only [separated, List.map_cons, List.flatMap_map, List.length_append, List.length_cons]
      omega
    have later := fun gathered =>
      toOption_readMembers_later readsLater bound gathered written.after rest
    have next := nextKey_first (blanks ++ written.before) (quoted written.name ++
      (spaces written.gap ++ ':' :: (spaces written.ahead ++ (written.value.text ++
        (spaces written.after ++
          (members.flatMap (fun written => ',' :: written.text) ++ '\x7d' :: rest))))))
    have found := toOption_readMembers_key start next
      (stops_spaces _ (stops_members members rest)) readsHere later
    rw [List.foldlM_cons]
    simp only [bind] at found ⊢
    rw [← found]
    simp [separated, Member.text, spaces, List.flatMap_map]

end Members

/-! ## Any value -/

/-- The value that a reader makes of what is written, if brackets nest at most `depth` deep in it,
its strings spell something and its numbers are within range. -/
def Writing.value? : Nat → Writing → Option Value
  | _, .null => some .null
  | _, .bool value => some (.bool value)
  | _, .number figure => figure.number?.map .number
  | _, .string glyphs => (string? glyphs).map .string
  | 0, .array _ _ => none
  | depth + 1, .array _ items =>
    (items.mapM fun slot : Slot Writing => slot.value.value? depth).map .array
  | 0, .object _ _ => none
  | depth + 1, .object _ members =>
    (members.mapM fun member : Member Writing => (string? member.name).bind fun name =>
      (member.value.value? depth).map (name, ·)).map .object

/-- Gathering members one before the other is reading them all, in reverse order. -/
theorem foldlM_cons_eq_mapM {α β : Type} (read : α → Option β) (items : List α)
    (gathered : List β) :
    (items.foldlM (fun gathered item => (read item).map (· :: gathered)) gathered).map
        List.reverse =
      (items.mapM read).map (gathered.reverse ++ ·) := by
  induction items generalizing gathered with
  | nil => simp
  | cons item items ih =>
    rw [List.foldlM_cons, mapM_cons_eq]
    cases read item with
    | none => rfl
    | some value =>
      have later := ih (value :: gathered)
      simp only [bind, Option.map_some, Option.bind_some] at later ⊢
      rw [later]
      simp [Function.comp_def]

theorem toOption_map {α β : Type} (f : α → β) (outcome : Except Fault α) :
    (outcome.map f).toOption = outcome.toOption.map f := by
  cases outcome <;> rfl

/-- Blanks before a value do not matter. -/
theorem readValue_skipSpace (depth : Nat) (text : List Char) :
    readValue depth text = readValue depth (skipSpace text) := by
  have twice : skipSpace (skipSpace text) = skipSpace text := List.dropWhile_idempotent ..
  rw [readValue.eq_def, readValue.eq_def depth (skipSpace text)]
  simp only [twice]

theorem readValue_number {c : Char} (numeric : c = '-' ∨ isDigit c = true) (depth : Nat)
    (rest : List Char) : readValue depth (c :: rest) =
      (readNumber (c :: rest)).map fun (number, rest) => (.number number, rest) := by
  have other := ne_of_numeric numeric
  simp only [List.mem_cons, not_or] at other
  have visible : isSpace c = false := by simp [isSpace, other]
  rw [readValue.eq_def]
  simp only [skipSpace_cons visible, other, numeric, ↓reduceIte]

theorem readValue_string (depth : Nat) (rest : List Char) : readValue depth ('"' :: rest) =
    (readString rest).map fun (text, rest) => (.string (String.ofList text), rest) := by
  rw [readValue.eq_def]
  rfl

theorem readValue_array (depth : Nat) (rest : List Char) : readValue (depth + 1) ('[' :: rest) =
    (readList (readValue depth) rest).map fun (items, rest) => (.array items, rest) := by
  rw [readValue.eq_def]
  rfl

/-- Read a member behind its name and put it in front of those that were read before. -/
def gatherMember (depth : Nat) (gathered : List (String × Value)) (name : String)
    (rest : List Char) : Outcome (List (String × Value)) :=
  match readColon rest with
  | .error fault => .error fault
  | .ok rest => (readValue depth rest).map fun (value, rest) => ((name, value) :: gathered, rest)

theorem readValue_object (depth : Nat) (rest : List Char) : readValue (depth + 1) ('\x7b' :: rest) =
    (readObject (gatherMember depth) [] rest).map fun (members, rest) =>
      (.object members.reverse, rest) := by
  rw [readValue.eq_def]
  rfl

/-- Reading an array's text is taking in the array, if it is so for what lies deeper. -/
theorem toOption_readValue_array {depth : Nat}
    (ih : ∀ writing : Writing, Reads (readValue depth) writing.text (writing.value? depth))
    (opening : List Blank) (items : List (Slot Writing)) (rest : List Char) :
    (readValue (depth + 1) ((Writing.array opening items).text ++ rest)).toOption =
      ((Writing.array opening items).value? (depth + 1)).map (·, rest) := by
  have each : ∀ slot ∈ items, Reads (readValue depth) slot.value.text (slot.value.value? depth) :=
    fun slot _ => ih slot.value
  have list := toOption_readList each opening rest
  rw [Writing.text_array, List.cons_append, readValue_array, toOption_map]
  simp only [List.append_assoc, List.singleton_append, list, Writing.value?, Option.map_map]
  rfl

/-- Reading an object's text is taking in the object, if it is so for what lies deeper. -/
theorem toOption_readValue_object {depth : Nat}
    (ih : ∀ writing : Writing, Reads (readValue depth) writing.text (writing.value? depth))
    (opening : List Blank) (members : List (Member Writing)) (rest : List Char) :
    (readValue (depth + 1) ((Writing.object opening members).text ++ rest)).toOption =
      ((Writing.object opening members).value? (depth + 1)).map (·, rest) := by
  let member? (member : Member Writing) : Option (String × Value) :=
    (string? member.name).bind fun name => (member.value.value? depth).map (name, ·)
  let step (gathered : List (String × Value)) (name : String) (writing : Writing) :
      Option (List (String × Value)) :=
    (writing.value? depth).map fun value => (name, value) :: gathered
  have each : ∀ written ∈ members, ReadsMember (gatherMember depth) step written := by
    intro written _ gathered name later stops
    unfold gatherMember
    rw [readColon_spaces]
    simp only [toOption_map, ih written.value written.ahead stops, step, Option.map_map]
    rfl
  have added (gathered : List (String × Value)) (written : Member Writing) :
      addMember step gathered written = (member? written).map (· :: gathered) := by
    unfold addMember
    cases named : string? written.name <;> simp [member?, step, named, Function.comp_def]
  have folded : (members.foldlM (addMember step) []).map List.reverse = members.mapM member? := by
    rw [funext₂ added, foldlM_cons_eq_mapM]
    simp
  have object := toOption_readObject each [] opening rest
  rw [Writing.text_object, List.cons_append, readValue_object, toOption_map]
  simp only [List.append_assoc, List.singleton_append, object, Writing.value?, Option.map_map]
  rw [← folded, Option.map_map]
  rfl

/-- Any value is read up to where it stops. -/
theorem reads_readValue (depth : Nat) (writing : Writing) :
    Reads (readValue depth) writing.text (writing.value? depth) := by
  induction depth using Nat.strong_induction_on generalizing writing with
  | _ depth ih =>
    intro blanks rest stops
    rw [readValue_skipSpace, writing.skipSpace_text]
    cases writing with
    | null =>
      rw [Writing.text, Writing.value?, readValue.eq_def]
      rfl
    | bool value => cases value <;> rw [Writing.text, Writing.value?, readValue.eq_def] <;> rfl
    | string glyphs =>
      rw [Writing.text, List.cons_append, readValue_string, toOption_map, toOption_readString]
      simp [Writing.value?, string?, Function.comp_def]
    | number figure =>
      obtain ⟨c, later, first, numeric⟩ := exists_figure_eq_cons figure
      have number := toOption_readNumber figure stops
      rw [first, List.cons_append] at number
      rw [Writing.text, first, List.cons_append, readValue_number numeric, toOption_map, number]
      simp [Writing.value?, Function.comp_def]
    | array opening items =>
      cases depth with
      | zero =>
        rw [Writing.text_array, readValue.eq_def]
        rfl
      | succ depth =>
        exact toOption_readValue_array (ih depth (Nat.lt_succ_self _)) opening items rest
    | object opening members =>
      cases depth with
      | zero =>
        rw [Writing.text_object, readValue.eq_def]
        rfl
      | succ depth =>
        exact toOption_readValue_object (ih depth (Nat.lt_succ_self _)) opening members rest

theorem readEnd_spaces (blanks : List Blank) : readEnd (spaces blanks) = .ok () := by
  have all := skipSpace_spaces blanks []
  rw [List.append_nil] at all
  unfold readEnd
  rw [all]
  rfl

/-! ## Values of a wanted kind -/

namespace Writing

/-- The text that is written, if it is one. -/
def text? : Writing → Option String
  | string glyphs => string? glyphs
  | _ => none

/-- The text that is written, or nothing where nothing is written. -/
def textOrNull? : Writing → Option (Option String)
  | null => some none
  | writing => writing.text?.map some

/-- What is made of the items of a list, if a list is written. -/
def list? {α : Type} (result : Writing → Option α) : Writing → Option (List α)
  | array _ items => items.mapM fun slot => result slot.value
  | _ => none

/-- Only a string starts with a quote, only a list and only an object with their bracket, and only
null with its first letter. -/
theorem exists_text_eq_cons_of_kind (writing : Writing) :
    ∃ c rest, writing.text = c :: rest ∧ ((∀ glyphs, writing ≠ string glyphs) → c ≠ '"') ∧
      ((∀ opening items, writing ≠ array opening items) → c ≠ '[') ∧
      ((∀ opening members, writing ≠ object opening members) → c ≠ '\x7b') ∧
      (writing ≠ null → c ≠ 'n') := by
  cases writing with
  | null => exact ⟨_, _, by rw [text], by simp⟩
  | bool value => cases value <;> exact ⟨_, _, by rw [text], by simp⟩
  | number figure =>
    obtain ⟨c, rest, start, numeric⟩ := exists_figure_eq_cons figure
    have other := ne_of_numeric numeric
    simp only [List.mem_cons, not_or] at other
    exact ⟨c, rest, by rw [text, start], by simp [other]⟩
  | string glyphs => exact ⟨_, _, by rw [text], by simp⟩
  | array opening items => exact ⟨_, _, by rw [text], by simp⟩
  | object opening members => exact ⟨_, _, by rw [text], by simp⟩

/-- Only arrays start with a square bracket, and only objects with a brace. -/
theorem text_ne_bracket {writing : Writing}
    (noArray : ∀ opening items, writing ≠ array opening items)
    (noObject : ∀ opening members, writing ≠ object opening members) (rest later : List Char) :
    writing.text ++ rest ≠ '[' :: later ∧ writing.text ++ rest ≠ '\x7b' :: later := by
  obtain ⟨c, inner, start, _, notBracket, notBrace, _⟩ := writing.exists_text_eq_cons_of_kind
  rw [start, List.cons_append]
  constructor
  · intro same
    exact notBracket noArray (List.cons.inj same).1
  · intro same
    exact notBrace noObject (List.cons.inj same).1

end Writing

theorem reads_readText (writing : Writing) : Reads readText writing.text writing.text? := by
  intro blanks rest stops
  unfold readText
  rw [writing.skipSpace_text]
  by_cases kind : ∃ glyphs, writing = .string glyphs
  · obtain ⟨glyphs, rfl⟩ := kind
    rw [Writing.text, List.cons_append]
    simp only [toOption_map, toOption_readString, Writing.text?, string?, Option.map_map]
    rfl
  · rw [not_exists] at kind
    obtain ⟨c, later, start, notQuote, _⟩ := writing.exists_text_eq_cons_of_kind
    have none : writing.text? = none := by
      cases writing with
      | string glyphs => exact absurd rfl (kind glyphs)
      | _ => rfl
    rw [start, List.cons_append, none]
    split
    case h_1 same => exact absurd (List.cons.inj same).1 (notQuote kind)
    case h_2 => rfl

theorem reads_readTextOrNull (writing : Writing) :
    Reads readTextOrNull writing.text writing.textOrNull? := by
  intro blanks rest stops
  unfold readTextOrNull
  rw [writing.skipSpace_text]
  by_cases kind : writing = .null
  · subst kind
    rw [Writing.text]
    rfl
  · obtain ⟨c, later, start, _, _, _, notNull⟩ := writing.exists_text_eq_cons_of_kind
    have text := reads_readText writing [] stops
    have same : writing.textOrNull? = writing.text?.map some := by
      cases writing with
      | null => exact absurd rfl kind
      | _ => rfl
    rw [spaces, List.map_nil, List.nil_append, start, List.cons_append] at text
    rw [start, List.cons_append, same]
    split
    case h_1 begins => exact absurd (List.cons.inj begins).1 (notNull kind)
    case h_2 =>
      rw [toOption_map, text, Option.map_map, Option.map_map]
      rfl

/-- A reader of arrays takes in arrays whose items are taken in, and refuses all else. -/
theorem reads_readArray {α : Type} {item : List Char → Outcome α} {result : Writing → Option α}
    {writing : Writing}
    (reads : ∀ opening slots, writing = .array opening slots →
      ∀ slot ∈ slots, Reads item slot.value.text (result slot.value)) :
    Reads (readArray item) writing.text (writing.list? result) := by
  intro blanks rest stops
  unfold readArray
  rw [writing.skipSpace_text]
  by_cases kind : ∃ opening slots, writing = .array opening slots
  · obtain ⟨opening, slots, rfl⟩ := kind
    have list := toOption_readList (reads opening slots rfl) opening rest
    rw [Writing.text_array, List.cons_append]
    simp only [List.append_assoc, List.singleton_append, list, Writing.list?]
  · simp only [not_exists] at kind
    obtain ⟨c, later, start, _, notBracket, _⟩ := writing.exists_text_eq_cons_of_kind
    have none : writing.list? result = none := by
      cases writing with
      | array opening slots => exact absurd rfl (kind opening slots)
      | _ => rfl
    rw [start, List.cons_append, none]
    split
    case h_1 same => exact absurd (List.cons.inj same).1 (notBracket kind)
    case h_2 => rfl

end ExerciseAudit.Json
