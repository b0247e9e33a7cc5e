import ExerciseAudit.Manifest.Decode
import ExerciseAudit.Proofs.Json.Skip

/-!
# Reading what is written: manifests

What the reader of manifests makes of what is written (`Manifest.toOption_ofText_written`). Of an
object it takes each member in turn, so its result is a fold over the members, in which a name that
is met again ends the reading. A list holds the members' values in their order, and may end early.
-/

namespace ExerciseAudit

open Json

/-! ## Members of records -/

section Once

variable {α : Type} {read : List Char → Outcome α} {result : Writing → Option α}

/-- A member that may stand once is taken in where none was before. -/
theorem toOption_readOnce (field : String) (before : Option α) {written : Member Writing}
    (reads : Reads read written.value.text (result written.value)) {rest : List Char}
    (stops : Stops rest) :
    (readOnce field before read (spaces written.gap ++ ':' ::
      (spaces written.ahead ++ (written.value.text ++ rest)))).toOption =
        if before.isSome then none else (result written.value).map (·, rest) := by
  unfold readOnce
  split
  · rfl
  · rw [readColon_spaces]
    exact reads written.ahead stops

end Once

theorem skipMember_spaces (written : Member Writing) {rest : List Char} (stops : Stops rest) :
    skipMember (spaces written.gap ++ ':' ::
      (spaces written.ahead ++ (written.value.text ++ rest))) = .ok rest := by
  unfold skipMember
  rw [readColon_spaces]
  exact skipValue_text written.value written.ahead stops

/-! ## Records written as lists -/

theorem toOption_bind {α β : Type} (outcome : Except Fault α) (next : α → Except Fault β) :
    (outcome >>= next).toOption = outcome.toOption.bind fun value => (next value).toOption := by
  cases outcome <;> rfl

theorem ite_bind {α β : Type} (given : Prop) [Decidable given] (first second : Except Fault α)
    (next : α → Except Fault β) :
    (if given then first >>= next else second >>= next) =
      (if given then first else second) >>= next := by
  split <;> rfl

theorem closeList_close (blanks : List Blank) (rest : List Char) :
    closeList (spaces blanks ++ ']' :: rest) = .ok rest := by
  unfold closeList
  rw [skipSpace_spaces, skipSpace_cons (by decide)]
  rfl

theorem toOption_closeList_comma (blanks : List Blank) (rest : List Char) :
    (closeList (spaces blanks ++ ',' :: rest)).toOption = none := by
  unfold closeList
  rw [skipSpace_spaces, skipSpace_cons (by decide)]
  simp only [Char.reduceEq, ↓reduceIte]
  split <;> rfl

section Positional

variable {α : Type} {read : List Char → Outcome α} {result : Writing → Option α}

theorem readItemOrEnd_close (first : Bool) (blanks : List Blank) (rest : List Char) :
    readItemOrEnd first read (spaces blanks ++ ']' :: rest) =
      .ok (none, spaces blanks ++ ']' :: rest) := by
  unfold readItemOrEnd
  rw [nextItem_close]

theorem toOption_readItemOrEnd_first {writing : Writing}
    (reads : Reads read writing.text (result writing)) (blanks : List Blank) {rest : List Char}
    (stops : Stops rest) :
    (readItemOrEnd true read (spaces blanks ++ (writing.text ++ rest))).toOption =
      (result writing).map (some ·, rest) := by
  have here := reads [] stops
  rw [spaces, List.map_nil, List.nil_append] at here
  unfold readItemOrEnd
  rw [nextItem_first]
  simp only [toOption_map, here, Option.map_map]
  rfl

theorem toOption_readItemOrEnd_comma {writing : Writing}
    (reads : Reads read writing.text (result writing)) (blanks before : List Blank)
    {rest : List Char} (stops : Stops rest) :
    (readItemOrEnd false read
      (spaces blanks ++ ',' :: (spaces before ++ (writing.text ++ rest)))).toOption =
        (result writing).map (some ·, rest) := by
  have here := reads [] stops
  rw [spaces, List.map_nil, List.nil_append] at here
  unfold readItemOrEnd
  rw [nextItem_comma]
  simp only [toOption_map, here, Option.map_map]
  rfl

/-- The text of the items of a list behind blanks, with the closing bracket. A comma stands in front
of each item if others have been read before. -/
def itemsText (first : Bool) (blanks : List Blank) (slots : List (Slot Writing))
    (rest : List Char) : List Char :=
  spaces blanks ++ ((if first then separated (slots.map Slot.text)
    else slots.flatMap fun slot => ',' :: slot.text) ++ ']' :: rest)

/-- What is made of the first of some items, or nothing if there is none, and the other items. -/
def item? (result : Writing → Option α) :
    List (Slot Writing) → Option (Option α × List (Slot Writing))
  | [] => some (none, [])
  | slot :: later => (result slot.value).map (some ·, later)

/-- The item behind an earlier one; nothing is behind the end of a list. -/
def itemBehind? {β : Type} (result : Writing → Option α) (before : Option β)
    (slots : List (Slot Writing)) : Option (Option α × List (Slot Writing)) :=
  if before.isNone then some (none, slots) else item? result slots

/-- Going on to the next place of a record, written or left out. -/
theorem exists_toOption_readItemOrEnd
    (reads : ∀ writing : Writing, Reads read writing.text (result writing)) (first : Bool)
    (blanks : List Blank) (slots : List (Slot Writing)) (rest : List Char) :
    ∃ behind, (readItemOrEnd first read (itemsText first blanks slots rest)).toOption =
      (item? result slots).map fun (value, later) =>
        (value, itemsText false behind later rest) := by
  cases slots with
  | nil =>
    refine ⟨blanks, ?_⟩
    have close : itemsText first blanks [] rest = spaces blanks ++ ']' :: rest := by
      cases first <;> rfl
    rw [close, readItemOrEnd_close]
    rfl
  | cons slot later =>
    refine ⟨slot.after, ?_⟩
    have stops := stops_spaces slot.after (stops_items later rest)
    rw [item?, Option.map_map]
    cases first with
    | true =>
      have split : itemsText true blanks (slot :: later) rest =
          spaces (blanks ++ slot.before) ++
            (slot.value.text ++ itemsText false slot.after later rest) := by
        simp [itemsText, separated, Slot.text, spaces, List.flatMap_map]
      rw [split]
      exact toOption_readItemOrEnd_first (reads slot.value) _ stops
    | false =>
      have split : itemsText false blanks (slot :: later) rest = spaces blanks ++ ',' ::
          (spaces slot.before ++ (slot.value.text ++ itemsText false slot.after later rest)) := by
        simp [itemsText, Slot.text]
      rw [split]
      exact toOption_readItemOrEnd_comma (reads slot.value) blanks slot.before stops

/-- A place is looked for only where the one before it is written. -/
theorem exists_toOption_readItemBehind {β : Type}
    (reads : ∀ writing : Writing, Reads read writing.text (result writing)) (before : Option β)
    (blanks : List Blank) (slots : List (Slot Writing)) (rest : List Char) :
    ∃ behind, (if before.isNone then pure (none, itemsText false blanks slots rest)
        else readItemOrEnd false read (itemsText false blanks slots rest)).toOption =
      (itemBehind? result before slots).map fun (value, later) =>
        (value, itemsText false behind later rest) := by
  unfold itemBehind?
  split
  · exact ⟨blanks, rfl⟩
  · exact exists_toOption_readItemOrEnd reads false blanks slots rest

theorem toOption_closeList_items (blanks : List Blank) (slots : List (Slot Writing))
    (rest : List Char) :
    (closeList (itemsText false blanks slots rest)).toOption =
      if slots.isEmpty then some rest else none := by
  cases slots with
  | nil => exact congrArg Except.toOption (closeList_close blanks rest)
  | cons slot later => exact toOption_closeList_comma blanks _

end Positional

/-! ## Entries -/

theorem reads_readTexts (writing : Writing) :
    Reads readTexts writing.text (writing.list? Writing.text?) :=
  reads_readArray fun _ _ _ slot _ => reads_readText slot.value

namespace DocRef

/-- The entry of `docs` that a reader makes of what is written. -/
def written? (writing : Writing) : Option DocRef :=
  (writing.value? maxDepth).bind ofValue?

/-- A reader of outputs takes in what is written as one, and refuses all else. -/
theorem reads_read (writing : Writing) : Reads read writing.text (written? writing) := by
  intro blanks rest stops
  have value := reads_readValue maxDepth writing blanks stops
  unfold read written?
  cases given : writing.value? maxDepth with
  | none =>
    rw [given] at value
    obtain ⟨fault, refused⟩ := exists_eq_error_of_toOption value
    rw [refused]
    rfl
  | some found =>
    rw [given] at value
    rw [eq_ok_of_toOption value]
    simp only [Option.bind_some]
    cases ofValue? found <;> rfl

end DocRef

namespace OutputSpec

/-- What is known of an output once one more member is read, if that member fits. -/
def addWritten (members : Draft) (name : String) (writing : Writing) : Option Draft :=
  if name = "fixture" then
    if members.fixture.isSome then none
    else writing.textOrNull?.map fun fixture => ⟨some fixture, members.requiredSections⟩
  else if name = "requiredSections" then
    if members.requiredSections.isSome then none
    else (writing.list? Writing.text?).map fun sections => ⟨members.fixture, some sections⟩
  else some members

/-- Reading a member of an output is the step that it makes on the draft. -/
theorem readsMember_readMember (written : Member Writing) :
    ReadsMember readMember addWritten written := by
  intro members name rest stops
  unfold readMember addWritten
  split
  · rw [toOption_map, toOption_readOnce name members.fixture (reads_readTextOrNull _) stops]
    split
    · rfl
    · rw [Option.map_map, Option.map_map]
      rfl
  · split
    · rw [toOption_map, toOption_readOnce name members.requiredSections (reads_readTexts _) stops]
      split
      · rfl
      · rw [Option.map_map, Option.map_map]
        rfl
    · rw [skipMember_spaces written stops]
      rfl

/-- The output that the values of its members declare, in the order of the members. -/
def positional? : List (Slot Writing) → Option OutputSpec
  | [] => some ⟨none, []⟩
  | [fixture] => fixture.value.textOrNull?.map (⟨·, []⟩)
  | [fixture, sections] => fixture.value.textOrNull?.bind fun fixture =>
      (sections.value.list? Writing.text?).map (⟨fixture, ·⟩)
  | _ => none

/-- An output's places one behind the other. -/
theorem positional?_eq (slots : List (Slot Writing)) :
    positional? slots =
      (item? Writing.textOrNull? slots).bind fun (fixture, later) =>
        (itemBehind? (Writing.list? Writing.text?) fixture later).bind fun (sections, later) =>
          if later.isEmpty then some ⟨fixture.getD none, sections.getD []⟩ else none := by
  rcases slots with _ | ⟨fixture, slots⟩
  · rfl
  unfold item?
  cases given : fixture.value.textOrNull? with
  | none => rcases slots with _ | ⟨sections, _ | ⟨other, later⟩⟩ <;> simp [positional?, given]
  | some text =>
    rcases slots with _ | ⟨sections, _ | ⟨other, later⟩⟩
    · simp [positional?, given, itemBehind?, item?]
    all_goals cases texts : sections.value.list? Writing.text? <;>
      simp [positional?, given, texts, itemBehind?, item?]

/-- Reading a record written as a list is taking in its places. -/
theorem toOption_readPositional (slots : List (Slot Writing)) (blanks : List Blank)
    (rest : List Char) :
    (readPositional (itemsText true blanks slots rest)).toOption =
      (positional? slots).map (·, rest) := by
  obtain ⟨behind, first⟩ :=
    exists_toOption_readItemOrEnd reads_readTextOrNull true blanks slots rest
  rw [positional?_eq]
  unfold readPositional
  rw [toOption_bind, first]
  cases item? Writing.textOrNull? slots with
  | none => rfl
  | some found =>
    obtain ⟨fixture, later⟩ := found
    obtain ⟨behind, second⟩ :=
      exists_toOption_readItemBehind reads_readTexts fixture behind later rest
    simp only [Option.map_some, Option.bind_some, ite_bind, toOption_bind, second]
    cases itemBehind? (Writing.list? Writing.text?) fixture later with
    | none => rfl
    | some found =>
      obtain ⟨sections, later⟩ := found
      simp only [Option.map_some, Option.bind_some, toOption_closeList_items]
      split <;> rfl

/-- The output that a reader makes of what is written. -/
def written? : Writing → Option OutputSpec
  | .array _ slots => positional? slots
  | .object _ members => (members.foldlM (addMember addWritten) ⟨none, none⟩).map Draft.finish
  | _ => none

theorem reads_read (writing : Writing) : Reads read writing.text (written? writing) := by
  intro blanks rest stops
  unfold read
  rw [writing.skipSpace_text]
  by_cases list : ∃ opening slots, writing = .array opening slots
  · obtain ⟨opening, slots, rfl⟩ := list
    have items := toOption_readPositional slots opening rest
    rw [Writing.text_array, List.cons_append]
    simp only [itemsText, ↓reduceIte] at items
    simp only [List.append_assoc, List.singleton_append, items, written?]
  · by_cases record : ∃ opening members, writing = .object opening members
    · obtain ⟨opening, members, rfl⟩ := record
      have each : ∀ written ∈ members, ReadsMember readMember addWritten written :=
        fun written _ => readsMember_readMember written
      have object := toOption_readObject each ⟨none, none⟩ opening rest
      rw [Writing.text_object, List.cons_append]
      simp only [List.append_assoc, List.singleton_append, toOption_map, object, written?,
        Option.map_map]
      rfl
    · simp only [not_exists] at list record
      have other := fun later => Writing.text_ne_bracket list record rest later
      have none : written? writing = none := by
        cases writing with
        | array opening slots => exact absurd rfl (list opening slots)
        | object opening members => exact absurd rfl (record opening members)
        | _ => rfl
      rw [none]
      split
      case h_1 later same => exact absurd same (other later).1
      case h_2 later same => exact absurd same (other later).2
      case h_3 => rfl

end OutputSpec

/-! ## Manifests -/

namespace Manifest

theorem reads_docs (writing : Writing) :
    Reads (readArray DocRef.read) writing.text (writing.list? DocRef.written?) :=
  reads_readArray fun _ _ _ slot _ => DocRef.reads_read slot.value

theorem reads_outputs (writing : Writing) :
    Reads (readArray OutputSpec.read) writing.text (writing.list? OutputSpec.written?) :=
  reads_readArray fun _ _ _ slot _ => OutputSpec.reads_read slot.value

/-- What is known of a manifest once one more member is read, if that member fits. -/
def addWritten (members : Draft) (name : String) (writing : Writing) : Option Draft :=
  if name = "docs" then
    if members.docs.isSome then none
    else (writing.list? DocRef.written?).map fun docs =>
      ⟨some docs, members.references, members.outputs⟩
  else if name = "references" then
    if members.references.isSome then none
    else (writing.list? Writing.text?).map fun references =>
      ⟨members.docs, some references, members.outputs⟩
  else if name = "outputs" then
    if members.outputs.isSome then none
    else (writing.list? OutputSpec.written?).map fun outputs =>
      ⟨members.docs, members.references, some outputs⟩
  else some members

theorem readsMember_readMember (written : Member Writing) :
    ReadsMember readMember addWritten written := by
  intro members name rest stops
  unfold readMember addWritten
  split
  · rw [toOption_map, toOption_readOnce name members.docs (reads_docs _) stops]
    split
    · rfl
    · rw [Option.map_map, Option.map_map]
      rfl
  · split
    · rw [toOption_map, toOption_readOnce name members.references (reads_readTexts _) stops]
      split
      · rfl
      · rw [Option.map_map, Option.map_map]
        rfl
    · split
      · rw [toOption_map, toOption_readOnce name members.outputs (reads_outputs _) stops]
        split
        · rfl
        · rw [Option.map_map, Option.map_map]
          rfl
      · rw [skipMember_spaces written stops]
        rfl

/-- The manifest that the values of its members declare, in the order of the members. -/
def positional? (slots : List (Slot Writing)) : Option Manifest :=
  (item? (Writing.list? DocRef.written?) slots).bind fun (docs, later) =>
    (itemBehind? (Writing.list? Writing.text?) docs later).bind fun (references, later) =>
      (itemBehind? (Writing.list? OutputSpec.written?) references later).bind
        fun (outputs, later) =>
          if later.isEmpty then some ⟨docs.getD [], references.getD [], outputs.getD []⟩ else none

theorem toOption_readPositional (slots : List (Slot Writing)) (blanks : List Blank)
    (rest : List Char) :
    (readPositional (itemsText true blanks slots rest)).toOption =
      (positional? slots).map (·, rest) := by
  obtain ⟨behind, first⟩ := exists_toOption_readItemOrEnd reads_docs true blanks slots rest
  unfold readPositional positional?
  rw [toOption_bind, first]
  cases item? (Writing.list? DocRef.written?) slots with
  | none => rfl
  | some found =>
    obtain ⟨docs, later⟩ := found
    obtain ⟨behind, second⟩ :=
      exists_toOption_readItemBehind reads_readTexts docs behind later rest
    simp only [Option.map_some, Option.bind_some, ite_bind, toOption_bind, second]
    cases itemBehind? (Writing.list? Writing.text?) docs later with
    | none => rfl
    | some found =>
      obtain ⟨references, later⟩ := found
      obtain ⟨behind, third⟩ :=
        exists_toOption_readItemBehind reads_outputs references behind later rest
      simp only [Option.map_some, Option.bind_some, third]
      cases itemBehind? (Writing.list? OutputSpec.written?) references later with
      | none => rfl
      | some found =>
        obtain ⟨outputs, later⟩ := found
        simp only [Option.map_some, Option.bind_some, toOption_closeList_items]
        split <;> rfl

/-- The manifest that a reader makes of the members of a written object. -/
def written? (members : List (Member Writing)) : Option Manifest :=
  (members.foldlM (addMember addWritten) ⟨none, none, none⟩).map Draft.finish

/-- A manifest written as an object is read by its members. -/
theorem toOption_read_object (opening : List Blank) (members : List (Member Writing))
    (blanks : List Blank) (rest : List Char) :
    (read (spaces blanks ++ ((Writing.object opening members).text ++ rest))).toOption =
      (written? members).map (·, rest) := by
  have each : ∀ written ∈ members, ReadsMember readMember addWritten written :=
    fun written _ => readsMember_readMember written
  have object := toOption_readObject each ⟨none, none, none⟩ opening rest
  unfold read
  rw [Writing.skipSpace_text, Writing.text_object, List.cons_append]
  simp only [List.append_assoc, List.singleton_append, toOption_map, object, written?,
    Option.map_map]
  rfl

/-- A manifest written as a list is read by its places. -/
theorem toOption_read_array (opening : List Blank) (slots : List (Slot Writing))
    (blanks : List Blank) (rest : List Char) :
    (read (spaces blanks ++ ((Writing.array opening slots).text ++ rest))).toOption =
      (positional? slots).map (·, rest) := by
  have items := toOption_readPositional slots opening rest
  unfold read
  rw [Writing.skipSpace_text, Writing.text_array, List.cons_append]
  simp only [itemsText, ↓reduceIte] at items
  simp only [List.append_assoc, List.singleton_append, items]

/-- Nothing else is read as a manifest. -/
theorem toOption_read_other {writing : Writing}
    (noArray : ∀ opening items, writing ≠ .array opening items)
    (noObject : ∀ opening members, writing ≠ .object opening members) (blanks : List Blank)
    (rest : List Char) : (read (spaces blanks ++ (writing.text ++ rest))).toOption = none := by
  have other := fun later => Writing.text_ne_bracket noArray noObject rest later
  unfold read
  rw [writing.skipSpace_text]
  split
  case h_1 later same => exact absurd same (other later).1
  case h_2 later same => exact absurd same (other later).2
  case h_3 => rfl

theorem toOption_ofText (text : String) :
    (ofText text).toOption = (decode text.toList).toOption := by
  unfold ofText
  cases decode text.toList <;> rfl

/-- A document is decoded if its value is read and nothing but blanks follows. -/
theorem toOption_decode {text : List Char} {result : Option Manifest} {after : List Blank}
    (reads : (read text).toOption = result.map (·, spaces after)) :
    (decode text).toOption = result := by
  unfold decode
  rw [toOption_bind, reads]
  cases result with
  | none => rfl
  | some manifest =>
    simp only [Option.map_some, Option.bind_some, readEnd_spaces]
    rfl

/-- The manifest that is made of a value as it is written. -/
def ofWriting? : Writing → Option Manifest
  | .array _ slots => positional? slots
  | .object _ members => written? members
  | _ => none

/-- Reading a manifest is taking in how it is written. -/
theorem toOption_read_written (writing : Writing) (blanks : List Blank) (rest : List Char) :
    (read (spaces blanks ++ (writing.text ++ rest))).toOption =
      (ofWriting? writing).map (·, rest) := by
  by_cases list : ∃ opening slots, writing = .array opening slots
  · obtain ⟨opening, slots, rfl⟩ := list
    exact toOption_read_array opening slots blanks rest
  · by_cases record : ∃ opening members, writing = .object opening members
    · obtain ⟨opening, members, rfl⟩ := record
      exact toOption_read_object opening members blanks rest
    · simp only [not_exists] at list record
      have none : ofWriting? writing = none := by
        cases writing with
        | array opening slots => exact absurd rfl (list opening slots)
        | object opening members => exact absurd rfl (record opening members)
        | _ => rfl
      rw [none]
      exact toOption_read_other list record blanks rest

/-- The manifest that a text spells is made of the value that is written there. -/
theorem toOption_ofText_written (writing : Writing) (before after : List Blank) :
    (ofText (String.ofList (spaces before ++ (writing.text ++ spaces after)))).toOption =
      ofWriting? writing := by
  rw [toOption_ofText, String.toList_ofList]
  exact toOption_decode (toOption_read_written writing before (spaces after))

theorem toOption_ofText_object (before opening : List Blank) (members : List (Member Writing))
    (after : List Blank) :
    (ofText (objectText before opening members after)).toOption = written? members :=
  toOption_ofText_written (.object opening members) before after

end Manifest

end ExerciseAudit
