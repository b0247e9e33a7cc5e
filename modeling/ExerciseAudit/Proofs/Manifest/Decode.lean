import ExerciseAudit.Proofs.Json.Ordinary
import ExerciseAudit.Proofs.Manifest.Declared
import ExerciseAudit.Proofs.Manifest.Members

/-!
# Decoding is exact

A text is decoded to a manifest exactly when the value it writes declares the manifest. Entries of
`docs` are read through a buffer, the other fields as they stand, and members that nobody asks for
are skipped; each of the three ways has to agree with the value that is written (`Agrees`), and the
agreement is carried from parts to wholes.
-/

namespace ExerciseAudit

open Json Json.Datum

/-! ## Agreement -/

section Agree

variable {α β : Type} {result : β → Option α} {holds : Datum → α → Prop}

/-- What is made of something that was read is what a value declares. -/
def Agrees (result : β → Option α) (holds : Datum → α → Prop) (read : β) (value : Datum) : Prop :=
  ∀ found : α, result read = some found ↔ holds value found

/-- A list is taken in as what it is a list of, if that is so for each item. -/
theorem mapM_eq_some_iff_of_agrees {items : List β} {values : List Datum}
    (each : List.Forall₂ (Agrees result holds) items values) {found : List α} :
    items.mapM result = some found ↔ List.Forall₂ holds values found := by
  rw [mapM_eq_some_iff]
  induction each generalizing found with
  | nil => simp
  | cons here _ ih =>
    simp only [List.forall₂_cons_left_iff, ih]
    exact exists_congr fun first => exists_congr fun rest => by rw [here first]

/-- What is taken in at most once is what is declared at most once. -/
theorem once?_eq_some_iff_of_agrees {items : List β} {values : List Datum}
    (each : List.Forall₂ (Agrees result holds) items values) {found : Option α} :
    once? result items = some found ↔ AtMostOnce holds values found := by
  rcases each with _ | ⟨here, _ | ⟨_, _⟩⟩
  · rw [once?, Option.some.injEq]
    constructor
    · rintro rfl
      exact .absent
    · rintro ⟨⟩
      rfl
  · rw [once?, Option.map_eq_some_iff]
    constructor
    · intro whole
      rcases whole with ⟨given, made, rfl⟩
      exact .present ((here given).mp made)
    · intro given
      rcases given with _ | declared
      exact ⟨_, (here _).mpr declared, rfl⟩
  · constructor
    · intro given
      cases given
    · intro declared
      cases declared

end Agree

namespace Json.Writing

variable {writing : Writing} {value : Datum}

theorem agrees_text (spells : writing.datum? = some value) : Agrees text? IsText writing value := by
  intro found
  cases writes_of_datum? spells with
  | string spelled =>
    rw [text?, spelled, Option.some.injEq]
    constructor
    · rintro rfl
      exact .intro _
    · rintro ⟨⟩
      rfl
  | _ =>
    constructor
    · intro given
      cases given
    · intro declared
      cases declared

theorem agrees_textOrNull (spells : writing.datum? = some value) :
    Agrees textOrNull? IsTextOrNull writing value := by
  intro found
  cases writes_of_datum? spells with
  | null =>
    rw [textOrNull?, Option.some.injEq]
    constructor
    · rintro rfl
      exact .null
    · rintro ⟨⟩
      rfl
  | string spelled =>
    simp only [textOrNull?, text?, spelled, Option.map_some, Option.some.injEq]
    constructor
    · rintro rfl
      exact .text _
    · rintro ⟨⟩
      rfl
  | _ =>
    constructor
    · intro given
      cases given
    · intro declared
      cases declared

variable {α : Type} {result : Writing → Option α} {holds : Datum → α → Prop}

theorem agrees_list (spells : writing.datum? = some value)
    (each : ∀ opening items values, writing = array opening items → value = .array values →
      ∀ slot ∈ items, ∀ item ∈ values, slot.value.datum? = some item →
        Agrees result holds slot.value item) :
    Agrees (list? result) (IsList holds) writing value := by
  intro found
  cases writes_of_datum? spells with
  | @array opening items values slots =>
    have agrees : List.Forall₂ (Agrees (fun slot : Slot Writing => result slot.value) holds)
        items values := forall₂_of_mem slots (each opening items values rfl rfl)
    rw [list?, mapM_eq_some_iff_of_agrees agrees]
    constructor
    · exact .intro
    · intro given
      rcases given with ⟨declared⟩
      exact declared
  | _ =>
    constructor
    · intro given
      cases given
    · intro declared
      cases declared

theorem agrees_texts (spells : writing.datum? = some value) :
    Agrees (list? text?) (IsList IsText) writing value :=
  agrees_list spells fun _ _ _ _ _ _ _ _ _ spelled => agrees_text spelled

/-! ## Members -/

variable {members : List (Member Writing)} {pairs : List (String × Datum)}

/-- The values written under a name are read as the values of that name, in order. -/
theorem forall₂_writtenValues {β : Type} {read : Writing → Option β} {pairs : List (String × β)}
    (spelled : Spelled read members pairs) (name : String) :
    List.Forall₂ (fun writing value => read writing = some value) (writtenValues name members)
      ((pairs.filter (·.1 = name)).map (·.2)) := by
  refine forall₂_filter_map (spelled.imp ?_)
  intro member pair given
  rcases given with ⟨named, valued⟩
  exact ⟨by simp [named], valued⟩

theorem names_of_spelled (spelled : Spelled datum? members pairs) :
    ∀ member ∈ members, (string? member.name).isSome := by
  intro member inside
  obtain ⟨pair, _, named, _⟩ := exists_of_forall₂_left spelled inside
  rw [named]
  rfl

/-- A field holds what the members of its name declare, if each of them agrees. -/
theorem once?_writtenValues (spelled : Spelled datum? members pairs) (name : String)
    (each : ∀ writing ∈ writtenValues name members, ∀ value ∈ valuesOf name pairs,
      writing.datum? = some value → Agrees result holds writing value) (found : Option α) :
    once? result (writtenValues name members) = some found ↔
      AtMostOnce holds (valuesOf name pairs) found :=
  once?_eq_some_iff_of_agrees (forall₂_of_mem (forall₂_writtenValues spelled name) each)

end Json.Writing

namespace OutputSpec

open Json.Writing

variable {writing : Writing} {value : Datum}

/-- An entry of `outputs` is what it declares, unless it is an array. -/
theorem agrees_written (spells : writing.datum? = some value)
    (noArray : ∀ inner, value ≠ .array inner) : Agrees written? Declared writing value := by
  intro found
  cases writes_of_datum? spells with
  | object opening spelled =>
    have fixture := once?_writtenValues spelled "fixture" fun _ _ _ _ => agrees_textOrNull
    have sections := once?_writtenValues spelled "requiredSections" fun _ _ _ _ => agrees_texts
    rw [written?_object_eq_some_iff, and_iff_right (names_of_spelled spelled)]
    constructor
    · intro whole
      rcases whole with ⟨given, required, first, second, rfl⟩
      exact .record ((fixture _).mp first) ((sections _).mp second)
    · intro given
      rcases given with ⟨first, second⟩
      exact ⟨_, _, (fixture _).mpr first, (sections _).mpr second, rfl⟩
  | array opening each => exact absurd rfl (noArray _)
  | _ =>
    constructor
    · intro given
      cases given
    · intro declared
      cases declared

end OutputSpec

/-! ## Buffered entries -/

/-- Two members of one name with related values. -/
inductive Named {α β : Type} (relates : α → β → Prop) : String × α → String × β → Prop
  | intro (name : String) {left : α} {right : β} (inner : relates left right) :
      Named relates (name, left) (name, right)

/-- What is kept of a value that is read whole. Numbers are kept, but nothing is asked of them. -/
inductive Buffered : Value → Datum → Prop
  | null : Buffered .null .null
  | bool (value : Bool) : Buffered (.bool value) (.bool value)
  | number (number : Number) (value : ℚ) : Buffered (.number number) (.number value)
  | string (text : String) : Buffered (.string text) (.string text)
  | array {reads : List Value} {values : List Datum} (each : List.Forall₂ Buffered reads values) :
      Buffered (.array reads) (.array values)
  | object {reads : List (String × Value)} {pairs : List (String × Datum)}
      (each : List.Forall₂ (Named Buffered) reads pairs) : Buffered (.object reads) (.object pairs)

namespace Json.Writing

/-- What is read of a spelling is the spelled value, but for numbers, which are rounded. -/
theorem buffered_of_value? {depth : Nat} {writing : Writing} {read : Value} {value : Datum}
    (given : writing.value? depth = some read) (spells : writing.datum? = some value) :
    Buffered read value := by
  induction depth using Nat.strong_induction_on generalizing writing read value with
  | _ depth ih =>
    cases writes_of_datum? spells with
    | null =>
      rw [value?, Option.some.injEq] at given
      rw [← given]
      exact .null
    | bool flag =>
      rw [value?, Option.some.injEq] at given
      rw [← given]
      exact .bool flag
    | number figure =>
      rw [value?, Option.map_eq_some_iff] at given
      obtain ⟨number, _, rfl⟩ := given
      exact .number number _
    | string spelled =>
      rw [value?, spelled, Option.map_some, Option.some.injEq] at given
      rw [← given]
      exact .string _
    | array opening spelled =>
      cases depth with
      | zero => cases given
      | succ depth =>
        rw [value?, Option.map_eq_some_iff] at given
        obtain ⟨reads, kept, rfl⟩ := given
        refine .array (forall₂_of_common (mapM_eq_some_iff.mp kept) spelled ?_)
        intro slot read value left right
        exact ih depth (Nat.lt_succ_self _) left right
    | object opening spelled =>
      cases depth with
      | zero => cases given
      | succ depth =>
        rw [value?, Option.map_eq_some_iff] at given
        obtain ⟨reads, kept, rfl⟩ := given
        refine .object (forall₂_of_common (mapM_pair_eq_some_iff.mp kept) spelled ?_)
        rintro member ⟨name, read⟩ ⟨other, value⟩ ⟨named, left⟩ ⟨again, right⟩
        rw [named, Option.some.injEq] at again
        subst again
        exact .intro name (ih depth (Nat.lt_succ_self _) left right)

end Json.Writing

namespace Buffered

variable {read : Value} {value : Datum}

/-- A text is buffered as itself, and nothing else is buffered as it. -/
theorem eq_string_iff (buffered : Buffered read value) (text : String) :
    read = .string text ↔ value = .string text := by
  cases buffered <;> simp

theorem eq_singleton_string_iff {reads : List Value} {values : List Datum}
    (each : List.Forall₂ Buffered reads values) (text : String) :
    reads = [.string text] ↔ values = [.string text] := by
  rcases each with _ | ⟨here, _ | ⟨_, _⟩⟩
  · simp
  · rw [List.singleton_inj, List.singleton_inj, here.eq_string_iff]
  · simp

/-- A buffered list of texts is the list of texts that was buffered. -/
theorem agrees_texts (buffered : Buffered read value) :
    Agrees textsOf? (IsList IsText) read value := by
  intro found
  cases buffered with
  | array each =>
    rw [textsOf?, mapM_eq_some_iff_of_agrees (each.imp fun item value kept => ?_)]
    · constructor
      · exact .intro
      · intro given
        rcases given with ⟨declared⟩
        exact declared
    · intro text
      cases kept with
      | string given =>
        constructor
        · rintro ⟨⟩
          exact .intro _
        · rintro ⟨⟩
          rfl
      | _ =>
        constructor
        · intro given
          cases given
        · intro declared
          cases declared
  | _ =>
    constructor
    · intro given
      cases given
    · intro declared
      cases declared

theorem membersOf {reads : List (String × Value)} {pairs : List (String × Datum)}
    (each : List.Forall₂ (Named Buffered) reads pairs) (name : String) :
    List.Forall₂ Buffered (membersOf name reads) (valuesOf name pairs) := by
  refine forall₂_filter_map (each.imp ?_)
  intro _ _ given
  rcases given with ⟨name, inner⟩
  exact ⟨rfl, inner⟩

end Buffered

namespace DocSpec

/-- Members make an entry if one of them is its path, and at most one its headings. -/
theorem ofMembers?_eq_some_iff {members : List (String × Value)} {spec : DocSpec} :
    ofMembers? members = some spec ↔
      ∃ path sections, membersOf "path" members = [.string path] ∧
        once? textsOf? (membersOf "requiredSections" members) = some sections ∧
          ⟨path, sections.getD []⟩ = spec := by
  unfold ofMembers?
  constructor
  · intro given
    split at given
    case h_1 path named absent =>
      cases given
      exact ⟨path, none, named, by rw [absent, once?], rfl⟩
    case h_2 path sections named one =>
      obtain ⟨texts, read, rfl⟩ := Option.map_eq_some_iff.mp given
      exact ⟨path, some texts, named, by rw [one, once?, read, Option.map_some], rfl⟩
    case h_3 => cases given
  · intro given
    rcases given with ⟨path, sections, named, once, rfl⟩
    rw [named]
    rcases required : membersOf "requiredSections" members with _ | ⟨value, _ | ⟨other, rest⟩⟩
    · rw [required] at once
      cases once
      rfl
    · rw [required] at once
      obtain ⟨texts, read, rfl⟩ := Option.map_eq_some_iff.mp once
      simp [read]
    · rw [required] at once
      cases once

end DocSpec

namespace DocRef

open Json.Writing

variable {writing : Writing} {value : Datum} {places : Nat}

/-- A buffered object makes the entry that the object declares. -/
theorem declared_of_buffered {reads : List (String × Value)} {pairs : List (String × Datum)}
    (each : List.Forall₂ (Named Buffered) reads pairs) {entry : DocRef} :
    ofValue? (.object reads) = some entry ↔ Declared (.object pairs) entry := by
  have sections {found} : once? textsOf? (membersOf "requiredSections" reads) = some found ↔ _ :=
    once?_eq_some_iff_of_agrees ((Buffered.membersOf each _).imp fun _ _ kept => kept.agrees_texts)
  have path {text : String} : membersOf "path" reads = [.string text] ↔
      valuesOf "path" pairs = [.string text] :=
    Buffered.eq_singleton_string_iff (Buffered.membersOf each _) text
  unfold ofValue? DocSpec.ofValue?
  rw [Option.map_eq_some_iff]
  simp only [DocSpec.ofMembers?_eq_some_iff]
  constructor
  · intro given
    rcases given with ⟨_, ⟨text, texts, named, once, rfl⟩, rfl⟩
    exact .record (path.mp named) (sections.mp once)
  · intro given
    rcases given with _ | ⟨named, required⟩
    exact ⟨_, ⟨_, _, path.mpr named, sections.mpr required, rfl⟩, rfl⟩

/-- An entry of `docs` is what it declares, unless it is an array. -/
theorem agrees_written (spells : writing.datum? = some value) (ordinary : value.Ordinary maxDepth)
    (within : writing.Within places) (few : places ≤ maxWrittenDecimals)
    (noArray : ∀ inner, value ≠ .array inner) : Agrees written? Declared writing value := by
  intro found
  obtain ⟨read, given⟩ := exists_value? spells ordinary within few
  rw [written?, given, Option.bind_some]
  cases buffered_of_value? given spells with
  | string text =>
    constructor
    · rintro ⟨⟩
      exact .path _
    · rintro ⟨⟩
      rfl
  | array each => exact absurd rfl (noArray _)
  | object each => exact declared_of_buffered each
  | _ =>
    constructor
    · intro given
      cases given
    · intro declared
      cases declared

end DocRef

namespace Manifest

open Json.Writing

variable {places : Nat}

/-- A member's numerals are among those of the object. -/
theorem within_of_mem_writtenValues {members : List (Member Writing)}
    (within : ∀ member ∈ members, member.value.Within places) {name : String} {writing : Writing}
    (inside : writing ∈ writtenValues name members) : writing.Within places := by
  obtain ⟨member, chosen, rfl⟩ := List.mem_map.mp inside
  exact within member (List.mem_of_mem_filter chosen)

variable {members : List (Member Writing)} {pairs : List (String × Datum)}

/-- The list of documents is taken in as what it declares. -/
theorem agrees_docs (ordinary : (Datum.object pairs).Ordinary 127)
    (shaped : RecordShaped (.object pairs))
    (within : ∀ member ∈ members, member.value.Within places)
    (few : places ≤ maxWrittenDecimals) :
    ∀ writing ∈ writtenValues "docs" members, ∀ value ∈ valuesOf "docs" pairs,
      writing.datum? = some value →
        Agrees (list? DocRef.written?) (IsList DocRef.Declared) writing value := by
  intro writing inside value stands spells
  apply agrees_list spells
  rintro start slots values rfl rfl slot item datum listed spelled
  have whole := within_of_mem_writtenValues within inside
  rw [Within] at whole
  -- Two brackets are open around an entry, so the buffer takes 125 more of them.
  have deep : (Datum.array values).Ordinary 126 := ordinary _ (mem_valuesOf.mp stands)
  apply DocRef.agrees_written spelled (deep datum listed) (whole slot item) few
  rintro inner rfl
  exact shaped "docs" (by simp) values stands inner listed

theorem agrees_outputs (shaped : RecordShaped (.object pairs)) :
    ∀ writing ∈ writtenValues "outputs" members, ∀ value ∈ valuesOf "outputs" pairs,
      writing.datum? = some value →
        Agrees (list? OutputSpec.written?) (IsList OutputSpec.Declared) writing value := by
  intro writing inside value stands spells
  apply agrees_list spells
  rintro start slots values rfl rfl slot item datum listed spelled
  apply OutputSpec.agrees_written spelled
  rintro inner rfl
  exact shaped "outputs" (by simp) values stands inner listed

/-- The members of a written object make a manifest exactly if the object declares it. -/
theorem written?_eq_some_iff_declared (spelled : Spelled datum? members pairs)
    (ordinary : (Datum.object pairs).Ordinary 127) (shaped : RecordShaped (.object pairs))
    (within : ∀ member ∈ members, member.value.Within places)
    (few : places ≤ maxWrittenDecimals) {manifest : Manifest} :
    written? members = some manifest ↔ Declared (.object pairs) manifest := by
  have docs := once?_writtenValues spelled "docs" (agrees_docs ordinary shaped within few)
  have references := once?_writtenValues spelled "references" fun _ _ _ _ => agrees_texts
  have outputs := once?_writtenValues spelled "outputs" (agrees_outputs shaped)
  rw [written?_eq_some_iff, and_iff_right (names_of_spelled spelled)]
  constructor
  · intro given
    rcases given with ⟨documents, referred, produced, first, second, third, rfl⟩
    exact .record ((docs _).mp first) ((references _).mp second) ((outputs _).mp third)
  · intro given
    rcases given with ⟨first, second, third⟩
    exact ⟨_, _, _, (docs _).mpr first, (references _).mpr second, (outputs _).mpr third, rfl⟩

/-- A spelling decodes to what its value declares, whatever blanks stand around it. -/
theorem toOption_ofText_writing {writing : Writing} {value : Datum}
    (spells : writing.datum? = some value) (ordinary : value.Ordinary 127)
    (shaped : RecordShaped value) (within : writing.Within places)
    (few : places ≤ maxWrittenDecimals) (before after : List Blank) (manifest : Manifest) :
    (ofText (String.ofList (spaces before ++ (writing.text ++ spaces after)))).toOption =
      some manifest ↔ Declared value manifest := by
  rw [toOption_ofText_written]
  cases writes_of_datum? spells with
  | object opening spelled =>
    rw [Within] at within
    exact written?_eq_some_iff_declared spelled ordinary shaped within few
  | array opening each => exact shaped.elim
  | _ =>
    constructor
    · intro given
      cases given
    · intro declared
      cases declared

/-- **Decoding is exact.** A text that spells an ordinary value without arrays in the place of
records is decoded exactly to the manifest that the value declares, and refused if there is none.
The text may be of any length, but the reader of numbers counts exponents in 32 bits, so a number
with some two thousand million digits behind its point is left out. -/
theorem ofText_eq_ok_iff {text : String} {value : Datum}
    (spells : Spells maxWrittenDecimals text value) (ordinary : value.Ordinary 127)
    (shaped : RecordShaped value) (manifest : Manifest) :
    ofText text = .ok manifest ↔ Declared value manifest := by
  obtain @⟨writing, written, _, before, after, valued, within, order⟩ := spells
  have decoded := toOption_ofText_writing valued (order.symm.ordinary ordinary)
    (recordShaped_of_rearranged order.symm shaped) within le_rfl before after manifest
  constructor
  · intro given
    rw [given] at decoded
    exact stable_declared order (decoded.mp rfl)
  · intro declared
    have found := decoded.mpr (stable_declared order.symm declared)
    cases given : ofText (String.ofList (spaces before ++ (writing.text ++ spaces after))) with
    | error refusal => rw [given] at found; cases found
    | ok other => rw [given] at found; cases found; rfl

/-- A letter, as it is. -/
def letter (c : Char) (late : 'a'.toNat ≤ c.toNat) : Glyph :=
  .plain c ⟨le_trans (by decide) late, fun same => absurd (same ▸ late) (by decide),
    fun same => absurd (same ▸ late) (by decide)⟩

/-- A manifest with an escape in a key and with a member that nobody asks for. -/
def sampleWriting : Writing :=
  .object []
    [⟨[], [letter 'x' (by decide)], [], [],
      .number ⟨true, .zero, none, some ⟨false, none, ⟨Fin.last 9, []⟩⟩⟩, []⟩,
     ⟨[.space], [letter 'd' (by decide), letter 'o' (by decide),
        .unit ⟨0, false⟩ ⟨0, false⟩ ⟨6, false⟩ ⟨3, false⟩, letter 's' (by decide)], [], [.space],
      .array [] [⟨[], .object []
        [⟨[], [letter 'p' (by decide), letter 'a' (by decide), letter 't' (by decide),
          letter 'h' (by decide)], [], [],
          .string [letter 'a' (by decide)], []⟩], []⟩], []⟩]

/-- The value that it spells. -/
def sampleValue : Datum :=
  .object [("docs", .array [.object [("path", .string "a")]]), ("x", .number 0)]

/-- A text with blanks, an escaped name and an unknown member. -/
theorem spells_sample :
    Spells maxWrittenDecimals "\n\x7b\"x\":-0e9, \"do\\u0063s\": [\x7b\"path\":\"a\"\x7d]\x7d"
      sampleValue := by
  have valued : sampleWriting.datum? = some (.object [("x", .number 0),
      ("docs", .array [.object [("path", .string "a")]])]) := by
    simp [sampleWriting, letter, Writing.datum?, string?, Glyph.spelled?, Glyph.code,
      Figure.value, Figure.magnitude, natural, Whole.all, Figure.decimals]
  have text : sampleWriting.text =
      "\x7b\"x\":-0e9, \"do\\u0063s\": [\x7b\"path\":\"a\"\x7d]\x7d".toList := by
    simp only [sampleWriting, Writing.text, List.map]
    decide
  have within : sampleWriting.Within maxWrittenDecimals := by
    simp [sampleWriting, Writing.Within, Figure.decimals]
  have whole := Spells.intro [.lineFeed] [] valued within (.order (.swap _ _ []))
  rw [text] at whole
  exact whole

/-- What it spells declares one document. -/
theorem declared_sample : Declared sampleValue ⟨[.record ⟨"a", []⟩], [], []⟩ := by
  have entry : DocRef.Declared (.object [("path", .string "a")])
      (.record ⟨"a", (none : Option (List String)).getD []⟩) := .record rfl .absent
  have docs : AtMostOnce (IsList DocRef.Declared) [.array [.object [("path", .string "a")]]]
      (some [.record ⟨"a", []⟩]) := .present (.intro (.cons entry .nil))
  have whole : Declared sampleValue ⟨(some [.record ⟨"a", []⟩]).getD [],
      (none : Option (List String)).getD [], (none : Option (List OutputSpec)).getD []⟩ :=
    .record docs .absent .absent
  exact whole

/-- So it decodes to that. -/
theorem ofText_sample :
    ofText "\n\x7b\"x\":-0e9, \"do\\u0063s\": [\x7b\"path\":\"a\"\x7d]\x7d" =
      .ok ⟨[.record ⟨"a", []⟩], [], []⟩ := by
  refine (ofText_eq_ok_iff spells_sample ?_ ?_ _).mpr declared_sample
  · simp [sampleValue, Ordinary]
  · simp [sampleValue, RecordShaped, valuesOf]

end Manifest

end ExerciseAudit
