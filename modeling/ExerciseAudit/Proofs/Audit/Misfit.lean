import ExerciseAudit.Proofs.Audit.Respelling
import ExerciseAudit.Proofs.Json.Fault

/-!
# Where an entry of no known shape is reported

An entry of `docs` is read whole before its shape is looked at, so an entry that is neither a path nor a
record is given up together with its list: behind the blanks that follow the entry, and there behind the
closing bracket, or behind the comma and the blanks that follow it. This place is what is reported. Its
line is one of the entry's only if there is no line feed on the way (`Audit.load_misfit`), and with one
entry on each line there is one (`Audit.misfit_reported_below`).
-/

namespace ExerciseAudit

open Json

theorem Json.separated_append_cons (texts more : List (List Char)) (text : List Char) :
    separated (texts ++ text :: more) = texts.flatMap (· ++ [',']) ++
      (text ++ more.flatMap fun text => ',' :: text) := by
  induction texts with
  | nil => rfl
  | cons first texts ih =>
    cases texts with
    | nil => simp [separated]
    | cons second texts => simp_all [separated]

/-- What stands around one entry of `docs` in the text of a manifest that is written as an object. The
label is the member `docs` but for its list, and the list has entries before the one and after it. -/
structure Surroundings where
  before : List Blank
  opening : List Blank
  earlier : List (Member Writing)
  label : Member Unit
  inner : List Blank
  accepted : List (Slot Writing)
  ahead : List Blank
  behind : List Blank
  more : List (Slot Writing)
  later : List (Member Writing)
  after : List Blank

namespace Surroundings

variable (around : Surroundings) (entry : Writing)

/-- The member `docs` with some entries. -/
def docs (slots : List (Slot Writing)) : Member Writing :=
  { around.label with value := .array around.inner slots }

/-- The entry with the blanks around it. -/
def slot : Slot Writing :=
  ⟨around.ahead, entry, around.behind⟩

/-- The text with an entry in its place. -/
def text : String :=
  objectText around.before around.opening
    (around.earlier ++ around.docs (around.accepted ++ around.slot entry :: around.more) ::
      around.later) around.after

/-- The text in which the list ends in front of the entry, and the object behind the list. -/
def textWithout : String :=
  objectText around.before around.opening (around.earlier ++ [around.docs around.accepted])
    around.after

/-- What stands in front of the entry. -/
def front : List Char :=
  spaces around.before ++ '\x7b' :: spaces around.opening ++
    around.earlier.flatMap (fun written => written.text ++ [',']) ++
    spaces around.label.before ++ '"' :: quoted around.label.name ++
    spaces around.label.gap ++ ':' :: spaces around.label.ahead ++
    '[' :: spaces around.inner ++ around.accepted.flatMap (fun slot => slot.text ++ [',']) ++
    spaces around.ahead

/-- What stands between the entry and the place where the list of entries goes on or has ended. -/
def gap : List Char :=
  spaces around.behind ++ match around.more with
    | [] => [']']
    | next :: _ => ',' :: spaces next.before

/-- The line on which the entry starts. -/
def startLine : Nat :=
  around.front.count '\n' + 1

/-- The line on which the entry ends. -/
def endLine : Nat :=
  (around.front ++ entry.text).count '\n' + 1

/-- The place where the list of entries is given up. -/
def givenUpAt : Position :=
  .behind (Utf8.encode (around.front ++ (entry.text ++ around.gap)))

/-- What stands behind the entry. -/
def rest : List Char :=
  spaces around.behind ++ itemsBehind around.more
    (spaces around.label.after ++ membersBehind around.later (spaces around.after))

/-- The text of a manifest with an entry put into its place, as what precedes the entry, the entry
and the rest. -/
theorem toList_text : (around.text entry).toList = around.front ++ (entry.text ++ around.rest) := by
  simp [text, objectText, Writing.text_object, separated_append_cons, docs, Member.text,
    Writing.text_array, slot, Slot.text, front, rest, itemsBehind, membersBehind, List.flatMap_map]

/-- The gap ends where the list of entries is given up. -/
theorem rest_eq : around.rest = around.gap ++ listGivenUpAt around.rest := by
  unfold rest gap listGivenUpAt
  cases around.more with
  | nil =>
    rw [itemsBehind, List.flatMap_nil, List.nil_append, skipSpace_spaces, skipSpace_cons (by decide)]
    simp
  | cons next more =>
    rw [itemsBehind_cons, skipSpace_spaces, skipSpace_cons (by decide)]
    simp [next.value.skipSpace_text]

/-- The same with the blanks behind the entry apart, behind which reading gives up. -/
theorem toList_text_eq : (around.text entry).toList =
    around.front ++ (entry.text ++ (around.gap ++ listGivenUpAt around.rest)) := by
  rw [← around.rest_eq, around.toList_text]

end Surroundings

/-- An entry of `docs` that can be read and has no known shape, where everything in front of it is
accepted. -/
structure Misfit (around : Surroundings) (entry : Writing) : Prop where
  named : string? around.label.name = some "docs"
  acceptable : ∃ manifest, Manifest.ofText around.textWithout = .ok manifest
  shapeless : (entry.value? DocRef.maxDepth).map DocRef.ofValue? = some none

variable {around : Surroundings} {entry : Writing} {rest : List Char}

/-- A list's entry without the shape of one is refused where the list's reader looks next. -/
theorem DocRef.read_eq_error
    (shapeless : (entry.value? DocRef.maxDepth).map DocRef.ofValue? = some none)
    (stops : Stops rest) : DocRef.read (entry.text ++ rest) =
      .error (.before (.noShape "untagged enum DocRef") (listGivenUpAt rest)) := by
  obtain ⟨value, whole, noShape⟩ := Option.map_eq_some_iff.mp shapeless
  have taken : readValue DocRef.maxDepth (entry.text ++ rest) = .ok (value, rest) :=
    eq_ok_of_toOption ((reads_readValue DocRef.maxDepth entry [] stops).trans (by rw [whole]; rfl))
  simp only [DocRef.read, taken, noShape]

namespace Manifest

/-- Entries are added to a draft that has none yet, and only if each of them is taken. -/
theorem takesItem_of_addWritten {draft next : Draft} {opening : List Blank}
    {slots : List (Slot Writing)}
    (added : addWritten draft "docs" (.array opening slots) = some next) :
    draft.docs = none ∧ ∀ slot ∈ slots, TakesItem DocRef.read slot := by
  rw [addWritten, if_pos rfl] at added
  split at added
  case isTrue => cases added
  case isFalse absent =>
    obtain ⟨entries, made, _⟩ := Option.map_eq_some_iff.mp added
    refine ⟨by simpa using absent, fun slot inside => ?_⟩
    obtain ⟨value, _, here⟩ := exists_of_forall₂_left (mapM_eq_some_iff.mp made) inside
    exact ⟨value, here ▸ DocRef.reads_read slot.value⟩

/-- Reading the first member of name `docs` is reading a list of entries behind its colon. -/
theorem readMember_docs {draft : Draft} (absent : draft.docs = none) (written : Member Writing)
    (rest : List Char) :
    readMember draft "docs" (written.behindName rest) =
      (readArray DocRef.read (spaces written.ahead ++ (written.value.text ++ rest))).map
        fun (docs, rest) => (⟨some docs, draft.references, draft.outputs⟩, rest) := by
  simp only [readMember, readOnce, absent, ↓reduceIte, Option.isSome_none, Bool.false_eq_true,
    Member.behindName, readColon_spaces]

end Manifest

namespace Misfit

/-- What stands in front of the entry is taken. -/
theorem exists_draft (misfit : Misfit around entry) :
    ∃ draft : Manifest.Draft, draft.docs = none ∧
      around.earlier.foldlM (addMember Manifest.addWritten) ⟨none, none, none⟩ = some draft ∧
      ∀ slot ∈ around.accepted, TakesItem DocRef.read slot := by
  obtain ⟨manifest, decoded⟩ := misfit.acceptable
  have made := Manifest.toOption_ofText_object around.before around.opening
    (around.earlier ++ [around.docs around.accepted]) around.after
  rw [← Surroundings.textWithout, decoded] at made
  -- The members of that text are added one after another, `docs` as the last of them.
  obtain ⟨last, folded, _⟩ := Option.map_eq_some_iff.mp made.symm
  rw [List.foldlM_append] at folded
  obtain ⟨draft, earlier, folded⟩ := Option.bind_eq_some_iff.mp folded
  rw [List.foldlM_cons] at folded
  obtain ⟨next, added, _⟩ := Option.bind_eq_some_iff.mp folded
  have stepped :
      Manifest.addWritten draft "docs" (.array around.inner around.accepted) = some next := by
    simpa [addMember, Surroundings.docs, misfit.named] using added
  obtain ⟨absent, takes⟩ := Manifest.takesItem_of_addWritten stepped
  exact ⟨draft, absent, earlier, takes⟩

/-- The member that holds the entry is refused for it. -/
theorem readMember_eq_error (misfit : Misfit around entry) {draft : Manifest.Draft}
    (absent : draft.docs = none) (takes : ∀ slot ∈ around.accepted, TakesItem DocRef.read slot) :
    Manifest.readMember draft "docs"
      ((around.docs (around.accepted ++ around.slot entry :: around.more)).behindName
        (spaces around.label.after ++ membersBehind around.later (spaces around.after))) =
      .error (.before (.noShape "untagged enum DocRef") (listGivenUpAt around.rest)) := by
  have here : DocRef.read ((around.slot entry).value.text ++ around.rest) =
      .error (.before (.noShape "untagged enum DocRef") (listGivenUpAt around.rest)) :=
    DocRef.read_eq_error misfit.shapeless (stops_itemsBehind _ _ _)
  rw [Manifest.readMember_docs absent, Surroundings.docs, readArray_eq_error takes here]
  rfl

/-- The text is refused where the list of entries is given up. -/
theorem decode_eq_error (misfit : Misfit around entry) :
    Manifest.decode (around.text entry).toList =
      .error (.before (.noShape "untagged enum DocRef") (listGivenUpAt around.rest)) := by
  obtain ⟨draft, absent, folded, takes⟩ := misfit.exists_draft
  have reads : ∀ written ∈ around.earlier,
      ReadsMember Manifest.readMember Manifest.addWritten written :=
    fun written _ => Manifest.readsMember_readMember written
  have refused := readObject_eq_error reads folded misfit.named
    (misfit.readMember_eq_error absent takes) around.opening
  have read : Manifest.read (around.text entry).toList =
      .error (.before (.noShape "untagged enum DocRef") (listGivenUpAt around.rest)) := by
    rw [Surroundings.text, objectText, String.toList_ofList, Manifest.read, Writing.skipSpace_text,
      Writing.text_object, List.cons_append]
    simp only [List.append_assoc, List.singleton_append, refused]
    rfl
  rw [Manifest.decode, read]
  rfl

end Misfit

namespace Surroundings

/-- Reading gives up as many lines below the entry's end as there are line feeds behind the entry.
-/
theorem line_givenUpAt (around : Surroundings) (entry : Writing) :
    (around.givenUpAt entry).line = around.endLine entry + around.gap.count '\n' := by
  rw [givenUpAt, Position.line_behind_encode, endLine, ← List.append_assoc, List.count_append]
  omega

theorem startLine_le_endLine (around : Surroundings) (entry : Writing) :
    around.startLine ≤ around.endLine entry := by
  rw [startLine, endLine, List.count_append]
  omega

end Surroundings

/-- A text with a misfit is refused for it, at the place where the list of entries is given up. -/
theorem Manifest.ofText_misfit (misfit : Misfit around entry) :
    Manifest.ofText (around.text entry) =
      .error ⟨"data did not match any variant of untagged enum DocRef",
        (around.givenUpAt entry).line, (around.givenUpAt entry).column⟩ := by
  have split : (around.text entry).toList =
      (around.front ++ (entry.text ++ around.gap)) ++ listGivenUpAt around.rest := by
    rw [around.toList_text_eq, List.append_assoc, List.append_assoc]
  have place : (Fault.before (.noShape "untagged enum DocRef") (listGivenUpAt around.rest)).position
      (around.text entry).toList = around.givenUpAt entry := by
    rw [split, Fault.position_before, Surroundings.givenUpAt]
  rw [Manifest.ofText, misfit.decode_eq_error]
  simp only [place]
  rfl

namespace Audit

variable {tree : FileTree} {path : Path}

/-- **An entry of no known shape is reported where its list goes on.** Let everything in front of an
entry of `docs` be acceptable, and let the entry itself be neither a path nor a record. Then the
manifest is reported at the place where the list goes on behind the entry, or has ended. This place is
never on an earlier line than the entry, and it is on one of the entry's lines exactly if there is no
line feed between the entry and the place. -/
theorem load_misfit (misfit : Misfit around entry)
    (read : tree.readText path = .ok (around.text entry)) :
    (∃ rest, (around.text entry).toList =
      around.front ++ (entry.text ++ (around.gap ++ rest))) ∧
    load tree path = .error (.invalidManifest path
      "data did not match any variant of untagged enum DocRef"
      (around.givenUpAt entry).line (around.givenUpAt entry).column) ∧
    around.startLine ≤ (around.givenUpAt entry).line ∧
    ((around.givenUpAt entry).line ≤ around.endLine entry ↔ '\n' ∉ around.gap) := by
  refine ⟨⟨_, around.toList_text_eq entry⟩, ?_, ?_, ?_⟩
  · simp only [load, read, Manifest.ofText_misfit misfit]
  · have start := around.startLine_le_endLine entry
    rw [around.line_givenUpAt]
    omega
  · rw [around.line_givenUpAt, ← List.count_eq_zero]
    omega

/-- The number 0, which is neither a path nor a record. -/
def figureZero : Writing :=
  .number ⟨false, .zero, none, none⟩

/-- The name `docs` as it is written in front of its list, and what stands behind the list. -/
def docsLabel (before ahead after : List Blank) : Member Unit :=
  ⟨before, word "docs", [], ahead, (), after⟩

/-- A tree with a manifest of some text. -/
def treeWith (text : String) : FileTree :=
  FileTree.empty.put (.ofString "docs/exercises/m.manifest.json") (.file (Utf8.encode text.toList))

/-- The place of the only entry of a manifest on one line. -/
def flatPlace : Surroundings :=
  ⟨[], [], [], docsLabel [] [] [], [], [], [], [], [], [], []⟩

theorem text_flatPlace : flatPlace.text figureZero = "\x7b\"docs\":[0]\x7d" := by
  simp only [Surroundings.text, objectText, Surroundings.docs, Surroundings.slot, flatPlace,
    figureZero, Writing.text, List.map, List.nil_append]
  rfl

theorem misfit_flatPlace : Misfit flatPlace figureZero where
  named := by decide
  acceptable := ⟨.empty, eq_ok_of_toOption ((Manifest.toOption_ofText_object ..).trans rfl)⟩
  shapeless := rfl

/-- On one line, the refusal names the line of the entry. -/
theorem load_misfit_flatPlace :
    load (treeWith "\x7b\"docs\":[0]\x7d") (.ofString "docs/exercises/m.manifest.json") =
      .error (.invalidManifest (.ofString "docs/exercises/m.manifest.json")
        "data did not match any variant of untagged enum DocRef" 1 11) ∧
    flatPlace.startLine ≤ 1 ∧ 1 ≤ flatPlace.endLine figureZero := by
  have read : (treeWith "\x7b\"docs\":[0]\x7d").readText
      (.ofString "docs/exercises/m.manifest.json") = .ok (flatPlace.text figureZero) := by
    rw [text_flatPlace]
    decide +kernel
  obtain ⟨_, reported, start, within⟩ := load_misfit misfit_flatPlace read
  have place : flatPlace.givenUpAt figureZero = ⟨1, 11⟩ := by
    simp only [Surroundings.givenUpAt, figureZero, Writing.text]
    rfl
  rw [place] at reported start within
  exact ⟨reported, start, within.mpr (by decide)⟩

/-- The place of the first of two entries, each on a line of its own. -/
def tallPlace : Surroundings :=
  ⟨[], [], [], docsLabel [.lineFeed, .space, .space] [.space] [.lineFeed], [], [],
    [.lineFeed, .space, .space, .space, .space], [],
    [⟨[.lineFeed, .space, .space, .space, .space], .string (word "a"),
      [.lineFeed, .space, .space]⟩], [], []⟩

theorem text_tallPlace : tallPlace.text figureZero =
    "\x7b\n  \"docs\": [\n    0,\n    \"a\"\n  ]\n\x7d" := by
  simp only [Surroundings.text, objectText, Surroundings.docs, Surroundings.slot, tallPlace,
    figureZero, Writing.text, List.map, List.nil_append]
  rfl

theorem misfit_tallPlace : Misfit tallPlace figureZero where
  named := by decide
  acceptable := ⟨.empty, eq_ok_of_toOption ((Manifest.toOption_ofText_object ..).trans rfl)⟩
  shapeless := rfl

/-- The first entry stands on the third line, and the fourth is reported. -/
theorem misfit_reported_below :
    Misfit tallPlace figureZero ∧
    tallPlace.text figureZero = "\x7b\n  \"docs\": [\n    0,\n    \"a\"\n  ]\n\x7d" ∧
    tallPlace.startLine = 3 ∧ tallPlace.endLine figureZero = 3 ∧
    load (treeWith "\x7b\n  \"docs\": [\n    0,\n    \"a\"\n  ]\n\x7d")
        (.ofString "docs/exercises/m.manifest.json") =
      .error (.invalidManifest (.ofString "docs/exercises/m.manifest.json")
        "data did not match any variant of untagged enum DocRef" 4 4) := by
  refine ⟨misfit_tallPlace, text_tallPlace, by decide, ?_, by decide +kernel⟩
  simp only [Surroundings.endLine, figureZero, Writing.text]
  rfl

end Audit

end ExerciseAudit
