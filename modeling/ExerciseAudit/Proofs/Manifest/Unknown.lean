import ExerciseAudit.Proofs.Audit.Respelling
import ExerciseAudit.Proofs.Manifest.Fields
import ExerciseAudit.Proofs.Manifest.Grammar

/-!
# Members that no record knows

A record may have members of other names than its own. In a manifest and in an output such a member
is passed over, whatever its value. An entry of `docs` is read whole before its shape is looked at,
so there the value of such a member has to be one that can be kept: with brackets that do not nest
too deep, numbers that are in range and strings without half a surrogate pair. This is all that it
takes (`Manifest.unknown_member_decoded_iff`).
-/

namespace ExerciseAudit

open Json Json.Writing

namespace RecordKind

/-- A member of another name can stand in a record: its name spells something, and in an entry of
`docs`, which is read whole, its value can be kept. -/
def Admits (member : Member Writing) (kind : RecordKind) : Prop :=
  (string? member.name).isSome ∧
    (kind = document → (member.value.value? (DocRef.maxDepth - 1)).isSome)

end RecordKind

/-- A record gets one more member, anywhere among the others, of a name that such records do not
have. -/
inductive Adds (member : Member Writing) (kind : RecordKind) : Writing → Writing → Prop
  | intro (opening : List Blank) (front back : List (Member Writing))
      (unknown : ∀ name ∈ kind.known, string? member.name ≠ some name) :
      Adds member kind (.object opening (front ++ back)) (.object opening (front ++ member :: back))

variable {member : Member Writing} {writing other : Writing}

/-- An unknown member of an entry matters only if it cannot be buffered. -/
theorem Adds.gated_document (added : Adds member .document writing other) :
    Gated (RecordKind.Admits member .document) (DocRef.written? writing)
      (DocRef.written? other) := by
  obtain @⟨opening, front, back, unknown⟩ := added
  have positive : DocRef.maxDepth = DocRef.maxDepth - 1 + 1 := rfl
  have kept : ((Writing.object opening (front ++ member :: back)).value? DocRef.maxDepth).isSome ↔
      RecordKind.Admits member .document ∧
        ((Writing.object opening (front ++ back)).value? DocRef.maxDepth).isSome := by
    rw [positive, isSome_value?_object, isSome_value?_object, forall_mem_middle]
    simp [RecordKind.Admits]
  intro entry
  rw [DocRef.written?_object_eq_some_iff, DocRef.written?_object_eq_some_iff, kept, and_assoc,
    writtenValues_middle_other (unknown "path" (by decide)),
    writtenValues_middle_other (unknown "requiredSections" (by decide))]

/-- An unknown member of an output matters only if its name is not spelled. -/
theorem Adds.gated_output (added : Adds member .output writing other) :
    Gated (RecordKind.Admits member .output) (OutputSpec.written? writing)
      (OutputSpec.written? other) := by
  obtain @⟨opening, front, back, unknown⟩ := added
  intro output
  rw [OutputSpec.written?_object_eq_some_iff, OutputSpec.written?_object_eq_some_iff,
    forall_mem_middle, and_assoc, writtenValues_middle_other (unknown "fixture" (by decide)),
    writtenValues_middle_other (unknown "requiredSections" (by decide))]
  simp [RecordKind.Admits]

theorem Adds.gated_manifest (added : Adds member .manifest writing other) :
    Gated (RecordKind.Admits member .manifest) (Manifest.ofWriting? writing)
      (Manifest.ofWriting? other) := by
  obtain @⟨opening, front, back, unknown⟩ := added
  intro manifest
  simp only [Manifest.ofWriting?]
  rw [Manifest.written?_eq_some_iff, Manifest.written?_eq_some_iff,
    forall_mem_middle, and_assoc, writtenValues_middle_other (unknown "docs" (by decide)),
    writtenValues_middle_other (unknown "references" (by decide)),
    writtenValues_middle_other (unknown "outputs" (by decide))]
  simp [RecordKind.Admits]

/-- An ordinary value can stand in any record. -/
theorem RecordKind.admits_of_ordinary (kind : RecordKind) {name : String} {value : Datum}
    {places : Nat} (named : string? member.name = some name)
    (spells : member.value.datum? = some value) (ordinary : value.Ordinary (DocRef.maxDepth - 1))
    (within : member.value.Within places) (few : places ≤ maxWrittenDecimals) :
    RecordKind.Admits member kind := by
  obtain ⟨read, kept⟩ := exists_value? spells ordinary within few
  exact ⟨by rw [named]; rfl, fun _ => by rw [kept]; rfl⟩

namespace Manifest

open Audit (field word)

/-- **Members of unknown names are passed over, or kept.** Every text that can be decoded is a value
between blanks. Let a record in such a value get one more member, of any value and of a name that
the record does not know. Then the text is decoded to a manifest exactly if it was before, and to
the same, and the record admits the member. A manifest and an output admit any value; an entry of
`docs` admits those that can be kept, which all ordinary values can. -/
theorem unknown_member_decoded_iff (text : String) (manifest : Manifest) :
    (ofText text = .ok manifest →
      ∃ before writing after, text = valueText before writing after) ∧
    (∀ (before : List Blank) (writing : Writing) (after : List Blank),
      text = valueText before writing after →
        ∀ (kind : RecordKind) (member : Member Writing) (other : Writing),
          RecordChanges (Adds member) kind writing other →
            (ofText (valueText before other after) = .ok manifest ↔
              RecordKind.Admits member kind ∧ ofText text = .ok manifest)) ∧
    ∀ (kind : RecordKind) (member : Member Writing) (name : String) (value : Datum) (places : Nat),
      string? member.name = some name → member.value.datum? = some value →
      value.Ordinary (DocRef.maxDepth - 1) → member.value.Within places →
      places ≤ maxWrittenDecimals → RecordKind.Admits member kind := by
  refine ⟨exists_eq_valueText, ?_, ?_⟩
  · intro before writing after split kind member other changed
    have gated := changed.gated (RecordKind.Admits member) Adds.gated_manifest Adds.gated_document
      Adds.gated_output
    rw [split, ofText_valueText_eq_ok_iff, ofText_valueText_eq_ok_iff]
    exact gated manifest
  · intro kind member name value places named spells ordinary within few
    exact kind.admits_of_ordinary named spells ordinary within few

/-- A manifest with one entry of `docs`, a record with some members. -/
def entryWriting (members : List (Member Writing)) : Writing :=
  .object [] [field "docs" (.array [] [⟨[], .object [] members, []⟩])]

/-- A member of a name that no record knows. -/
def note (value : Writing) : Member Writing :=
  field "note" value

/-- A member that names a path. -/
def pathMember : Member Writing :=
  field "path" (.string (word "a"))

theorem gains_note (value : Writing) :
    RecordChanges (Adds (note value)) .document (entryWriting [pathMember])
      (entryWriting [pathMember, note value]) := by
  have named : string? (word "docs") = some "docs" := by decide +kernel
  have unknown : ∀ name ∈ RecordKind.document.known, string? (word "note") ≠ some name := by
    decide +kernel
  exact .document (.record [] [] [] _ named (.intro [] [] [] _ (.intro [] [pathMember] [] unknown)))

theorem ofText_entryWriting :
    valueText [] (entryWriting [pathMember]) [] =
        "\x7b\"docs\":[\x7b\"path\":\"a\"\x7d]\x7d" ∧
      ofText "\x7b\"docs\":[\x7b\"path\":\"a\"\x7d]\x7d" = .ok ⟨[.record ⟨"a", []⟩], [], []⟩ := by
  refine ⟨?_, by decide +kernel⟩
  simp only [valueText, entryWriting, pathMember, field, Writing.text, List.map]
  decide +kernel

/-- An entry with an unknown member that holds a list. -/
theorem unknown_member_decoded_iff_note :
    RecordChanges (Adds (note (.array [] [⟨[], .null, []⟩]))) .document (entryWriting [pathMember])
      (entryWriting [pathMember, note (.array [] [⟨[], .null, []⟩])]) ∧
    RecordKind.Admits (note (.array [] [⟨[], .null, []⟩])) .document ∧
    ofText "\x7b\"docs\":[\x7b\"path\":\"a\",\"note\":[null]\x7d]\x7d" =
      .ok ⟨[.record ⟨"a", []⟩], [], []⟩ := by
  obtain ⟨text, decoded⟩ := ofText_entryWriting
  obtain ⟨_, decodes, admitted⟩ := unknown_member_decoded_iff
    "\x7b\"docs\":[\x7b\"path\":\"a\"\x7d]\x7d" ⟨[.record ⟨"a", []⟩], [], []⟩
  have named : string? (word "note") = some "note" := by decide +kernel
  have spells : (Writing.array [] [⟨[], .null, []⟩]).datum? = some (.array [.null]) := by
    simp [Writing.datum?]
  have ordinary : (Datum.array [.null]).Ordinary (DocRef.maxDepth - 1) := by
    have positive : DocRef.maxDepth - 1 = DocRef.maxDepth - 2 + 1 := rfl
    simp [positive, Datum.Ordinary]
  have within : (Writing.array [] [⟨[], .null, []⟩]).Within 0 := by simp [Writing.Within]
  have admits := admitted .document (note (.array [] [⟨[], .null, []⟩])) "note" _ 0 named spells
    ordinary within (by decide)
  have gains := gains_note (.array [] [⟨[], .null, []⟩])
  have written : valueText [] (entryWriting [pathMember, note (.array [] [⟨[], .null, []⟩])]) [] =
      "\x7b\"docs\":[\x7b\"path\":\"a\",\"note\":[null]\x7d]\x7d" := by
    simp only [valueText, entryWriting, pathMember, note, field, Writing.text, List.map]
    decide +kernel
  have same := decodes [] _ [] text.symm _ _ _ gains
  rw [written] at same
  exact ⟨gains, admits, same.mpr ⟨admits, decoded⟩⟩

/-- A number that is out of range. -/
def hugeFigure : Figure :=
  ⟨false, .positive ⟨0, by decide⟩ [], none,
    some ⟨false, none, ⟨Fin.last 9, [Fin.last 9, Fin.last 9]⟩⟩⟩

/-- An entry of `docs` does not admit a number that is out of range, though the manifest itself
does. -/
theorem unknown_member_refused :
    RecordChanges (Adds (note (.number hugeFigure))) .document (entryWriting [pathMember])
      (entryWriting [pathMember, note (.number hugeFigure)]) ∧
    valueText [] (entryWriting [pathMember, note (.number hugeFigure)]) [] =
      "\x7b\"docs\":[\x7b\"path\":\"a\",\"note\":1e999\x7d]\x7d" ∧
    (ofText "\x7b\"docs\":[\x7b\"path\":\"a\"\x7d]\x7d").toOption =
      some ⟨[.record ⟨"a", []⟩], [], []⟩ ∧
    (ofText "\x7b\"docs\":[\x7b\"path\":\"a\",\"note\":1e999\x7d]\x7d").toOption = none ∧
    (ofText "\x7b\"docs\":[\x7b\"path\":\"a\"\x7d],\"note\":1e999\x7d").toOption =
      some ⟨[.record ⟨"a", []⟩], [], []⟩ := by
  refine ⟨gains_note _, ?_, by decide +kernel, by decide +kernel, by decide +kernel⟩
  simp only [valueText, entryWriting, pathMember, note, field, Writing.text, List.map]
  decide +kernel

end Manifest

end ExerciseAudit
