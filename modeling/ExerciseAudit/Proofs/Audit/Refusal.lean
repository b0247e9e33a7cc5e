import ExerciseAudit.FileTree.Edit
import ExerciseAudit.Proofs.Json.Fault
import ExerciseAudit.Proofs.Manifest.Extent
import ExerciseAudit.Audit

/-!
# What is reported of a text that is no manifest

A place in the text is reported, and a reason (`Audit.refusal_placed`). The place is that of a fault
inside the text, whichever reader found it. The reason is the message without the words for the place.
A reason may show a part of the text, but never at its end; so it holds no words for a place there.
-/

namespace ExerciseAudit

namespace Text

/-! ## Ends of texts -/

/-- The last character of a text is a decimal digit. -/
def EndsInDigit (text : String) : Prop :=
  text.toList.getLast?.any Char.isDigit = true

instance : DecidablePred EndsInDigit :=
  fun text => inferInstanceAs (Decidable (text.toList.getLast?.any Char.isDigit = true))

/-- Whether a text ends in a digit is settled by the last part that is not empty. -/
theorem endsInDigit_append {ending : String} (inhabited : ending ≠ "") (front : String) :
    EndsInDigit (front ++ ending) ↔ EndsInDigit ending := by
  have started : ending.toList ≠ [] := by simpa using inhabited
  rw [EndsInDigit, String.toList_append, List.getLast?_append_of_ne_nil _ started, EndsInDigit]

/-- A number as it may be written: one decimal digit or more. -/
def AllDigits (text : String) : Prop :=
  text ≠ "" ∧ ∀ c ∈ text.toList, c.isDigit = true

theorem allDigits_repr (n : Nat) : AllDigits n.repr := by
  refine ⟨Nat.repr_ne_empty, fun c member => ?_⟩
  rw [Nat.toList_repr] at member
  exact Nat.isDigit_of_mem_toDigits (by decide) (by decide) member

theorem AllDigits.endsInDigit {text : String} (number : AllDigits text) : EndsInDigit text := by
  obtain ⟨inhabited, digits⟩ := number
  have started : text.toList ≠ [] := by simpa using inhabited
  rw [EndsInDigit, List.getLast?_eq_some_getLast started, Option.any_some]
  exact digits _ (List.getLast_mem started)

/-- The words for the place of a line and a column. -/
def placeWords (line column : String) : String :=
  " at line " ++ line ++ " column " ++ column

/-- A text ends in the words for a place, of whatever line and column. -/
def EndsInPlace (text : String) : Prop :=
  ∃ front line column, AllDigits line ∧ AllDigits column ∧ text = front ++ placeWords line column

/-- A place at the end of a text ends in a digit. -/
theorem EndsInPlace.endsInDigit {text : String} (place : EndsInPlace text) : EndsInDigit text := by
  obtain ⟨front, line, column, _, number, rfl⟩ := place
  rw [placeWords, ← String.append_assoc, endsInDigit_append number.1]
  exact number.endsInDigit

/-- A text with an ending cut off, or as it is if it ends in something else. -/
def withoutEnding (ending text : String) : String :=
  ((text.toList.dropSuffix? ending.toList).map String.ofList).getD text

/-- Taking away an ending that is there leaves what precedes it. -/
theorem withoutEnding_append (text ending : String) :
    withoutEnding ending (text ++ ending) = text := by
  have cut : (text ++ ending).toList.dropSuffix? ending.toList = some text.toList :=
    List.dropSuffix?_eq_some_iff.mpr ⟨_, String.toList_append, beq_self_eq_true _⟩
  rw [withoutEnding, cut, Option.map_some, Option.getD_some, String.ofList_toList]

end Text

/-- What was found is told in the middle of a message, so it never ends one. -/
theorem Json.Cause.not_endsInDigit_message {cause : Json.Cause} (known : cause.Known) :
    ¬ Text.EndsInDigit cause.message := by
  cases cause with
  | wrongKind found wanted =>
    simp only [Known, List.mem_cons, List.not_mem_nil, or_false] at known
    have named : wanted ≠ "" ∧ ¬ Text.EndsInDigit wanted := by
      rcases known with rfl | rfl | rfl | rfl <;> decide +kernel
    dsimp only [message]
    rw [Text.endsInDigit_append named.1]
    exact named.2
  | repeatedField field =>
    dsimp only [message]
    rw [Text.endsInDigit_append (by decide)]
    decide +kernel
  | noShape type =>
    obtain rfl := known
    decide +kernel
  | _ => decide +kernel

namespace Audit

variable {text : String} {refusal : Manifest.Refusal}

/-- **A refusal names a place in the text, and a reason apart from it.** Let a text be no manifest. The
fault for which it is refused has no more bytes behind it than the text has, and the line and the
column are those of the place in front of these bytes. What is reported of a manifest file with that
text is the same line and column with a reason: the reason is what is left of the message once the
words for the place are cut off, and it does not end in such words itself. -/
theorem refusal_placed (refused : Manifest.ofText text = .error refusal) :
    (∃ fault offset, Manifest.decode text.toList = .error fault ∧
      offset + fault.left = (Utf8.encode text.toList).length ∧
      Json.Position.Marks ⟨refusal.line, refusal.column⟩ (Utf8.encode text.toList) offset) ∧
    (∀ (tree : FileTree) (path : Path), tree.readText path = .ok text → load tree path =
      .error (.invalidManifest path refusal.reason refusal.line refusal.column)) ∧
    refusal.message =
      refusal.reason ++ Text.placeWords refusal.line.repr refusal.column.repr ∧
    Text.withoutEnding (Text.placeWords refusal.line.repr refusal.column.repr) refusal.message =
      refusal.reason ∧
    Text.EndsInPlace refusal.message ∧ ¬ Text.EndsInPlace refusal.reason := by
  obtain ⟨fault, failed, known, within, reason, position⟩ :=
    Manifest.exists_fault_of_refused refused
  obtain ⟨offset, behind, marks⟩ := Json.Fault.exists_marks_position within
  rw [position] at marks
  have message : refusal.message =
      refusal.reason ++ Text.placeWords refusal.line.repr refusal.column.repr := by
    simp only [Manifest.Refusal.message, Text.placeWords, String.append_assoc]
  refine ⟨⟨fault, offset, failed, behind, marks⟩, fun tree path read => ?_, message, ?_, ?_, ?_⟩
  · simp only [load, read, refused]
  · rw [message, Text.withoutEnding_append]
  · exact ⟨_, _, _, Text.allDigits_repr _, Text.allDigits_repr _, message⟩
  · rw [reason]
    exact fun place => Json.Cause.not_endsInDigit_message known place.endsInDigit

/-- A manifest with a text where a list has to stand. The text looks like the end of a message. -/
def tellingText : String :=
  "\x7b\n  \"references\": \"a at line 7 column 3\"\n\x7d"

/-- A tree with a manifest of that text. -/
def tellingTree : FileTree :=
  FileTree.empty.put (.ofString "docs/exercises/a.manifest.json")
    (.file (Utf8.encode tellingText.toList))

/-- A manifest whose text itself speaks of a line and a column. -/
theorem refusal_placed_tellingText :
    (∃ offset, Json.Position.Marks ⟨2, 38⟩ (Utf8.encode tellingText.toList) offset) ∧
    load tellingTree (.ofString "docs/exercises/a.manifest.json") = .error
      (.invalidManifest (.ofString "docs/exercises/a.manifest.json")
        "invalid type: string \"a at line 7 column 3\", expected a sequence" 2 38) ∧
    ¬ Text.EndsInPlace "invalid type: string \"a at line 7 column 3\", expected a sequence" := by
  have refused : Manifest.ofText tellingText =
      .error ⟨"invalid type: string \"a at line 7 column 3\", expected a sequence", 2, 38⟩ := by
    decide +kernel
  have read : tellingTree.readText (.ofString "docs/exercises/a.manifest.json") =
      .ok tellingText := by decide +kernel
  obtain ⟨⟨_, offset, _, _, marks⟩, loads, _, _, _, apart⟩ := refusal_placed refused
  exact ⟨⟨offset, marks⟩, loads _ _ read, apart⟩

end Audit

end ExerciseAudit
