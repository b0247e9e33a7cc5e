import ExerciseAudit.Proofs.Json.Extent
import ExerciseAudit.Proofs.Manifest.Refusal

/-!
# Where a text is refused

The reader of manifests stays in its text (`Manifest.stays_decode`): it goes from one member to
the next in what is left, and an entry or a record that is given up is given up there.
-/

namespace ExerciseAudit

open Json (Outcome Stays sizeBehind)
open Utf8 (size)

section Members

variable {α : Type} {read : List Char → Outcome α}
  (each : ∀ text, Stays sizeBehind (size text) (read text))
include each

/-- A member that may stand once moves forward only, and a second one is refused at its place. -/
theorem stays_readOnce (field : String) (before : Option α) (rest : List Char) :
    Stays sizeBehind (size rest) (readOnce field before read rest) := by
  have colon := Json.stays_readColon rest
  unfold readOnce
  split
  case isTrue => exact Json.size_objectGivenUpAt_le rest
  case isFalse =>
    split
    case h_1 fault failed => exact colon.fault_le failed
    case h_2 rest taken => exact (each rest).mono (colon.left_le taken)

/-- A record written as a list moves forward with each place of it. -/
theorem stays_readItemOrEnd (first : Bool) (text : List Char) :
    Stays sizeBehind (size text) (readItemOrEnd first read text) := by
  have next := Json.stays_nextItem first text
  unfold readItemOrEnd
  split
  case h_1 fault failed => exact next.fault_le failed
  case h_2 => exact Nat.le_refl _
  case h_3 rest found => exact (Json.stays_map _ _).mpr ((each rest).mono (next.left_le found))

end Members

theorem stays_skipMember (rest : List Char) : Stays size (size rest) (skipMember rest) := by
  have colon := Json.stays_readColon rest
  unfold skipMember
  split
  case h_1 fault failed => exact colon.fault_le failed
  case h_2 rest taken => exact (Json.stays_skipValue rest).mono (colon.left_le taken)

theorem stays_readTexts (text : List Char) : Stays sizeBehind (size text) (readTexts text) :=
  Json.stays_readArray Json.stays_readText text

/-- An entry is read whole, and given up behind it. -/
theorem DocRef.stays_read (text : List Char) : Stays sizeBehind (size text) (read text) := by
  have value := Json.stays_readValue maxDepth text
  unfold read
  split
  case h_1 fault failed => exact value.fault_le failed
  case h_2 found rest taken =>
    refine Stays.mono ?_ (value.left_le taken)
    split
    case h_1 => exact Nat.le_refl _
    case h_2 => exact Json.size_listGivenUpAt_le rest

namespace OutputSpec

theorem stays_readMember (members : Draft) (name : String) (rest : List Char) :
    Stays sizeBehind (size rest) (readMember members name rest) := by
  unfold readMember
  repeat' split
  all_goals rw [Json.stays_map]
  case isTrue => exact stays_readOnce Json.stays_readTextOrNull _ _ _
  case isFalse.isTrue => exact stays_readOnce stays_readTexts _ _ _
  case isFalse.isFalse => exact stays_skipMember rest

theorem stays_readPositional (text : List Char) :
    Stays sizeBehind (size text) (readPositional text) := by
  refine (stays_readItemOrEnd Json.stays_readTextOrNull true text).bind fun fixture => ?_
  have finish (sections : Option (List String) × List Char) :
      Stays sizeBehind (sizeBehind sections) (Json.closeList sections.2 >>= fun rest =>
        pure ((⟨fixture.1.getD none, sections.1.getD []⟩ : OutputSpec), rest)) :=
    (Json.stays_closeList sections.2).bind fun _ => (Json.stays_pure _).mpr (Nat.le_refl _)
  dsimp only
  split
  · exact finish (none, fixture.2)
  · exact (stays_readItemOrEnd stays_readTexts false fixture.2).bind finish

theorem stays_read (text : List Char) : Stays sizeBehind (size text) (read text) := by
  unfold read
  split
  case h_1 rest behind =>
    exact (stays_readPositional rest).mono (Json.size_rest_le_of_skipSpace behind)
  case h_2 rest behind =>
    have record := Json.stays_readObject stays_readMember ⟨none, none⟩ rest
    exact (Json.stays_map _ _).mpr (record.mono (Json.size_rest_le_of_skipSpace behind))
  case h_3 => exact Nat.le_trans (Json.left_unwanted_le _ _) (Json.size_skipSpace_le text)

end OutputSpec

namespace Manifest

theorem stays_readMember (members : Draft) (name : String) (rest : List Char) :
    Stays sizeBehind (size rest) (readMember members name rest) := by
  unfold readMember
  repeat' split
  all_goals rw [Json.stays_map]
  case isTrue => exact stays_readOnce (Json.stays_readArray DocRef.stays_read) _ _ _
  case isFalse.isTrue => exact stays_readOnce stays_readTexts _ _ _
  case isFalse.isFalse.isTrue =>
    exact stays_readOnce (Json.stays_readArray OutputSpec.stays_read) _ _ _
  case isFalse.isFalse.isFalse => exact stays_skipMember rest

theorem stays_readPositional (text : List Char) :
    Stays sizeBehind (size text) (readPositional text) := by
  refine (stays_readItemOrEnd (Json.stays_readArray DocRef.stays_read) true text).bind
    fun docs => ?_
  have finish (references : Option (List String))
      (outputs : Option (List OutputSpec) × List Char) :
      Stays sizeBehind (sizeBehind outputs) (Json.closeList outputs.2 >>= fun rest =>
        pure ((⟨docs.1.getD [], references.getD [], outputs.1.getD []⟩ : Manifest), rest)) :=
    (Json.stays_closeList outputs.2).bind fun _ => (Json.stays_pure _).mpr (Nat.le_refl _)
  have outputs (rest : List Char) :=
    stays_readItemOrEnd (Json.stays_readArray OutputSpec.stays_read) false rest
  dsimp only
  split
  · exact finish none (none, docs.2)
  · refine (stays_readItemOrEnd stays_readTexts false docs.2).bind fun references => ?_
    split
    · exact finish references.1 (none, references.2)
    · exact (outputs references.2).bind (finish references.1)

theorem stays_read (text : List Char) : Stays sizeBehind (size text) (read text) := by
  unfold read
  split
  case h_1 rest behind =>
    exact (stays_readPositional rest).mono (Json.size_rest_le_of_skipSpace behind)
  case h_2 rest behind =>
    have record := Json.stays_readObject stays_readMember ⟨none, none, none⟩ rest
    exact (Json.stays_map _ _).mpr (record.mono (Json.size_rest_le_of_skipSpace behind))
  case h_3 => exact Nat.le_trans (Json.left_unwanted_le _ _) (Json.size_skipSpace_le text)

/-- Wherever a manifest is refused lies within its text. -/
theorem stays_decode (text : List Char) : Stays (fun _ => 0) (size text) (decode text) :=
  (stays_read text).bind fun _ =>
    (Json.stays_readEnd _).bind fun _ => (Json.stays_pure _).mpr (Nat.le_refl _)

variable {text : String} {refusal : Refusal}

/-- A text is refused for a fault inside it. -/
theorem exists_fault_of_refused (refused : ofText text = .error refusal) :
    ∃ fault, decode text.toList = .error fault ∧ fault.cause.Known ∧
      fault.left ≤ Utf8.size text.toList ∧ refusal.reason = fault.cause.message ∧
      fault.position text.toList = ⟨refusal.line, refusal.column⟩ := by
  unfold ofText at refused
  cases decoded : decode text.toList with
  | ok manifest => simp [decoded] at refused
  | error fault =>
    rw [decoded] at refused
    cases refused
    exact ⟨fault, rfl, knownFaults_decode _ _ decoded, (stays_decode _).fault_le decoded, rfl, rfl⟩

end Manifest

end ExerciseAudit
