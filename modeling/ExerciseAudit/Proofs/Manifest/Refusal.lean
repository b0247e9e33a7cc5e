import ExerciseAudit.Manifest.Decode
import ExerciseAudit.Proofs.Json.Cause

/-!
# Why a text is no manifest

The reader of manifests fails for causes that the schema knows (`Manifest.knownFaults_decode`): each
reader of a record's members does, and so do the readers of records and lists that are made of them.
-/

namespace ExerciseAudit

open Json (Cause KnownFaults Outcome)

/-- A member that may stand once has known faults, a second one included. -/
theorem knownFaults_readOnce {α : Type} {field : String}
    (known : (Cause.repeatedField field).Known) (before : Option α)
    {read : List Char → Outcome α} (each : ∀ text, KnownFaults (read text)) (rest : List Char) :
    KnownFaults (readOnce field before read rest) := by
  unfold readOnce
  split
  · exact (Json.knownFaults_error _).mpr known
  · split
    case h_1 fault failed => exact (Json.knownFaults_readColon _).passOn failed
    case h_2 rest _ => exact each rest

theorem knownFaults_skipMember (rest : List Char) : KnownFaults (skipMember rest) := by
  unfold skipMember
  split
  case h_1 fault failed => exact (Json.knownFaults_readColon _).passOn failed
  case h_2 rest _ => exact Json.knownFaults_skipValue rest

theorem knownFaults_readItemOrEnd {α : Type} {read : List Char → Outcome α}
    (each : ∀ text, KnownFaults (read text)) (first : Bool) (text : List Char) :
    KnownFaults (readItemOrEnd first read text) := by
  unfold readItemOrEnd
  split
  case h_1 fault failed => exact (Json.knownFaults_nextItem _ _).passOn failed
  case h_2 => exact Json.knownFaults_ok _
  case h_3 rest _ => exact (Json.knownFaults_map _ _).mpr (each rest)

theorem knownFaults_readTexts (text : List Char) : KnownFaults (readTexts text) :=
  Json.knownFaults_readArray Json.knownFaults_readText text

/-- An entry without the shape of one is refused in known words. -/
theorem DocRef.knownFaults_read (text : List Char) : KnownFaults (read text) := by
  unfold read
  split
  case h_1 fault failed => exact (Json.knownFaults_readValue _ _).passOn failed
  case h_2 => split <;> simp [Cause.Known]

namespace OutputSpec

theorem knownFaults_readMember (members : Draft) (name : String) (rest : List Char) :
    KnownFaults (readMember members name rest) := by
  unfold readMember
  repeat' split
  all_goals rw [Json.knownFaults_map]
  case isTrue fixture =>
    subst fixture
    exact knownFaults_readOnce (by simp [Cause.Known]) _ Json.knownFaults_readTextOrNull _
  case isFalse.isTrue sections =>
    subst sections
    exact knownFaults_readOnce (by simp [Cause.Known]) _ knownFaults_readTexts _
  case isFalse.isFalse => exact knownFaults_skipMember _

theorem knownFaults_readPositional (text : List Char) : KnownFaults (readPositional text) := by
  refine (knownFaults_readItemOrEnd Json.knownFaults_readTextOrNull _ _).bind fun fixture => ?_
  have finish (sections : Option (List String) × List Char) :=
    (Json.knownFaults_closeList sections.2).bind fun rest => Json.knownFaults_pure
      ((⟨fixture.1.getD none, sections.1.getD []⟩, rest) : OutputSpec × List Char)
  dsimp only
  split
  · exact (Json.knownFaults_pure _).bind finish
  · exact (knownFaults_readItemOrEnd knownFaults_readTexts _ _).bind finish

theorem knownFaults_read (text : List Char) : KnownFaults (read text) := by
  unfold read
  split
  · exact knownFaults_readPositional _
  · exact (Json.knownFaults_map _ _).mpr (Json.knownFaults_readObject knownFaults_readMember _ _)
  · simp [↓Json.known_unwanted]

end OutputSpec

namespace Manifest

theorem knownFaults_readMember (members : Draft) (name : String) (rest : List Char) :
    KnownFaults (readMember members name rest) := by
  unfold readMember
  repeat' split
  all_goals rw [Json.knownFaults_map]
  case isTrue docs =>
    subst docs
    exact knownFaults_readOnce (by simp [Cause.Known]) _
      (Json.knownFaults_readArray DocRef.knownFaults_read) _
  case isFalse.isTrue references =>
    subst references
    exact knownFaults_readOnce (by simp [Cause.Known]) _ knownFaults_readTexts _
  case isFalse.isFalse.isTrue outputs =>
    subst outputs
    exact knownFaults_readOnce (by simp [Cause.Known]) _
      (Json.knownFaults_readArray OutputSpec.knownFaults_read) _
  case isFalse.isFalse.isFalse => exact knownFaults_skipMember _

theorem knownFaults_readPositional (text : List Char) : KnownFaults (readPositional text) := by
  have docs := Json.knownFaults_readArray DocRef.knownFaults_read
  have outputs := Json.knownFaults_readArray OutputSpec.knownFaults_read
  refine (knownFaults_readItemOrEnd docs _ _).bind fun docs => ?_
  have finish (references : Option (List String) × List Char)
      (outputs : Option (List OutputSpec) × List Char) :=
    (Json.knownFaults_closeList outputs.2).bind fun rest => Json.knownFaults_pure
      ((⟨docs.1.getD [], references.1.getD [], outputs.1.getD []⟩, rest) : Manifest × List Char)
  dsimp only
  split
  on_goal 1 => refine (Json.knownFaults_pure _).bind fun references => ?_
  on_goal 2 =>
    refine (knownFaults_readItemOrEnd knownFaults_readTexts _ _).bind fun references => ?_
  all_goals
    split
    · exact (Json.knownFaults_pure _).bind (finish references)
    · exact (knownFaults_readItemOrEnd outputs _ _).bind (finish references)

theorem knownFaults_read (text : List Char) : KnownFaults (read text) := by
  unfold read
  split
  · exact knownFaults_readPositional _
  · exact (Json.knownFaults_map _ _).mpr (Json.knownFaults_readObject knownFaults_readMember _ _)
  · simp [↓Json.known_unwanted]

/-- A text that is no manifest is refused for a known cause. -/
theorem knownFaults_decode (text : List Char) : KnownFaults (decode text) :=
  (knownFaults_read text).bind fun _ =>
    (Json.knownFaults_readEnd _).bind fun _ => Json.knownFaults_pure _

end Manifest

end ExerciseAudit
