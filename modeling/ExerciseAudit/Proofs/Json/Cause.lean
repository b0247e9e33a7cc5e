import ExerciseAudit.Json.Reader
import Mathlib.Data.List.Basic

/-!
# The causes of faults

A cause names what was found in the text, and besides that only what the schema of manifests knows:
the kinds of value that it wants, the fields of its records, the types of its entries
(`Json.Cause.Known`). Every fault of a reader has such a cause, from single tokens up to values of
any kind, and a reader of lists or objects hands on the causes of the reader of their parts.
-/

namespace ExerciseAudit

namespace Json

/-- What a cause says besides what was found comes from the schema. -/
def Cause.Known : Cause → Prop
  | wrongKind _ wanted =>
    wanted ∈ ["a string", "a sequence", "struct OutputSpec", "struct Manifest"]
  | repeatedField field =>
    field ∈ ["docs", "references", "outputs", "fixture", "requiredSections"]
  | noShape type => type = "untagged enum DocRef"
  | _ => True

/-- If a reader has failed, then for a known cause. -/
def KnownFaults {α : Type} (outcome : Except Fault α) : Prop :=
  ∀ fault, outcome = .error fault → fault.cause.Known

section Outcomes

variable {α β : Type}

@[simp]
theorem knownFaults_ok (value : α) : KnownFaults (.ok value) := by
  simp [KnownFaults]

@[simp]
theorem knownFaults_pure (value : α) : KnownFaults (pure value) :=
  knownFaults_ok value

@[simp]
theorem knownFaults_error (fault : Fault) :
    KnownFaults (.error fault : Except Fault α) ↔ fault.cause.Known := by
  simp [KnownFaults]

@[simp]
theorem knownFaults_map (f : α → β) (outcome : Except Fault α) :
    KnownFaults (outcome.map f) ↔ KnownFaults outcome := by
  cases outcome <;> simp [Except.map]

/-- A reader that passes on the fault of another has failed for a known cause if that one has. -/
theorem KnownFaults.passOn {outcome : Except Fault α} (first : KnownFaults outcome) {fault : Fault}
    (failed : outcome = .error fault) : KnownFaults (.error fault : Except Fault β) :=
  (knownFaults_error fault).mpr (first fault failed)

/-- Reading two things one behind the other has known causes if each of them has. -/
theorem KnownFaults.bind {outcome : Except Fault α} {next : α → Except Fault β}
    (first : KnownFaults outcome) (later : ∀ value, KnownFaults (next value)) :
    KnownFaults (outcome >>= next) := by
  cases outcome with
  | error fault => exact first.passOn rfl
  | ok value => exact later value

end Outcomes

@[simp]
theorem cause_before (cause : Cause) (rest : List Char) : (Fault.before cause rest).cause = cause :=
  rfl

@[simp]
theorem cause_behind (cause : Cause) (rest : List Char) : (Fault.behind cause rest).cause = cause :=
  rfl

/-! ## Tokens -/

theorem knownFaults_readWord (expected text : List Char) : KnownFaults (readWord expected text) := by
  fun_induction readWord expected text <;> simp_all [Cause.Known]

theorem known_brokenUnit (rest : List Char) : (brokenUnit rest).cause.Known := by
  unfold brokenUnit
  split <;> simp [Cause.Known]

theorem knownFaults_withChar (c : Char) (outcome : Outcome (List Char)) :
    KnownFaults (withChar c outcome) ↔ KnownFaults outcome :=
  knownFaults_map _ _

theorem knownFaults_readString (text : List Char) : KnownFaults (readString text) := by
  fun_induction readString text <;>
    simp_all [↓known_brokenUnit, Cause.Known, knownFaults_withChar]

theorem knownFaults_skipString (text : List Char) : KnownFaults (skipString text) := by
  fun_induction skipString text <;> simp_all [↓known_brokenUnit, Cause.Known]

section Numbers

variable {atEnd : Cause}

theorem knownFaults_readExponent (known : atEnd.Known) (text : List Char) :
    KnownFaults (readExponent atEnd text) := by
  unfold readExponent
  repeat' split
  all_goals simp_all [Cause.Known]

theorem knownFaults_readFraction (known : atEnd.Known) (text : List Char) :
    KnownFaults (readFraction atEnd text) := by
  unfold readFraction
  repeat' split
  all_goals simp_all [Cause.Known]

theorem knownFaults_readWhole (known : atEnd.Known) (text : List Char) :
    KnownFaults (readWhole atEnd text) := by
  unfold readWhole
  repeat' split
  all_goals simp_all [Cause.Known]

theorem knownFaults_readNumeral (known : atEnd.Known) (text : List Char) :
    KnownFaults (readNumeral atEnd text) :=
  (knownFaults_readWhole known text).bind fun _ =>
    (knownFaults_readFraction known _).bind fun _ =>
      (knownFaults_readExponent known _).bind fun _ => knownFaults_pure _

end Numbers

theorem knownFaults_float (numeral : Numeral) (negative : Bool) (rest : List Char) :
    KnownFaults (numeral.float negative rest) := by
  unfold Numeral.float
  simp only
  repeat' split
  all_goals simp [Cause.Known]

theorem knownFaults_value (numeral : Numeral) (negative : Bool) (rest : List Char) :
    KnownFaults (numeral.value negative rest) := by
  unfold Numeral.value
  simp only
  repeat' split
  all_goals simp [knownFaults_float]

theorem knownFaults_readNumber (text : List Char) : KnownFaults (readNumber text) :=
  (knownFaults_readNumeral (by simp [Cause.Known]) _).bind fun _ =>
    (knownFaults_value _ _ _).bind fun _ => knownFaults_pure _

theorem knownFaults_skipNumber (text : List Char) : KnownFaults (skipNumber text) :=
  (knownFaults_readNumeral (by simp [Cause.Known]) _).bind fun _ => knownFaults_pure _

/-! ## Values that are skipped -/

theorem knownFaults_readColon (text : List Char) : KnownFaults (readColon text) := by
  unfold readColon
  repeat' split
  all_goals simp [Cause.Known]

theorem knownFaults_skipScalar? (c : Char) (rest : List Char) :
    KnownFaults (skipScalar? c rest) := by
  unfold skipScalar?
  repeat' split
  all_goals simp [Cause.Known, knownFaults_skipString, knownFaults_readWord, knownFaults_skipNumber]

theorem known_ended (bracket : Bracket) : bracket.ended.Known := by
  cases bracket <;> simp [Bracket.ended, Cause.Known]

theorem known_expectedCommaOrEnd (bracket : Bracket) : bracket.expectedCommaOrEnd.Known := by
  cases bracket <;> simp [Bracket.expectedCommaOrEnd, Cause.Known]

theorem knownFaults_skipOpen (moves : Nat) (expecting : Expecting) (openings : List Bracket)
    (text : List Char) : KnownFaults (skipOpen moves expecting openings text) := by
  fun_induction skipOpen moves expecting openings text
  -- A value is a scalar, with more to come if brackets are open, or it opens a bracket.
  case case3 c rest _ behind opened =>
    refine (knownFaults_skipScalar? c rest).bind fun skipped => ?_
    split
    · split
      · exact knownFaults_pure _
      · exact behind _
    · exact opened
  case case5 rest _ value =>
    exact (knownFaults_skipString rest).bind fun rest =>
      (knownFaults_readColon rest).bind fun rest => value rest
  case case9 => simp [known_ended]
  case case12 => simp [known_expectedCommaOrEnd]
  all_goals simp_all [Cause.Known]

theorem knownFaults_skipValue (text : List Char) : KnownFaults (skipValue text) :=
  knownFaults_skipOpen _ _ _ _

/-! ## Values that are read -/

theorem knownFaults_nextItem (first : Bool) (text : List Char) :
    KnownFaults (nextItem first text) := by
  unfold nextItem
  repeat' split
  all_goals simp [Cause.Known]

section Lists

variable {α σ : Type}

/-- A list's reader adds only known causes to those of its items. -/
theorem knownFaults_readItems {item : List Char → Outcome α}
    (each : ∀ text, KnownFaults (item text)) (bound : Nat) (first : Bool) (text : List Char) :
    KnownFaults (readItems item bound first text) := by
  induction bound generalizing first text with
  | zero => simp [readItems, Cause.Known]
  | succ bound ih =>
    unfold readItems
    split
    case h_1 fault failed => exact (knownFaults_nextItem _ _).passOn failed
    case h_2 => exact knownFaults_ok _
    case h_3 rest _ =>
      split
      case h_1 fault failed => exact (each rest).passOn failed
      case h_2 value rest _ =>
        split
        case h_1 fault failed => exact (ih false rest).passOn failed
        case h_2 => exact knownFaults_ok _

theorem knownFaults_readList {item : List Char → Outcome α}
    (each : ∀ text, KnownFaults (item text)) (text : List Char) : KnownFaults (readList item text) :=
  knownFaults_readItems each _ _ _

theorem knownFaults_readKey (text : List Char) : KnownFaults (readKey text) := by
  unfold readKey
  split
  · simp [knownFaults_readString]
  · simp [Cause.Known]

theorem knownFaults_nextKey (first : Bool) (text : List Char) :
    KnownFaults (nextKey first text) := by
  unfold nextKey
  repeat' split
  all_goals simp [Cause.Known, knownFaults_readKey]

/-- An object's reader adds only known causes to those of its members. -/
theorem knownFaults_readMembers {member : σ → String → List Char → Outcome σ}
    (each : ∀ gathered name text, KnownFaults (member gathered name text)) (bound : Nat)
    (first : Bool) (gathered : σ) (text : List Char) :
    KnownFaults (readMembers member bound first gathered text) := by
  induction bound generalizing first gathered text with
  | zero => simp [readMembers, Cause.Known]
  | succ bound ih =>
    unfold readMembers
    split
    case h_1 fault failed => exact (knownFaults_nextKey _ _).passOn failed
    case h_2 => exact knownFaults_ok _
    case h_3 name rest _ =>
      split
      case h_1 fault failed => exact (each _ _ _).passOn failed
      case h_2 gathered rest _ => exact ih false gathered rest

theorem knownFaults_readObject {member : σ → String → List Char → Outcome σ}
    (each : ∀ gathered name text, KnownFaults (member gathered name text)) (start : σ)
    (text : List Char) : KnownFaults (readObject member start text) :=
  knownFaults_readMembers each _ _ _ _

end Lists

theorem knownFaults_readValue (depth : Nat) (text : List Char) :
    KnownFaults (readValue depth text) := by
  induction depth using Nat.strongRecOn generalizing text with
  | ind depth ih =>
    rw [readValue.eq_def]
    repeat' split
    all_goals simp [Cause.Known, knownFaults_readWord, knownFaults_readNumber,
      knownFaults_readString]
    -- Only brackets are left, and what stands in them nests less deep.
    · exact knownFaults_readList (ih _ (Nat.lt_succ_self _)) _
    · apply knownFaults_readObject
      intro members name rest
      split
      case h_1 fault failed => exact (knownFaults_readColon _).passOn failed
      case h_2 rest _ => exact (knownFaults_map _ _).mpr (ih _ (Nat.lt_succ_self _) rest)

/-- What stands in the place of something else is described in known words. -/
theorem known_unwanted {wanted : String}
    (kind : wanted ∈ ["a string", "a sequence", "struct OutputSpec", "struct Manifest"])
    (text : List Char) : (unwanted wanted text).cause.Known := by
  have found (kind' : Found) : (Cause.wrongKind kind' wanted).Known := kind
  unfold unwanted
  simp only
  repeat' split
  -- A word, a number or a string that is broken is refused for that, and not for its kind.
  all_goals first
    | exact found _
    | exact knownFaults_readWord _ _ _ ‹_›
    | exact knownFaults_readNumber _ _ ‹_›
    | exact knownFaults_readString _ _ ‹_›
    | simp [Cause.Known]

theorem knownFaults_readText (text : List Char) : KnownFaults (readText text) := by
  unfold readText
  split
  · simp [knownFaults_readString]
  · simp [↓known_unwanted]

theorem knownFaults_readTextOrNull (text : List Char) : KnownFaults (readTextOrNull text) := by
  unfold readTextOrNull
  split
  · simp [knownFaults_readWord]
  · simp [knownFaults_readText]

theorem knownFaults_readArray {α : Type} {item : List Char → Outcome α}
    (each : ∀ text, KnownFaults (item text)) (text : List Char) :
    KnownFaults (readArray item text) := by
  unfold readArray
  split
  · exact knownFaults_readList each _
  · simp [↓known_unwanted]

theorem knownFaults_closeList (text : List Char) : KnownFaults (closeList text) := by
  unfold closeList
  repeat' split
  all_goals simp [Cause.Known]

theorem knownFaults_readEnd (text : List Char) : KnownFaults (readEnd text) := by
  unfold readEnd
  split <;> simp [Cause.Known]

end Json

end ExerciseAudit
