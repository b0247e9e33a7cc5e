import ExerciseAudit.Proofs.Json.Cause

/-!
# Readers stay in their text

A reader is given the rest of a text. What it leaves behind its value is no longer than that, and a
fault has no more of the text behind it (`Json.Stays`). So every fault is reported inside the text,
however far a reader has looked ahead, and whoever hands the fault on. Readers of lists and objects
stay in their text if the readers of their parts do.
-/

namespace ExerciseAudit

namespace Utf8

@[simp]
theorem size_nil : size [] = 0 :=
  rfl

@[simp]
theorem size_cons (c : Char) (rest : List Char) : size (c :: rest) = c.utf8Size + size rest :=
  rfl

theorem size_append (text more : List Char) : size (text ++ more) = size text + size more := by
  induction text with
  | nil => simp
  | cons c text ih => rw [List.cons_append, size_cons, size_cons, ih, Nat.add_assoc]

/-- Cutting a text in two loses nothing. -/
theorem size_takeWhile_add_size_dropWhile (p : Char → Bool) (text : List Char) :
    size (text.takeWhile p) + size (text.dropWhile p) = size text := by
  rw [← size_append, List.takeWhile_append_dropWhile]

end Utf8

namespace Json

open Utf8 (size)

section Outcomes

variable {α β : Type} {left : α → Nat} {left' : β → Nat} {bound larger : Nat}

/-- A reader with so many bytes at hand stays in its text: its result leaves no more of them, and its
fault has no more of them behind it. What a result leaves is told by `left`. -/
def Stays (left : α → Nat) (bound : Nat) : Except Fault α → Prop
  | .ok value => left value ≤ bound
  | .error fault => fault.left ≤ bound

@[simp]
theorem stays_ok (value : α) : Stays left bound (.ok value) ↔ left value ≤ bound :=
  Iff.rfl

@[simp]
theorem stays_pure (value : α) : Stays left bound (pure value) ↔ left value ≤ bound :=
  Iff.rfl

@[simp]
theorem stays_error (fault : Fault) :
    Stays left bound (.error fault : Except Fault α) ↔ fault.left ≤ bound :=
  Iff.rfl

theorem stays_map (f : α → β) (outcome : Except Fault α) :
    Stays left' bound (outcome.map f) ↔ Stays (fun value => left' (f value)) bound outcome := by
  cases outcome <;> rfl

namespace Stays

variable {outcome : Except Fault α}

theorem mono (stays : Stays left bound outcome) (more : bound ≤ larger) :
    Stays left larger outcome := by
  cases outcome with
  | ok value => exact Nat.le_trans stays more
  | error fault => exact Nat.le_trans stays more

theorem left_le (stays : Stays left bound outcome) {value : α} (taken : outcome = .ok value) :
    left value ≤ bound := by
  rw [taken] at stays
  exact stays

theorem fault_le (stays : Stays left bound outcome) {fault : Fault}
    (failed : outcome = .error fault) : fault.left ≤ bound := by
  rw [failed] at stays
  exact stays

/-- A second reader has at hand what the first one leaves. -/
theorem bind {next : α → Except Fault β} (first : Stays left bound outcome)
    (later : ∀ value, Stays left' (left value) (next value)) :
    Stays left' bound (outcome >>= next) := by
  cases outcome with
  | ok value => exact (later value).mono first
  | error fault => exact first

end Stays

end Outcomes

/-- The bytes behind what has been read. -/
def sizeBehind {α : Type} (read : α × List Char) : Nat :=
  size read.2

@[simp]
theorem left_before (cause : Cause) (rest : List Char) :
    (Fault.before cause rest).left = size rest :=
  rfl

@[simp]
theorem left_behind (cause : Cause) (rest : List Char) :
    (Fault.behind cause rest).left = size rest - 1 :=
  rfl

theorem size_skipSpace_le (text : List Char) : size (skipSpace text) ≤ size text := by
  have parts := Utf8.size_takeWhile_add_size_dropWhile isSpace text
  rw [skipSpace]
  omega

/-- What stands behind blanks and one more character. -/
theorem size_le_of_skipSpace {text rest : List Char} {c : Char} (behind : skipSpace text = c :: rest) :
    c.utf8Size + size rest ≤ size text := by
  have blanks := size_skipSpace_le text
  rwa [behind] at blanks

theorem size_rest_le_of_skipSpace {text rest : List Char} {c : Char}
    (behind : skipSpace text = c :: rest) : size rest ≤ size text :=
  Nat.le_trans (Nat.le_add_left _ _) (size_le_of_skipSpace behind)

/-! ## Tokens -/

theorem stays_readWord (expected text : List Char) :
    Stays size (size text) (readWord expected text) := by
  fun_induction readWord expected text
  case case3 letters c rest ih => exact ih.mono (by simp)
  all_goals simp only [stays_ok, stays_error, left_before, left_behind]; omega

theorem left_brokenUnit_le (rest : List Char) : (brokenUnit rest).left ≤ size rest := by
  unfold brokenUnit
  split <;> simp

theorem stays_withChar {bound : Nat} (c : Char) (outcome : Outcome (List Char)) :
    Stays sizeBehind bound (withChar c outcome) ↔ Stays sizeBehind bound outcome :=
  stays_map _ _

theorem stays_readString (text : List Char) : Stays sizeBehind (size text) (readString text) := by
  fun_induction readString text
  -- A character or an escape is behind, and the string goes on.
  case case9 ih | case14 ih | case16 ih | case19 ih =>
    exact (stays_withChar _ _).mpr (ih.mono (by simp only [Utf8.size_cons]; omega))
  case case4 | case8 | case11 | case15 =>
    refine Nat.le_trans (left_brokenUnit_le _) ?_
    simp only [Utf8.size_cons]
    omega
  all_goals
    simp only [stays_ok, stays_error, sizeBehind, left_before, left_behind, Utf8.size_cons,
      Utf8.size_nil]
    omega

theorem stays_skipString (text : List Char) : Stays size (size text) (skipString text) := by
  fun_induction skipString text
  case case4 ih | case7 ih | case10 ih => exact ih.mono (by simp only [Utf8.size_cons]; omega)
  case case5 | case6 =>
    refine Nat.le_trans (left_brokenUnit_le _) ?_
    simp only [Utf8.size_cons]
    omega
  all_goals
    simp only [stays_ok, stays_error, left_before, left_behind, Utf8.size_cons, Utf8.size_nil]
    omega

section Numbers

variable (atEnd : Cause) (text : List Char)

/-- The bytes of an exponent's digits, which are looked at again once the number is complete. -/
def exponentSize : Option (Bool × List Char) → Nat
  | none => 0
  | some (_, digits) => size digits

/-- The digits of an exponent, and what is left behind them, come out of the text. -/
theorem stays_readExponent :
    Stays (fun read => exponentSize read.1 + size read.2) (size text) (readExponent atEnd text) := by
  unfold readExponent
  split
  case h_1 => simp [exponentSize]
  case h_2 e rest =>
    split
    case isTrue =>
      split
      case h_1 signed _ negative digits found =>
        have behindSign : size digits ≤ size rest := by
          split at found
          all_goals
            cases found
            simp
        have parts := Utf8.size_takeWhile_add_size_dropWhile isDigit digits
        repeat' split
        all_goals
          simp only [stays_ok, stays_error, left_before, left_behind, exponentSize, Utf8.size_cons,
            Utf8.size_nil] at behindSign parts ⊢
          omega
    case isFalse => simp [exponentSize]

theorem stays_readFraction : Stays sizeBehind (size text) (readFraction atEnd text) := by
  unfold readFraction
  split
  case h_1 => simp
  case h_2 c rest =>
    have parts := Utf8.size_takeWhile_add_size_dropWhile isDigit (c :: rest)
    split
    all_goals
      simp only [stays_ok, stays_error, left_behind, sizeBehind, Utf8.size_cons] at parts ⊢
      omega
  case h_3 => exact Nat.le_refl _

theorem stays_readWhole : Stays sizeBehind (size text) (readWhole atEnd text) := by
  unfold readWhole
  split
  case h_1 => simp
  case h_2 c rest =>
    have parts := Utf8.size_takeWhile_add_size_dropWhile isDigit (c :: rest)
    repeat' split
    all_goals
      simp only [stays_ok, stays_error, left_behind, sizeBehind, Utf8.size_cons,
        Utf8.size_nil] at parts ⊢
      omega

/-- The digits of a numeral's exponent, and what is left behind them, come out of the text. -/
theorem stays_readNumeral :
    Stays (fun read => exponentSize read.1.exponent + size read.2) (size text)
      (readNumeral atEnd text) :=
  (stays_readWhole atEnd text).bind fun _ =>
    (stays_readFraction atEnd _).bind fun _ =>
      (stays_readExponent atEnd _).bind fun _ => (stays_pure _).mpr (Nat.le_refl _)

end Numbers

theorem size_gather_le (bound n : Nat) (digits : List Char) :
    size (gather bound n digits).2 ≤ size digits := by
  fun_induction gather bound n digits
  case case3 ih => simp only [Utf8.size_cons]; omega
  all_goals exact Nat.le_refl _

/-- The value of a number is sought within the digits of its exponent and what follows it. -/
theorem stays_float (numeral : Numeral) (negative : Bool) (rest : List Char) :
    Stays (fun _ => size rest) (exponentSize numeral.exponent + size rest)
      (numeral.float negative rest) := by
  unfold Numeral.float
  simp only
  split
  case h_1 =>
    split
    all_goals simp
  case h_2 written down digits found =>
    have unread := size_gather_le maxWrittenExponent 0 digits
    split
    case h_1 =>
      split
      all_goals simp
    case h_2 left gathered =>
      split
      case isTrue =>
        rw [gathered] at unread
        rw [found]
        simp only [stays_error, exponentSize, Utf8.size_cons] at unread ⊢
        omega
      case isFalse => simp

/-- A number that is out of range is refused within the digits of its exponent and what follows. -/
theorem stays_value (numeral : Numeral) (negative : Bool) (rest : List Char) :
    Stays (fun _ => size rest) (exponentSize numeral.exponent + size rest)
      (numeral.value negative rest) := by
  unfold Numeral.value
  simp only
  repeat' split
  all_goals simp [stays_float]

theorem stays_readNumber (text : List Char) : Stays sizeBehind (size text) (readNumber text) := by
  unfold readNumber
  split
  case h_1 signed negative digits found =>
    have behindSign : size digits ≤ size text := by
      split at found
      all_goals
        cases found
        simp
    refine Stays.mono ?_ behindSign
    exact (stays_readNumeral .endInValue digits).bind fun read =>
      (stays_value read.1 negative read.2).bind fun _ => (stays_pure _).mpr (Nat.le_refl _)

theorem stays_skipNumber (text : List Char) : Stays size (size text) (skipNumber text) := by
  unfold skipNumber
  simp only
  split
  all_goals
    refine Stays.mono ((stays_readNumeral .invalidNumber _).bind fun read => ?_) (by simp)
    exact (stays_pure _).mpr (Nat.le_add_left _ _)

/-! ## Values that are skipped -/

theorem stays_readColon (text : List Char) : Stays size (size text) (readColon text) := by
  unfold readColon
  split
  case h_1 => simp
  case h_2 c rest behind =>
    have within := size_le_of_skipSpace behind
    split
    all_goals
      simp only [stays_ok, stays_error, left_behind, Utf8.size_cons]
      omega

theorem stays_skipScalar? (c : Char) (rest : List Char) :
    Stays (fun skipped => size (skipped.getD rest)) (size (c :: rest)) (skipScalar? c rest) := by
  have within : size rest ≤ size (c :: rest) := by simp
  have word (letters : List Char) := (stays_readWord letters rest).mono within
  unfold skipScalar?
  repeat' split
  case isTrue => exact (stays_map _ _).mpr ((stays_skipString rest).mono within)
  case isFalse.isTrue => exact (stays_map _ _).mpr (word _)
  case isFalse.isFalse.isTrue => exact (stays_map _ _).mpr (word _)
  case isFalse.isFalse.isFalse.isTrue => exact (stays_map _ _).mpr (word _)
  case isFalse.isFalse.isFalse.isFalse.isTrue => exact (stays_map _ _).mpr (stays_skipNumber _)
  all_goals simp

/-- Skipping moves forward only, whatever brackets are open. -/
theorem stays_skipOpen (moves : Nat) (expecting : Expecting) (openings : List Bracket)
    (text : List Char) : Stays size (size text) (skipOpen moves expecting openings text) := by
  fun_induction skipOpen moves expecting openings text
  -- A value is a scalar, with more to come if brackets are open, or it opens a bracket.
  case case3 c rest behind onward opened =>
    refine Stays.mono ?_ (size_le_of_skipSpace behind)
    refine (stays_skipScalar? c rest).bind fun skipped => ?_
    split
    · split
      · exact (stays_pure _).mpr (Nat.le_refl _)
      · exact onward _
    · exact opened
  case case5 rest behind value =>
    refine Stays.mono ?_ (size_rest_le_of_skipSpace behind)
    exact (stays_skipString rest).bind fun rest => (stays_readColon rest).bind value
  case case10 behind _ onward | case11 behind _ onward =>
    exact onward.mono (size_rest_le_of_skipSpace behind)
  case case13 behind _ _ _ onward => exact onward.mono (size_le_of_skipSpace behind)
  case case7 value => exact value
  case case6 behind _ | case12 behind _ _ =>
    exact Nat.le_trans (Nat.sub_le _ _) (size_le_of_skipSpace behind)
  all_goals simp

theorem stays_skipValue (text : List Char) : Stays size (size text) (skipValue text) :=
  stays_skipOpen _ _ _ _

/-! ## Values that are read -/

/-- The rest of a list from where it goes on or has ended. -/
def NextItem.rest : NextItem → List Char
  | close rest | item rest => rest

theorem stays_nextItem (first : Bool) (text : List Char) :
    Stays (fun next => size next.rest) (size text) (nextItem first text) := by
  unfold nextItem
  split
  case h_1 => simp
  case h_2 c rest behind =>
    refine Stays.mono ?_ (size_le_of_skipSpace behind)
    split
    · exact Nat.le_add_left _ _
    split
    · exact Nat.le_refl _
    split
    · split
      case h_1 => simp
      case h_2 c rest behindComma =>
        have within := size_le_of_skipSpace behindComma
        split
        all_goals
          simp only [stays_ok, stays_error, left_behind, NextItem.rest, Utf8.size_cons]
          omega
    · exact Nat.sub_le _ _

section Lists

variable {α σ : Type}

theorem stays_readItems {item : List Char → Outcome α}
    (each : ∀ text, Stays sizeBehind (size text) (item text)) (bound : Nat) (first : Bool)
    (text : List Char) : Stays sizeBehind (size text) (readItems item bound first text) := by
  induction bound generalizing first text with
  | zero => simp [readItems]
  | succ bound ih =>
    have next := stays_nextItem first text
    unfold readItems
    split
    case h_1 fault failed => exact next.fault_le failed
    case h_2 rest ended => exact next.left_le ended
    case h_3 rest found =>
      refine Stays.mono ?_ (next.left_le found)
      split
      case h_1 fault failed => exact (each rest).fault_le failed
      case h_2 value behind taken =>
        refine Stays.mono ?_ ((each rest).left_le taken)
        split
        case h_1 fault failed => exact (ih false behind).fault_le failed
        case h_2 values later takenLater =>
          have within := (ih false behind).left_le takenLater
          exact within

theorem stays_readList {item : List Char → Outcome α}
    (each : ∀ text, Stays sizeBehind (size text) (item text)) (text : List Char) :
    Stays sizeBehind (size text) (readList item text) :=
  stays_readItems each _ _ _

/-- The rest of an object from behind its next key or its end. -/
def NextKey.rest : NextKey → List Char
  | close rest | key _ rest => rest

theorem stays_readKey (text : List Char) :
    Stays (fun next => size next.rest) (size text) (readKey text) := by
  unfold readKey
  split
  case h_1 rest => exact (stays_map _ _).mpr ((stays_readString rest).mono (by simp))
  case h_2 => simp

theorem stays_nextKey (first : Bool) (text : List Char) :
    Stays (fun next => size next.rest) (size text) (nextKey first text) := by
  unfold nextKey
  split
  case h_1 => simp
  case h_2 c rest behind =>
    refine Stays.mono ?_ (size_le_of_skipSpace behind)
    split
    · exact Nat.le_add_left _ _
    split
    · exact stays_readKey _
    split
    · split
      case h_1 => simp
      case h_2 c rest behindComma =>
        have within := size_le_of_skipSpace behindComma
        split
        · simp only [stays_error, left_behind, Utf8.size_cons]
          omega
        · refine (stays_readKey _).mono ?_
          rw [Utf8.size_cons]
          omega
    · exact Nat.sub_le _ _

theorem stays_readMembers {member : σ → String → List Char → Outcome σ}
    (each : ∀ gathered name text, Stays sizeBehind (size text) (member gathered name text))
    (bound : Nat) (first : Bool) (gathered : σ) (text : List Char) :
    Stays sizeBehind (size text) (readMembers member bound first gathered text) := by
  induction bound generalizing first gathered text with
  | zero => simp [readMembers]
  | succ bound ih =>
    have next := stays_nextKey first text
    unfold readMembers
    split
    case h_1 fault failed => exact next.fault_le failed
    case h_2 rest ended => exact next.left_le ended
    case h_3 name rest found =>
      refine Stays.mono ?_ (next.left_le found)
      split
      case h_1 fault failed => exact (each gathered name rest).fault_le failed
      case h_2 gathered' behind taken =>
        exact (ih false gathered' behind).mono ((each gathered name rest).left_le taken)

theorem stays_readObject {member : σ → String → List Char → Outcome σ}
    (each : ∀ gathered name text, Stays sizeBehind (size text) (member gathered name text))
    (start : σ) (text : List Char) :
    Stays sizeBehind (size text) (readObject member start text) :=
  stays_readMembers each _ _ _ _

end Lists

theorem stays_readValue (depth : Nat) (text : List Char) :
    Stays sizeBehind (size text) (readValue depth text) := by
  induction depth using Nat.strongRecOn generalizing text with
  | ind depth ih =>
    rw [readValue.eq_def]
    dsimp only
    split
    case h_1 => simp
    case h_2 c rest behind =>
      refine Stays.mono ?_ (size_le_of_skipSpace behind)
      have within : size rest ≤ c.utf8Size + size rest := Nat.le_add_left _ _
      have word (letters : List Char) := (stays_readWord letters rest).mono within
      split
      · exact (stays_map _ _).mpr (word _)
      split
      · exact (stays_map _ _).mpr (word _)
      split
      · exact (stays_map _ _).mpr (word _)
      split
      · exact (stays_map _ _).mpr (stays_readNumber _)
      split
      · exact (stays_map _ _).mpr ((stays_readString _).mono within)
      split
      · split
        case h_1 => simp
        case h_2 depth =>
          have items := stays_readList (ih depth (Nat.lt_succ_self _)) rest
          exact (stays_map _ _).mpr (items.mono within)
      split
      · split
        case h_1 => simp
        case h_2 depth =>
          refine (stays_map _ _).mpr ((stays_readObject ?_ _ rest).mono within)
          intro members name rest
          have colon := stays_readColon rest
          split
          case h_1 fault failed => exact colon.fault_le failed
          case h_2 rest taken =>
            have value := ih depth (Nat.lt_succ_self _) rest
            exact (stays_map _ _).mpr (value.mono (colon.left_le taken))
      · simp

theorem left_unwanted_le (wanted : String) (text : List Char) :
    (unwanted wanted text).left ≤ size text := by
  unfold unwanted
  dsimp only
  split
  case h_1 => simp
  case h_2 c rest =>
    have within : size rest ≤ size (c :: rest) := Nat.le_add_left _ _
    have word (letters : List Char) := (stays_readWord letters rest).mono within
    have number := stays_readNumber (c :: rest)
    have string := (stays_readString rest).mono within
    repeat' split
    -- A word, a number or a string is read to its end, or refused before that.
    all_goals first
      | exact (word _).left_le ‹_›
      | exact (word _).fault_le ‹_›
      | exact number.left_le ‹_›
      | exact number.fault_le ‹_›
      | exact string.left_le ‹_›
      | exact string.fault_le ‹_›
      | simp

theorem stays_readText (text : List Char) : Stays sizeBehind (size text) (readText text) := by
  have within := size_skipSpace_le text
  unfold readText
  split
  case h_1 rest behind =>
    have string := stays_readString rest
    exact (stays_map _ _).mpr (string.mono (size_rest_le_of_skipSpace behind))
  case h_2 => exact Nat.le_trans (left_unwanted_le _ _) within

theorem stays_readTextOrNull (text : List Char) :
    Stays sizeBehind (size text) (readTextOrNull text) := by
  have within := size_skipSpace_le text
  unfold readTextOrNull
  split
  case h_1 rest behind =>
    have word := stays_readWord ['u', 'l', 'l'] rest
    exact (stays_map _ _).mpr (word.mono (size_rest_le_of_skipSpace behind))
  case h_2 => exact (stays_map _ _).mpr ((stays_readText _).mono within)

theorem stays_readArray {α : Type} {item : List Char → Outcome α}
    (each : ∀ text, Stays sizeBehind (size text) (item text)) (text : List Char) :
    Stays sizeBehind (size text) (readArray item text) := by
  have within := size_skipSpace_le text
  unfold readArray
  split
  case h_1 rest behind =>
    exact (stays_readList each rest).mono (size_rest_le_of_skipSpace behind)
  case h_2 => exact Nat.le_trans (left_unwanted_le _ _) within

theorem stays_closeList (text : List Char) : Stays size (size text) (closeList text) := by
  unfold closeList
  split
  case h_1 => simp
  case h_2 c rest behind =>
    refine Stays.mono ?_ (size_le_of_skipSpace behind)
    have within := size_skipSpace_le rest
    split
    · exact Nat.le_add_left _ _
    split
    · split
      case h_1 behindComma =>
        rw [behindComma] at within
        simp only [stays_error, left_behind]
        omega
      case h_2 =>
        simp only [stays_error, left_behind]
        omega
    · exact Nat.sub_le _ _

theorem size_listGivenUpAt_le (text : List Char) : size (listGivenUpAt text) ≤ size text := by
  unfold listGivenUpAt
  split
  case h_1 behind => exact size_rest_le_of_skipSpace behind
  case h_2 behind =>
    exact Nat.le_trans (size_skipSpace_le _) (size_rest_le_of_skipSpace behind)
  case h_3 => exact size_skipSpace_le text

theorem size_objectGivenUpAt_le (text : List Char) : size (objectGivenUpAt text) ≤ size text := by
  unfold objectGivenUpAt
  split
  case h_1 behind => exact size_rest_le_of_skipSpace behind
  case h_2 => exact size_skipSpace_le text

theorem stays_readEnd (text : List Char) : Stays (fun _ => 0) (size text) (readEnd text) := by
  have within := size_skipSpace_le text
  unfold readEnd
  split
  case h_1 => exact Nat.zero_le _
  case h_2 => exact Nat.le_trans (Nat.sub_le _ _) within

end Json

end ExerciseAudit
