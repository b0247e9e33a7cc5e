import ExerciseAudit.Manifest.Decode
import ExerciseAudit.Proofs.Json.Grammar

/-!
# Every manifest is written

What a reader of manifests accepts is a writing, of its records as of their lists: wherever it reads
a value or passes over one, there is one. So a text that can be decoded is a value between blanks
(`Manifest.exists_writing_of_ofText`), and what is shown of texts that are spelled holds for all
that can be decoded.
-/

namespace ExerciseAudit

open Json

section Records

variable {text left rest : List Char}

theorem takesField_of_skipMember (taken : skipMember text = .ok rest) : TakesField text rest := by
  unfold skipMember at taken
  split at taken
  case h_1 => cases taken
  case h_2 behind colon =>
    obtain ⟨gap, split⟩ := exists_of_readColon colon
    exact ⟨gap, behind, split, takes_of_skipValue taken⟩

variable {α : Type} {read : List Char → Outcome α}
  (takes : ∀ {text rest : List Char} {value : α}, read text = .ok (value, rest) → Takes text rest)
include takes

theorem takesField_of_readOnce {field : String} {before : Option α} {value : α}
    (taken : readOnce field before read text = .ok (value, rest)) : TakesField text rest := by
  unfold readOnce at taken
  split at taken
  case isTrue => cases taken
  case isFalse =>
    split at taken
    case h_1 => cases taken
    case h_2 behind colon =>
      obtain ⟨gap, split⟩ := exists_of_readColon colon
      exact ⟨gap, behind, split, takes taken⟩

/-- The first place of a record written as a list is the front of the text. -/
theorem exists_front_of_readItemOrEnd_first {value : α}
    (taken : readItemOrEnd true read text = .ok (some value, left)) :
    ∃ blanks front, Front Slot.text front ∧ text = spaces blanks ++ (front ++ left) := by
  unfold readItemOrEnd at taken
  split at taken
  case h_1 => cases taken
  case h_2 => cases taken
  case h_3 start next =>
    obtain ⟨value, taken⟩ := exists_read_of_map taken fun _ => rfl
    obtain ⟨blanks, rfl⟩ := exists_of_nextItem_first next
    obtain ⟨front, starts, rfl⟩ := exists_front_of_takes (takes taken)
    exact ⟨blanks, front, starts, rfl⟩

/-- Behind an item, a list may be read on by one item or end. -/
theorem onward_of_readItemOrEnd {found : Option α}
    (taken : readItemOrEnd false read text = .ok (found, left))
    (onward : Onward Slot.text ']' left rest) : Onward Slot.text ']' text rest := by
  unfold readItemOrEnd at taken
  split at taken
  case h_1 => cases taken
  case h_2 => cases taken; exact onward
  case h_3 start next =>
    obtain ⟨value, taken⟩ := exists_read_of_map taken fun _ => rfl
    obtain ⟨blanks, before, rfl⟩ := exists_of_nextItem_comma next
    obtain ⟨front, starts, split⟩ := exists_front_of_takes (takes_spaces before (takes taken))
    rw [split]
    exact onward_comma blanks starts onward

end Records

theorem eq_of_readItemOrEnd_none {α : Type} {read : List Char → Outcome α} {first : Bool}
    {text left : List Char} (taken : readItemOrEnd first read text = .ok (none, left)) :
    left = text := by
  unfold readItemOrEnd at taken
  split at taken
  case h_1 => cases taken
  case h_2 => cases taken; rfl
  case h_3 start next => cases given : read start <;> simp [given, Except.map] at taken

theorem exists_of_closeList {text rest : List Char} (taken : closeList text = .ok rest) :
    ∃ blanks, text = spaces blanks ++ ']' :: rest := by
  obtain ⟨blanks, split⟩ := exists_spaces text
  unfold closeList at taken
  split at taken
  case h_1 => cases taken
  case h_2 c later start =>
    split at taken
    case isTrue closing => cases taken; exact ⟨blanks, by rw [split, start, closing]⟩
    case isFalse =>
      repeat' split at taken
      all_goals cases taken

variable {text rest : List Char}

theorem takes_of_readTexts {texts : List String} (taken : readTexts text = .ok (texts, rest)) :
    Takes text rest :=
  takes_of_readArray takes_of_readText taken

/-- What is read as an entry is a value of the grammar. -/
theorem DocRef.takes_of_read {entry : DocRef} (taken : DocRef.read text = .ok (entry, rest)) :
    Takes text rest := by
  unfold DocRef.read at taken
  split at taken
  case h_1 => cases taken
  case h_2 value left read =>
    split at taken
    case h_1 => cases taken; exact takes_of_readValue read
    case h_2 => cases taken

namespace OutputSpec

theorem takesField_of_readMember {members next : Draft} {name : String}
    (taken : readMember members name text = .ok (next, rest)) : TakesField text rest := by
  unfold readMember at taken
  split at taken
  case isTrue =>
    obtain ⟨fixture, read⟩ := exists_read_of_map taken fun _ => rfl
    exact takesField_of_readOnce takes_of_readTextOrNull read
  split at taken
  case isTrue =>
    obtain ⟨sections, read⟩ := exists_read_of_map taken fun _ => rfl
    exact takesField_of_readOnce takes_of_readTexts read
  case isFalse => exact takesField_of_skipMember (exists_word_of_map taken)

theorem inside_of_readPositional {output : OutputSpec}
    (taken : readPositional text = .ok (output, rest)) : Inside Slot.text ']' text rest := by
  obtain ⟨⟨fixture, behindFixture⟩, first, later⟩ := exists_of_bind taken
  cases fixture with
  | none =>
    obtain ⟨_, nothing, last⟩ := exists_of_bind later
    cases nothing
    obtain ⟨left, closed, given⟩ := exists_of_bind last
    cases given
    obtain rfl := eq_of_readItemOrEnd_none first
    obtain ⟨blanks, rfl⟩ := exists_of_closeList closed
    exact inside_close blanks
  | some fixture =>
    obtain ⟨⟨sections, behindSections⟩, second, last⟩ := exists_of_bind later
    obtain ⟨left, closed, given⟩ := exists_of_bind last
    cases given
    obtain ⟨opening, front, starts, rfl⟩ :=
      exists_front_of_readItemOrEnd_first takes_of_readTextOrNull first
    obtain ⟨blanks, rfl⟩ := exists_of_closeList closed
    exact inside_first opening starts
      (onward_of_readItemOrEnd takes_of_readTexts second (onward_close blanks))

theorem takes_of_read {output : OutputSpec} (taken : OutputSpec.read text = .ok (output, rest)) :
    Takes text rest := by
  apply takes_of_skipSpace
  unfold OutputSpec.read at taken
  split at taken
  case h_1 later start => exact start ▸ takes_array (inside_of_readPositional taken)
  case h_2 later start =>
    obtain ⟨members, read⟩ := exists_read_of_map taken fun _ => rfl
    exact start ▸ takes_object (inside_of_readObject takesField_of_readMember read)
  case h_3 => cases taken

end OutputSpec

namespace Manifest

theorem takes_of_readDocs {docs : List DocRef}
    (taken : readArray DocRef.read text = .ok (docs, rest)) : Takes text rest :=
  takes_of_readArray DocRef.takes_of_read taken

theorem takes_of_readOutputs {outputs : List OutputSpec}
    (taken : readArray OutputSpec.read text = .ok (outputs, rest)) : Takes text rest :=
  takes_of_readArray OutputSpec.takes_of_read taken

theorem takesField_of_readMember {members next : Draft} {name : String}
    (taken : readMember members name text = .ok (next, rest)) : TakesField text rest := by
  unfold readMember at taken
  split at taken
  case isTrue =>
    obtain ⟨docs, read⟩ := exists_read_of_map taken fun _ => rfl
    exact takesField_of_readOnce takes_of_readDocs read
  split at taken
  case isTrue =>
    obtain ⟨references, read⟩ := exists_read_of_map taken fun _ => rfl
    exact takesField_of_readOnce takes_of_readTexts read
  split at taken
  case isTrue =>
    obtain ⟨outputs, read⟩ := exists_read_of_map taken fun _ => rfl
    exact takesField_of_readOnce takes_of_readOutputs read
  case isFalse => exact takesField_of_skipMember (exists_word_of_map taken)

theorem inside_of_readPositional {manifest : Manifest}
    (taken : readPositional text = .ok (manifest, rest)) : Inside Slot.text ']' text rest := by
  obtain ⟨⟨docs, behindDocs⟩, first, later⟩ := exists_of_bind taken
  cases docs with
  | none =>
    obtain ⟨_, nothing, last⟩ := exists_of_bind later
    cases nothing
    obtain ⟨_, nothing, closing⟩ := exists_of_bind last
    cases nothing
    obtain ⟨left, closed, given⟩ := exists_of_bind closing
    cases given
    obtain rfl := eq_of_readItemOrEnd_none first
    obtain ⟨blanks, rfl⟩ := exists_of_closeList closed
    exact inside_close blanks
  | some docs =>
    obtain ⟨⟨references, behindReferences⟩, second, last⟩ := exists_of_bind later
    obtain ⟨opening, front, starts, rfl⟩ :=
      exists_front_of_readItemOrEnd_first takes_of_readDocs first
    refine inside_first opening starts (onward_of_readItemOrEnd takes_of_readTexts second ?_)
    cases references with
    | none =>
      obtain ⟨_, nothing, closing⟩ := exists_of_bind last
      cases nothing
      obtain ⟨left, closed, given⟩ := exists_of_bind closing
      cases given
      obtain ⟨blanks, rfl⟩ := exists_of_closeList closed
      exact onward_close blanks
    | some references =>
      obtain ⟨⟨outputs, behindOutputs⟩, third, closing⟩ := exists_of_bind last
      obtain ⟨left, closed, given⟩ := exists_of_bind closing
      cases given
      obtain ⟨blanks, rfl⟩ := exists_of_closeList closed
      exact onward_of_readItemOrEnd takes_of_readOutputs third (onward_close blanks)

theorem takes_of_read {manifest : Manifest} (taken : Manifest.read text = .ok (manifest, rest)) :
    Takes text rest := by
  apply takes_of_skipSpace
  unfold Manifest.read at taken
  split at taken
  case h_1 later start => exact start ▸ takes_array (inside_of_readPositional taken)
  case h_2 later start =>
    obtain ⟨members, read⟩ := exists_read_of_map taken fun _ => rfl
    exact start ▸ takes_object (inside_of_readObject takesField_of_readMember read)
  case h_3 => cases taken

/-- **Every manifest is written.** A text that can be decoded is a value between blanks. -/
theorem exists_writing_of_ofText {text : String} {manifest : Manifest}
    (decoded : ofText text = .ok manifest) :
    ∃ (before : List Blank) (writing : Writing) (after : List Blank),
      text.toList = spaces before ++ (writing.text ++ spaces after) := by
  unfold ofText at decoded
  split at decoded
  case h_2 => cases decoded
  case h_1 given =>
    obtain ⟨⟨_, rest⟩, taken, ended⟩ := exists_of_bind given
    obtain ⟨_, finished, _⟩ := exists_of_bind ended
    obtain ⟨before, writing, split⟩ := takes_of_read taken
    obtain ⟨after, left⟩ := exists_spaces rest
    unfold readEnd at finished
    split at finished
    case h_1 nothing =>
      rw [nothing, List.append_nil] at left
      exact ⟨before, writing, after, by rw [split, left]⟩
    case h_2 => cases finished

end Manifest

end ExerciseAudit
