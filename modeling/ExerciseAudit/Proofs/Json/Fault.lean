import ExerciseAudit.Proofs.Json.Reader
import ExerciseAudit.Proofs.Text.Utf8
import Mathlib.Data.List.DropRight

/-!
# The first fault and its place

A list is given up at the first item that its reader refuses, and an object at the first member. What was
read before is lost, what follows is not looked at, and the fault is that of the refused part. A fault
between two parts of a text is reported right behind the first (`Fault.position_before`), on a line that
the line feeds of the first part count (`Position.line_behind_encode`). A line and a column tell how many
bytes of the text come before a place (`Position.Marks`), and so do those of any fault inside the text.
-/

namespace ExerciseAudit

namespace Utf8

theorem encode_append (text more : List Char) :
    encode (text ++ more) = encode text ++ encode more :=
  List.flatMap_append

theorem length_encode (text : List Char) : (encode text).length = size text := by
  induction text with
  | nil => rfl
  | cons c rest ih =>
    rw [← List.singleton_append, encode_append, List.length_append, ih]
    simp [encode, size]

/-- Each byte of a character that is not plain is large. -/
theorem le_of_mem_utf8EncodeChar {c : Char} (other : ¬ Plain c) {byte : UInt8}
    (member : byte ∈ String.utf8EncodeChar c) : 0x80 ≤ byte.toNat := by
  have large : ¬ c.val.toNat ≤ 127 := fun small => other (Nat.lt_succ_of_le small)
  simp only [String.utf8EncodeChar, if_neg large] at member
  repeat' split at member
  all_goals
    simp only [List.mem_cons, List.not_mem_nil, or_false] at member
    rcases member with rfl | rfl | rfl | rfl <;> simp only [UInt8.toNat_ofNat'] <;> omega

end Utf8

namespace Json

open Utf8 (Plain)

/-! ## The first fault in a list -/

section Items

variable {α : Type} {item : List Char → Outcome α} {bound : Nat} {first : Bool} {fault : Fault}
  {text start later : List Char}

/-- A list's reader fails with its next item. -/
theorem readItems_of_refused (next : nextItem first text = .ok (.item start))
    (refused : item start = .error fault) :
    readItems item (bound + 1) first text = .error fault := by
  simp only [readItems, next, refused]

theorem readItems_of_taken {value : α} (next : nextItem first text = .ok (.item start))
    (taken : item start = .ok (value, later))
    (refused : readItems item bound false later = .error fault) :
    readItems item (bound + 1) first text = .error fault := by
  simp only [readItems, next, taken, refused]

/-- The text of items behind another, with the closing bracket and what follows it. -/
def itemsBehind (slots : List (Slot Writing)) (rest : List Char) : List Char :=
  slots.flatMap (fun slot => ',' :: slot.text) ++ ']' :: rest

/-- What stands behind an item: a comma, the next item between its blanks, and so on. -/
theorem itemsBehind_cons (slot : Slot Writing) (slots : List (Slot Writing)) (rest : List Char) :
    itemsBehind (slot :: slots) rest = ',' :: (spaces slot.before ++
      (slot.value.text ++ (spaces slot.after ++ itemsBehind slots rest))) := by
  simp [itemsBehind, Slot.text]

theorem stops_itemsBehind (blanks : List Blank) (slots : List (Slot Writing)) (rest : List Char) :
    Stops (spaces blanks ++ itemsBehind slots rest) :=
  stops_spaces blanks (stops_items slots rest)

/-- A reader takes the item of a slot. -/
def TakesItem (item : List Char → Outcome α) (slot : Slot Writing) : Prop :=
  ∃ value, Reads item slot.value.text (some value)

/-- An item that is taken is taken to its end. -/
theorem TakesItem.exists_eq_ok {slot : Slot Writing} (takes : TakesItem item slot)
    {rest : List Char} (stops : Stops rest) :
    ∃ value, item (slot.value.text ++ rest) = .ok (value, rest) := by
  obtain ⟨value, reads⟩ := takes
  exact ⟨value, eq_ok_of_toOption (reads [] stops)⟩

variable {accepted more : List (Slot Writing)} {entry : Slot Writing} {rest : List Char}

/-- A list is refused with the fault of its first item that is, whatever follows. -/
theorem readItems_eq_error (takes : ∀ slot ∈ accepted, TakesItem item slot)
    (refused : item (entry.value.text ++ (spaces entry.after ++ itemsBehind more rest)) =
      .error fault) (enough : accepted.length < bound) (blanks : List Blank) :
    readItems item bound false
      (spaces blanks ++ itemsBehind (accepted ++ entry :: more) rest) = .error fault := by
  induction accepted generalizing bound blanks with
  | nil =>
    obtain ⟨bound, rfl⟩ := Nat.exists_eq_add_of_lt enough
    rw [List.nil_append, itemsBehind_cons]
    exact readItems_of_refused (nextItem_comma entry.value blanks entry.before _) refused
  | cons slot accepted ih =>
    obtain ⟨here, others⟩ := List.forall_mem_cons.mp takes
    obtain ⟨bound, rfl⟩ := Nat.exists_eq_add_of_lt enough
    obtain ⟨value, taken⟩ := here.exists_eq_ok (stops_itemsBehind slot.after _ rest)
    have enoughLater : accepted.length < accepted.length + 1 + bound := by omega
    rw [List.cons_append, itemsBehind_cons]
    exact readItems_of_taken (nextItem_comma slot.value blanks slot.before _) taken
      (ih others enoughLater slot.after)

/-- A list is refused for the first item that is. -/
theorem readList_eq_error (takes : ∀ slot ∈ accepted, TakesItem item slot)
    (refused : item (entry.value.text ++ (spaces entry.after ++ itemsBehind more rest)) =
      .error fault) (blanks : List Blank) :
    readList item (spaces blanks ++
      (separated ((accepted ++ entry :: more).map Slot.text) ++ ']' :: rest)) = .error fault := by
  have split (slot : Slot Writing) (slots : List (Slot Writing)) :
      spaces blanks ++ (separated ((slot :: slots).map Slot.text) ++ ']' :: rest) =
        spaces (blanks ++ slot.before) ++
          (slot.value.text ++ (spaces slot.after ++ itemsBehind slots rest)) := by
    simp [separated, Slot.text, spaces, itemsBehind, List.flatMap_map]
  cases accepted with
  | nil =>
    rw [List.nil_append, split]
    exact readItems_of_refused (nextItem_first entry.value _ _) refused
  | cons slot accepted =>
    obtain ⟨here, others⟩ := List.forall_mem_cons.mp takes
    obtain ⟨value, taken⟩ := here.exists_eq_ok (stops_itemsBehind slot.after _ rest)
    rw [List.cons_append, split]
    refine readItems_of_taken (nextItem_first slot.value _ _) taken
      (readItems_eq_error others refused ?_ slot.after)
    have enough := length_le_length_flatMap Slot.text (accepted ++ entry :: more)
    simp only [itemsBehind, List.length_append, List.length_cons] at enough ⊢
    omega

/-- The same from the opening bracket on. -/
theorem readArray_eq_error (takes : ∀ slot ∈ accepted, TakesItem item slot)
    (refused : item (entry.value.text ++ (spaces entry.after ++ itemsBehind more rest)) =
      .error fault) (blanks opening : List Blank) :
    readArray item (spaces blanks ++
      ((Writing.array opening (accepted ++ entry :: more)).text ++ rest)) = .error fault := by
  have list := readList_eq_error takes refused opening
  unfold readArray
  rw [Writing.skipSpace_text, Writing.text_array, List.cons_append]
  simpa only [List.append_assoc, List.singleton_append] using list

end Items

/-! ## The first fault in an object -/

section Members

variable {σ : Type} {member : σ → String → List Char → Outcome σ}
  {step : σ → String → Writing → Option σ} {bound : Nat} {first : Bool} {fault : Fault}
  {name : String} {text start later : List Char} {gathered found : σ}

theorem readMembers_of_refused (next : nextKey first text = .ok (.key name start))
    (refused : member gathered name start = .error fault) :
    readMembers member (bound + 1) first gathered text = .error fault := by
  simp only [readMembers, next, refused]

theorem readMembers_of_taken (next : nextKey first text = .ok (.key name start))
    (taken : member gathered name start = .ok (found, later))
    (refused : readMembers member bound false found later = .error fault) :
    readMembers member (bound + 1) first gathered text = .error fault := by
  simp only [readMembers, next, taken, refused]

/-- The text of members behind another, with the closing bracket and what follows it. -/
def membersBehind (members : List (Member Writing)) (rest : List Char) : List Char :=
  members.flatMap (fun written => ',' :: written.text) ++ '\x7d' :: rest

/-- The text of a member behind its name, up to its value. -/
def Member.behindName (written : Member Writing) (rest : List Char) : List Char :=
  spaces written.gap ++ ':' :: (spaces written.ahead ++ (written.value.text ++ rest))

theorem membersBehind_cons (written : Member Writing) (members : List (Member Writing))
    (rest : List Char) : membersBehind (written :: members) rest =
      ',' :: (spaces written.before ++ '"' :: (quoted written.name ++
        written.behindName (spaces written.after ++ membersBehind members rest))) := by
  simp [membersBehind, Member.text, Member.behindName]

theorem stops_membersBehind (blanks : List Blank) (members : List (Member Writing))
    (rest : List Char) : Stops (spaces blanks ++ membersBehind members rest) :=
  stops_spaces blanks (stops_members members rest)

/-- A quoted name is read as the name that it spells. -/
theorem readKey_quoted {glyphs : List Glyph} (named : string? glyphs = some name)
    (rest : List Char) : readKey ('"' :: (quoted glyphs ++ rest)) = .ok (.key name rest) :=
  eq_ok_of_toOption (by rw [toOption_readKey, named]; rfl)

variable {earlier others : List (Member Writing)} {written : Member Writing} {rest : List Char}

/-- Where members are added one after another, the first of them is taken behind its name. -/
theorem exists_taken_of_foldlM (reads : ReadsMember member step written)
    (folded : (written :: earlier).foldlM (addMember step) gathered = some found) :
    ∃ name next, string? written.name = some name ∧
      (∀ {rest}, Stops rest → member gathered name (written.behindName rest) = .ok (next, rest)) ∧
      earlier.foldlM (addMember step) next = some found := by
  rw [List.foldlM_cons] at folded
  obtain ⟨next, added, folded⟩ := Option.bind_eq_some_iff.mp folded
  obtain ⟨name, spelled, stepped⟩ := Option.bind_eq_some_iff.mp added
  refine ⟨name, next, spelled, fun stops => eq_ok_of_toOption ?_, folded⟩
  exact (reads gathered name stops).trans (congrArg _ stepped)

/-- An object is refused with the fault of its first member that is, whatever follows. -/
theorem readMembers_eq_error (reads : ∀ written ∈ earlier, ReadsMember member step written)
    (folded : earlier.foldlM (addMember step) gathered = some found)
    (named : string? written.name = some name)
    (refused : member found name
      (written.behindName (spaces written.after ++ membersBehind others rest)) = .error fault)
    (enough : earlier.length < bound) (blanks : List Blank) :
    readMembers member bound false gathered
      (spaces blanks ++ membersBehind (earlier ++ written :: others) rest) = .error fault := by
  induction earlier generalizing bound blanks gathered with
  | nil =>
    obtain ⟨bound, rfl⟩ := Nat.exists_eq_add_of_lt enough
    obtain rfl : gathered = found := Option.some.inj folded
    rw [List.nil_append, membersBehind_cons]
    refine readMembers_of_refused ?_ refused
    rw [nextKey_comma, readKey_quoted named]
  | cons one earlier ih =>
    obtain ⟨here, readsLater⟩ := List.forall_mem_cons.mp reads
    obtain ⟨bound, rfl⟩ := Nat.exists_eq_add_of_lt enough
    obtain ⟨label, next, spelled, taken, folded⟩ := exists_taken_of_foldlM here folded
    have enoughLater : earlier.length < earlier.length + 1 + bound := by omega
    rw [List.cons_append, membersBehind_cons]
    refine readMembers_of_taken ?_ (taken (stops_membersBehind one.after _ rest))
      (ih readsLater folded enoughLater one.after)
    rw [nextKey_comma, readKey_quoted spelled]

/-- An object is refused for the first member that is. -/
theorem readObject_eq_error (reads : ∀ written ∈ earlier, ReadsMember member step written)
    (folded : earlier.foldlM (addMember step) gathered = some found)
    (named : string? written.name = some name)
    (refused : member found name
      (written.behindName (spaces written.after ++ membersBehind others rest)) = .error fault)
    (blanks : List Blank) :
    readObject member gathered (spaces blanks ++
      (separated ((earlier ++ written :: others).map Member.text) ++ '\x7d' :: rest)) =
        .error fault := by
  have split (one : Member Writing) (members : List (Member Writing)) :
      spaces blanks ++ (separated ((one :: members).map Member.text) ++ '\x7d' :: rest) =
        spaces (blanks ++ one.before) ++ '"' :: (quoted one.name ++
          one.behindName (spaces one.after ++ membersBehind members rest)) := by
    simp [separated, Member.text, Member.behindName, spaces, membersBehind, List.flatMap_map]
  cases earlier with
  | nil =>
    obtain rfl : gathered = found := Option.some.inj folded
    rw [List.nil_append, split]
    refine readMembers_of_refused ?_ refused
    rw [nextKey_first, readKey_quoted named]
  | cons one earlier =>
    obtain ⟨here, readsLater⟩ := List.forall_mem_cons.mp reads
    obtain ⟨label, next, spelled, taken, folded⟩ := exists_taken_of_foldlM here folded
    rw [List.cons_append, split]
    refine readMembers_of_taken ?_ (taken (stops_membersBehind one.after _ rest))
      (readMembers_eq_error readsLater folded named refused ?_ one.after)
    · rw [nextKey_first, readKey_quoted spelled]
    · have enough := length_le_length_flatMap Member.text (earlier ++ written :: others)
      simp only [membersBehind, Member.behindName, List.length_append, List.length_cons] at enough ⊢
      omega

end Members

/-! ## The place of a fault -/

/-- A fault between two parts of a text is placed behind the first. -/
theorem Fault.position_before (cause : Cause) (front rest : List Char) :
    (Fault.before cause rest).position (front ++ rest) = .behind (Utf8.encode front) := by
  have whole :
      (Utf8.encode (front ++ rest)).length - Utf8.size rest = (Utf8.encode front).length := by
    rw [Utf8.encode_append, List.length_append, Utf8.length_encode rest, Nat.add_sub_cancel]
  simp only [position, before, whole]
  rw [Utf8.encode_append, List.take_left]

/-- A text's bytes have as many line feeds as the text. -/
theorem count_lineFeed_encode (text : List Char) :
    (Utf8.encode text).count lineFeed = text.count '\n' := by
  induction text with
  | nil => rfl
  | cons c rest ih =>
    by_cases plain : Plain c
    · rw [Utf8.encode_plain plain, List.count_cons, List.count_cons, ih]
      have same : UInt8.ofNat c.toNat = lineFeed ↔ c = '\n' := by
        rw [← UInt8.toNat_inj, ← Char.toNat_inj, UInt8.toNat_ofNat']
        have small : c.toNat < 0x80 := plain
        have ten : lineFeed.toNat = '\n'.toNat := rfl
        omega
      simp [same]
    · have apart : lineFeed ∉ String.utf8EncodeChar c := fun inside =>
        absurd (Utf8.le_of_mem_utf8EncodeChar plain inside) (by decide)
      have other : c ≠ '\n' := by
        rintro rfl
        exact plain (by decide)
      rw [← List.singleton_append, Utf8.encode_append, List.count_append, ih, List.count_append]
      simp [Utf8.encode, List.count_eq_zero_of_not_mem apart, other]

/-- The line behind some text is one more than its line feeds. -/
theorem Position.line_behind_encode (text : List Char) :
    (Position.behind (Utf8.encode text)).line = text.count '\n' + 1 := by
  rw [behind, count_lineFeed_encode]

/-- A position marks an offset in some bytes: its line counts the line feeds in front of the offset,
and its column the bytes between the last of them, or the start, and the offset. -/
structure Position.Marks (position : Position) (bytes : List UInt8) (offset : Nat) : Prop where
  inside : offset ≤ bytes.length
  line : position.line = 1 + (bytes.take offset).count lineFeed
  column : ∃ earlier current, bytes.take offset = earlier ++ current ∧
    (∀ started : earlier ≠ [], earlier.getLast started = lineFeed) ∧ lineFeed ∉ current ∧
    position.column = current.length

/-- The position behind the first bytes of a text marks where they end. -/
theorem Position.marks_behind {bytes : List UInt8} {offset : Nat} (inside : offset ≤ bytes.length) :
    (behind (bytes.take offset)).Marks bytes offset where
  inside := inside
  line := Nat.add_comm _ _
  column := by
    refine ⟨(bytes.take offset).rdropWhile (· ≠ lineFeed),
      (bytes.take offset).rtakeWhile (· ≠ lineFeed), ?_, fun started => ?_, fun member => ?_, ?_⟩
    · exact List.rdropWhile_append_rtakeWhile.symm
    · simpa using List.rdropWhile_last_not _ _ started
    · simpa using List.mem_rtakeWhile_imp member
    · rw [behind, List.rtakeWhile, List.length_reverse]

/-- A fault with no more bytes behind it than a text has is placed inside the text. -/
theorem Fault.exists_marks_position {fault : Fault} {text : List Char}
    (within : fault.left ≤ Utf8.size text) :
    ∃ offset, offset + fault.left = (Utf8.encode text).length ∧
      (fault.position text).Marks (Utf8.encode text) offset := by
  rw [← Utf8.length_encode] at within
  exact ⟨_, Nat.sub_add_cancel within, Position.marks_behind (Nat.sub_le _ _)⟩

end Json

end ExerciseAudit
