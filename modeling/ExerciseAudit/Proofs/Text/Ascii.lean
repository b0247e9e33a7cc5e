import ExerciseAudit.Discovery
import Mathlib.Data.List.Basic
import Mathlib.Tactic.Ring

/-!
# Plain characters in bytes

The characters below U+0080 are one byte each, and such a byte is never part of anything else:
however broken the bytes around it are, reading them as text keeps it. So bytes that are read as
text, with U+FFFD for broken stretches, end in some plain text exactly if they end in the bytes of
that text.
-/

namespace ExerciseAudit

theorem toNat_ofNat_of_isValidChar {n : Nat} (valid : n.isValidChar) :
    (Char.ofNat n).toNat = n := by
  rw [Char.ofNat, dif_pos valid]
  rfl

namespace Utf8

/-- A character that is one byte. -/
def Plain (c : Char) : Prop :=
  c.toNat < 0x80

instance (c : Char) : Decidable (Plain c) := by
  unfold Plain; infer_instance

/-- A text of plain characters can be told by testing each of them. -/
theorem plain_of_all {text : List Char} (all : text.all (fun c => decide (Plain c)) = true) :
    ∀ c ∈ text, Plain c :=
  fun c member => of_decide_eq_true (List.all_eq_true.mp all c member)

theorem encode_plain {c : Char} (plain : Plain c) (rest : List Char) :
    encode (c :: rest) = UInt8.ofNat c.toNat :: encode rest := by
  have single : c.utf8Size = 1 :=
    Char.utf8Size_eq_one_iff.mpr (UInt32.le_iff_toNat_le.mpr (Nat.le_of_lt_succ plain))
  simp only [encode, List.flatMap_cons, String.utf8EncodeChar_eq_singleton single]
  rfl

/-- Plain characters are encoded in bytes of their own, below all others. -/
theorem lt_of_mem_encode {text : List Char} (plain : ∀ c ∈ text, Plain c) {byte : UInt8}
    (member : byte ∈ encode text) : byte.toNat < 0x80 := by
  induction text with
  | nil => exact absurd member List.not_mem_nil
  | cons c rest ih =>
    obtain ⟨here, later⟩ := List.forall_mem_cons.mp plain
    rw [encode_plain here] at member
    rcases List.mem_cons.mp member with rfl | behind
    · have small : c.toNat < 2 ^ 8 := Nat.lt_trans here (by decide)
      rw [UInt8.toNat_ofNat_of_lt' small]
      exact here
    · exact ih later behind

/-! ## Characters of several bytes -/

namespace Begun

/-- The least number of a character that starts with the bytes so far. -/
def least (begun : Begun) : Nat :=
  (begun.code * 64 + (begun.low.toNat - 0x80)) * 64 ^ begun.more

/-- All characters that start with the bytes so far have lesser numbers than this. -/
def bound (begun : Begun) : Nat :=
  (begun.code * 64 + (begun.high.toNat - 0x80) + 1) * 64 ^ begun.more

/-- Whatever comes next, a begun character becomes one that is not plain. -/
structure Sound (begun : Begun) : Prop where
  follows : 0x80 ≤ begun.low.toNat
  long : 0x80 ≤ begun.least
  valid : begun.bound ≤ 0xD800 ∨ 0xDFFF < begun.least ∧ begun.bound ≤ 0x110000

/-- A byte that begins a sequence begins one of a character that is not plain. -/
theorem sound_of_begin? {first : UInt8} {begun : Begun} (begins : begin? first = some begun) :
    begun.Sound := by
  unfold begin? at begins
  simp only [UInt8.le_iff_toNat_le, ← UInt8.toNat_inj, UInt8.reduceToNat] at begins
  repeat' split at begins
  case isFalse => cases begins
  all_goals
    obtain rfl := Option.some.inj begins
    constructor <;>
      simp only [least, bound, UInt8.reduceToNat, Nat.reducePow, Nat.reduceSub] <;> omega

theorem push_mem {begun : Begun} {byte : UInt8} (low : begun.low ≤ byte)
    (high : byte ≤ begun.high) :
    begun.code * 64 + (begun.low.toNat - 0x80) ≤ begun.push byte ∧
      begun.push byte + 1 ≤ begun.code * 64 + (begun.high.toNat - 0x80) + 1 := by
  rw [UInt8.le_iff_toNat_le] at low high
  unfold Begun.push
  omega

theorem Sound.push {begun : Begun} (sound : begun.Sound) {byte : UInt8} (low : begun.low ≤ byte)
    (high : byte ≤ begun.high) {more : Nat} (unfinished : begun.more = more + 1) :
    (⟨begun.push byte, more, 0x80, 0xBF⟩ : Begun).Sound := by
  obtain ⟨follows, long, valid⟩ := sound
  obtain ⟨step, top⟩ := push_mem low high
  have above : begun.least ≤ begun.push byte * 64 * 64 ^ more := by
    rw [least, unfinished, pow_succ', ← mul_assoc]
    exact Nat.mul_le_mul_right _ (Nat.mul_le_mul_right _ step)
  have below : (begun.push byte + 1) * 64 * 64 ^ more ≤ begun.bound := by
    rw [bound, unfinished, pow_succ', ← mul_assoc]
    exact Nat.mul_le_mul_right _ (Nat.mul_le_mul_right _ top)
  have leastNext : (⟨begun.push byte, more, 0x80, 0xBF⟩ : Begun).least =
      begun.push byte * 64 * 64 ^ more := by
    simp [least]
  have boundNext : (⟨begun.push byte, more, 0x80, 0xBF⟩ : Begun).bound =
      (begun.push byte + 1) * 64 * 64 ^ more := by
    have last : (0xBF : UInt8).toNat - 0x80 = 63 := by decide
    simp only [bound, last]
    ring
  refine ⟨by simp, leastNext ▸ le_trans long above, ?_⟩
  rw [leastNext, boundNext]
  exact valid.imp below.trans fun ⟨high, top⟩ => ⟨lt_of_lt_of_le high above, below.trans top⟩

theorem Sound.last {begun : Begun} (sound : begun.Sound) {byte : UInt8} (low : begun.low ≤ byte)
    (high : byte ≤ begun.high) (closed : begun.more = 0) :
    ¬ Plain (Char.ofNat (begun.push byte)) := by
  obtain ⟨follows, long, valid⟩ := sound
  obtain ⟨step, top⟩ := push_mem low high
  have leastHere : begun.least = begun.code * 64 + (begun.low.toNat - 0x80) := by
    simp only [least, closed, pow_zero, mul_one]
  have boundHere : begun.bound = begun.code * 64 + (begun.high.toNat - 0x80) + 1 := by
    simp only [bound, closed, pow_zero, mul_one]
  have above : begun.least ≤ begun.push byte := le_of_eq_of_le leastHere step
  have below : begun.push byte < begun.bound := lt_of_lt_of_eq top boundHere.symm
  have character : (begun.push byte).isValidChar :=
    valid.imp below.trans_le fun ⟨high, top⟩ => ⟨lt_of_lt_of_le high above, below.trans_le top⟩
  rw [Plain, toNat_ofNat_of_isValidChar character]
  exact not_lt.mpr (le_trans long above)

end Begun

/-! ## The end of a text -/

/-- The text of bytes behind a character that has perhaps begun, with broken stretches replaced. -/
def lossyFrom (begun : Option Begun) (bytes : List UInt8) : List Char :=
  (piecesFrom begun bytes).map (·.getD '\uFFFD')

theorem not_plain_replacement : ¬ Plain '\uFFFD' := by
  simp [Plain, Char.toNat]

/-- Whatever follows the beginning of a sequence, what is shown next is not plain. -/
theorem exists_lossyFrom_eq_cons {begun : Begun} (sound : begun.Sound) (bytes : List UInt8) :
    ∃ c rest, lossyFrom (some begun) bytes = c :: rest ∧ ¬ Plain c := by
  induction bytes generalizing begun with
  | nil => exact ⟨_, [], rfl, not_plain_replacement⟩
  | cons byte rest ih =>
    simp only [lossyFrom, piecesFrom]
    by_cases within : begun.low ≤ byte ∧ byte ≤ begun.high
    · rw [if_pos within]
      split
      case h_1 closed =>
        rw [List.map_cons, Option.getD_some]
        exact ⟨_, _, rfl, sound.last within.1 within.2 closed⟩
      case h_2 more unfinished => exact ih (sound.push within.1 within.2 unfinished)
    · rw [if_neg within]
      repeat' split
      all_goals exact ⟨_, _, rfl, not_plain_replacement⟩

variable {text : List Char}

/-- Only the encoding of a plain text is shown as that text. -/
theorem eq_encode_of_lossyFrom_eq (plain : ∀ c ∈ text, Plain c) {bytes : List UInt8}
    (same : lossyFrom none bytes = text) : bytes = encode text := by
  induction bytes generalizing text with
  | nil =>
    subst same
    rfl
  | cons byte rest ih =>
    simp only [lossyFrom, piecesFrom] at same
    by_cases small : byte < 0x80
    · rw [if_pos small] at same
      subst same
      obtain ⟨here, later⟩ := List.forall_mem_cons.mp plain
      have valid : byte.toNat.isValidChar :=
        .inl (Nat.lt_trans (UInt8.lt_iff_toNat_lt.mp small) (by decide))
      rw [List.map_cons, encode_plain here]
      simp only [Option.getD_some, toNat_ofNat_of_isValidChar valid, UInt8.ofNat_toNat]
      exact congrArg _ (ih later rfl)
    · rw [if_neg small] at same
      split at same
      case h_1 begun begins =>
        obtain ⟨c, others, start, other⟩ :=
          exists_lossyFrom_eq_cons (Begun.sound_of_begin? begins) rest
        have whole : text = c :: others := same.symm.trans start
        exact absurd (plain c (whole ▸ List.mem_cons_self)) other
      case h_2 =>
        exact absurd (plain _ (by simp [← same])) not_plain_replacement

/-- Plain text in front of some bytes is kept as it is. -/
theorem lossyFrom_encode_append (plain : ∀ c ∈ text, Plain c) (bytes : List UInt8) :
    lossyFrom none (encode text ++ bytes) = text ++ lossyFrom none bytes := by
  induction text with
  | nil => rfl
  | cons c rest ih =>
    obtain ⟨here, later⟩ := List.forall_mem_cons.mp plain
    have small : c.toNat < 2 ^ 8 := Nat.lt_trans here (by decide)
    have byte : (UInt8.ofNat c.toNat).toNat = c.toNat := UInt8.toNat_ofNat_of_lt' small
    have isSmall : UInt8.ofNat c.toNat < 0x80 :=
      UInt8.lt_iff_toNat_lt.mpr (by rw [byte]; exact here)
    rw [encode_plain here, List.cons_append, lossyFrom, piecesFrom, if_pos isSmall, List.map_cons,
      byte]
    exact congrArg₂ _ (Char.ofNat_toNat c) (ih later)

/-- A plain text's encoding is shown as the text. -/
theorem lossyFrom_encode (plain : ∀ c ∈ text, Plain c) : lossyFrom none (encode text) = text := by
  have vacant : lossyFrom none [] = [] := rfl
  simpa [vacant] using lossyFrom_encode_append plain []

/-- A plain ending does not reach back over what is not plain. -/
theorem suffix_cons_iff_of_not_plain (plain : ∀ c ∈ text, Plain c) {c : Char} (other : ¬ Plain c)
    (rest : List Char) : text <:+ c :: rest ↔ text <:+ rest := by
  rw [List.suffix_cons_iff, or_iff_right]
  rintro rfl
  exact other (plain c List.mem_cons_self)

/-- Nor does its encoding reach back over a byte of what is not plain. -/
theorem encode_suffix_cons_iff (plain : ∀ c ∈ text, Plain c) {byte : UInt8}
    (other : 0x80 ≤ byte.toNat) (rest : List UInt8) :
    encode text <:+ byte :: rest ↔ encode text <:+ rest := by
  rw [List.suffix_cons_iff, or_iff_right]
  intro same
  have small := lt_of_mem_encode plain (same ▸ List.mem_cons_self : byte ∈ encode text)
  omega

theorem suffix_plain_cons_iff (plain : ∀ c ∈ text, Plain c) {byte : UInt8} (small : byte < 0x80)
    {rest : List UInt8} (behind : text <:+ lossyFrom none rest ↔ encode text <:+ rest) :
    text <:+ Char.ofNat byte.toNat :: lossyFrom none rest ↔ encode text <:+ byte :: rest := by
  have read : lossyFrom none (byte :: rest) = Char.ofNat byte.toNat :: lossyFrom none rest := by
    simp [lossyFrom, piecesFrom, small]
  rw [List.suffix_cons_iff, List.suffix_cons_iff, behind, ← read]
  refine or_congr_left
    ⟨fun same => (eq_encode_of_lossyFrom_eq plain same.symm).symm, fun same => ?_⟩
  rw [← same, lossyFrom_encode plain]

/-- A text of plain characters ends what is read of some bytes exactly if its bytes end them. -/
theorem suffix_lossyFrom_iff (plain : ∀ c ∈ text, Plain c) {begun : Option Begun}
    (sound : ∀ part ∈ begun, part.Sound) (bytes : List UInt8) :
    text <:+ lossyFrom begun bytes ↔ encode text <:+ bytes := by
  induction bytes generalizing begun with
  | nil =>
    have vacant : encode text <:+ [] ↔ text <:+ [] := by
      cases text with
      | nil => simp [encode]
      | cons c rest => simp [encode_plain (plain c List.mem_cons_self)]
    cases begun with
    | none => exact vacant.symm
    | some part =>
      exact (suffix_cons_iff_of_not_plain plain not_plain_replacement []).trans vacant.symm
  | cons byte rest ih =>
    have between : text <:+ lossyFrom none rest ↔ encode text <:+ rest := ih (by simp)
    have large (big : ¬ byte < 0x80) : 0x80 ≤ byte.toNat :=
      UInt8.le_iff_toNat_le.mp (UInt8.not_lt.mp big)
    have inside (part : Begun) (sound : part.Sound) :
        text <:+ lossyFrom (some part) rest ↔ encode text <:+ rest := ih (by simpa using sound)
    have skip := suffix_cons_iff_of_not_plain plain not_plain_replacement
    cases begun with
    | none =>
      by_cases small : byte < 0x80
      · simp only [lossyFrom, piecesFrom, if_pos small]
        exact suffix_plain_cons_iff plain small between
      · rw [encode_suffix_cons_iff plain (large small)]
        simp only [lossyFrom, piecesFrom, if_neg small]
        split
        case h_1 part begins => exact inside part (Begun.sound_of_begin? begins)
        case h_2 => exact (skip _).trans between
    | some begun =>
      have sound := sound begun rfl
      simp only [lossyFrom, piecesFrom]
      by_cases within : begun.low ≤ byte ∧ byte ≤ begun.high
      · have big : 0x80 ≤ byte.toNat :=
          le_trans sound.follows (UInt8.le_iff_toNat_le.mp within.1)
        rw [if_pos within, encode_suffix_cons_iff plain big]
        split
        case h_1 closed =>
          have other := sound.last within.1 within.2 closed
          rw [List.map_cons, Option.getD_some]
          exact (suffix_cons_iff_of_not_plain plain other _).trans between
        case h_2 more unfinished =>
          exact inside _ (sound.push within.1 within.2 unfinished)
      · -- a byte that cannot go on with the sequence breaks it off, and is looked at once more
        rw [if_neg within]
        by_cases small : byte < 0x80
        · rw [if_pos small]
          exact (skip _).trans (suffix_plain_cons_iff plain small between)
        · rw [if_neg small, encode_suffix_cons_iff plain (large small)]
          split
          case h_1 part begins => exact (skip _).trans (inside part (Begun.sound_of_begin? begins))
          case h_2 => exact (skip _).trans ((skip _).trans between)

end Utf8

/-- A name is that of a manifest exactly if its bytes end in those of the ending, whatever stands
before them. -/
theorem isManifestName_iff (name : List UInt8) :
    isManifestName name = true ↔ Utf8.encode manifestSuffix <:+ name := by
  have plain : ∀ c ∈ manifestSuffix, Utf8.Plain c := Utf8.plain_of_all (by decide)
  have between : ∀ part ∈ (none : Option Utf8.Begun), part.Sound := by simp
  rw [isManifestName, List.isSuffixOf_iff_suffix]
  exact Utf8.suffix_lossyFrom_iff plain between name

end ExerciseAudit
