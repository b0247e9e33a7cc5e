import ExerciseAudit.Proofs.Text.Ascii

/-!
# Reading back what is encoded

Every text is read back from its bytes (`Utf8.pieces_encode`): the first byte of a character says how
many follow and leaves no room for an overlong form or a surrogate, and each byte that follows brings
six more bits. So a path that a text spells is shown as that text.
-/

namespace ExerciseAudit

namespace Utf8

/-! ## Bytes that go on with a character -/

/-- The byte that goes on with a begun character by six more bits. -/
def tail (bits : Nat) : UInt8 :=
  .ofNat (bits + 0x80)

section Tail

variable {bits : Nat} (six : bits < 64)
include six

theorem toNat_tail : (tail bits).toNat = bits + 0x80 := by
  have byte : bits + 0x80 < 256 := by omega
  exact UInt8.toNat_ofNat_of_lt' byte

theorem push_tail (begun : Begun) : begun.push (tail bits) = begun.code * 64 + bits := by
  have plain := toNat_tail six
  unfold Begun.push
  generalize (tail bits).toNat = byte at plain
  subst plain
  rw [Nat.add_sub_cancel]

variable {code more : Nat} {low high : UInt8} (above : low.toNat ≤ bits + 0x80)
  (below : bits + 0x80 ≤ high.toNat)
include above below

theorem tail_within : low ≤ tail bits ∧ tail bits ≤ high := by
  rw [UInt8.le_iff_toNat_le, UInt8.le_iff_toNat_le, toNat_tail six]
  exact ⟨above, below⟩

/-- A further byte goes on with a sequence that has more to come. -/
theorem piecesFrom_onward (rest : List UInt8) :
    piecesFrom (some ⟨code, more + 1, low, high⟩) (tail bits :: rest) =
      piecesFrom (some ⟨code * 64 + bits, more, 0x80, 0xBF⟩) rest := by
  rw [piecesFrom, if_pos (tail_within six above below), push_tail six]

/-- The last byte of a sequence makes the character. -/
theorem piecesFrom_last (rest : List UInt8) :
    piecesFrom (some ⟨code, 0, low, high⟩) (tail bits :: rest) =
      some (Char.ofNat (code * 64 + bits)) :: piecesFrom none rest := by
  rw [piecesFrom, if_pos (tail_within six above below), push_tail six]

end Tail

/-- Any six bits may follow where no form is excluded. -/
theorem tail_free {bits : Nat} (six : bits < 64) :
    (0x80 : UInt8).toNat ≤ bits + 0x80 ∧ bits + 0x80 ≤ (0xBF : UInt8).toNat := by
  simp only [UInt8.reduceToNat]
  omega

/-! ## The first byte of a character -/

theorem piecesFrom_lead {first : UInt8} {begun : Begun} (begins : begin? first = some begun)
    (rest : List UInt8) : piecesFrom none (first :: rest) = piecesFrom (some begun) rest := by
  have large : ¬ first < 0x80 := by
    intro small
    rw [UInt8.lt_iff_toNat_lt] at small
    unfold begin? at begins
    simp only [UInt8.le_iff_toNat_le, ← UInt8.toNat_inj, UInt8.reduceToNat] at begins small
    repeat' split at begins
    case isFalse => cases begins
    all_goals omega
  rw [piecesFrom, if_neg large, begins]

theorem begin?_two : ∀ bits < 32, 2 ≤ bits →
    begin? (.ofNat (bits + 192)) = some ⟨bits, 0, 0x80, 0xBF⟩ := by
  decide

theorem begin?_three : ∀ bits < 16, begin? (.ofNat (bits + 224)) =
    some ⟨bits, 1, if bits = 0 then 0xA0 else 0x80, if bits = 13 then 0x9F else 0xBF⟩ := by
  decide

theorem begin?_four : ∀ bits < 5, begin? (.ofNat (bits + 240)) =
    some ⟨bits, 2, if bits = 0 then 0x90 else 0x80, if bits = 4 then 0x8F else 0xBF⟩ := by
  decide

/-! ## Characters and texts -/

/-- A character of three bytes is no surrogate, and too great for two bytes. -/
theorem piecesFrom_three {n : Nat} (large : 0x7FF < n) (small : n ≤ 0xFFFF)
    (valid : n < 0xD800 ∨ 0xDFFF < n) (rest : List UInt8) :
    piecesFrom none
        (.ofNat (n / 4096 % 16 + 224) :: tail (n / 64 % 64) :: tail (n % 64) :: rest) =
      some (Char.ofNat n) :: piecesFrom none rest := by
  have second : n / 64 % 64 < 64 := Nat.mod_lt _ (by decide)
  have third : n % 64 < 64 := Nat.mod_lt _ (by decide)
  have whole : (n / 4096 % 16 * 64 + n / 64 % 64) * 64 + n % 64 = n := by omega
  rw [piecesFrom_lead (begin?_three (n / 4096 % 16) (Nat.mod_lt _ (by decide))),
    piecesFrom_onward second, piecesFrom_last third (tail_free third).1 (tail_free third).2, whole]
  -- a leading byte that is an extreme one leaves less room for the next byte
  · split <;> simp only [UInt8.reduceToNat] <;> omega
  · split <;> simp only [UInt8.reduceToNat] <;> omega

/-- A character of four bytes is too great for three, and not beyond the last one. -/
theorem piecesFrom_four {n : Nat} (large : 0xFFFF < n) (valid : n < 0x110000)
    (rest : List UInt8) :
    piecesFrom none (.ofNat (n / 262144 % 8 + 240) :: tail (n / 4096 % 64) ::
        tail (n / 64 % 64) :: tail (n % 64) :: rest) =
      some (Char.ofNat n) :: piecesFrom none rest := by
  have second : n / 4096 % 64 < 64 := Nat.mod_lt _ (by decide)
  have third : n / 64 % 64 < 64 := Nat.mod_lt _ (by decide)
  have fourth : n % 64 < 64 := Nat.mod_lt _ (by decide)
  have whole :
      ((n / 262144 % 8 * 64 + n / 4096 % 64) * 64 + n / 64 % 64) * 64 + n % 64 = n := by omega
  rw [piecesFrom_lead (begin?_four (n / 262144 % 8) (by omega)), piecesFrom_onward second,
    piecesFrom_onward third (tail_free third).1 (tail_free third).2,
    piecesFrom_last fourth (tail_free fourth).1 (tail_free fourth).2, whole]
  · split <;> simp only [UInt8.reduceToNat] <;> omega
  · split <;> simp only [UInt8.reduceToNat] <;> omega

/-- An encoded character is decoded as itself, with nothing left of it. -/
theorem piecesFrom_char (c : Char) (rest : List UInt8) :
    piecesFrom none (String.utf8EncodeChar c ++ rest) = some c :: piecesFrom none rest := by
  have back : Char.ofNat c.val.toNat = c := Char.ofNat_toNat c
  have valid := c.valid
  unfold String.utf8EncodeChar
  unfold UInt32.isValidChar Nat.isValidChar at valid
  generalize c.val.toNat = n at back valid
  subst back
  simp only
  split
  case isTrue one =>
    have short : n < 256 := by omega
    have byte : (UInt8.ofNat n).toNat = n := UInt8.toNat_ofNat_of_lt' short
    have small : UInt8.ofNat n < 0x80 := by
      rw [UInt8.lt_iff_toNat_lt, byte]
      exact Nat.lt_succ_of_le one
    rw [List.singleton_append, piecesFrom, if_pos small, byte]
  split
  case isTrue two =>
    have lead := begin?_two (n / 64 % 32) (Nat.mod_lt _ (by decide)) (by omega)
    have whole : n / 64 % 32 * 64 + n % 64 = n := by omega
    have second : n % 64 < 64 := Nat.mod_lt _ (by decide)
    rw [List.cons_append, List.singleton_append, piecesFrom_lead lead, ← tail,
      piecesFrom_last second (tail_free second).1 (tail_free second).2, whole]
  split
  case isTrue three => exact piecesFrom_three (by omega) three (by omega) rest
  case isFalse four => exact piecesFrom_four (by omega) (by omega) rest

/-- A text is read back from its bytes. -/
theorem pieces_encode (text : List Char) : pieces (encode text) = text.map some := by
  unfold pieces
  induction text with
  | nil => rfl
  | cons c rest ih =>
    rw [List.map_cons, ← ih, ← piecesFrom_char]
    rfl

/-- An encoded text is shown as itself. -/
theorem lossy_encode (text : List Char) : lossy (encode text) = text := by
  rw [lossy, pieces_encode, List.map_map]
  exact List.map_id text

end Utf8

/-- A path that was given as text is shown as that text. -/
theorem Path.display_ofString (text : String) : (Path.ofString text).display = text := by
  rw [display, ofString, Utf8.lossy_encode, String.ofList_toList]

end ExerciseAudit
