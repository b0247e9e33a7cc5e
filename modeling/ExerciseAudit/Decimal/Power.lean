/-!
# Powers and widths

The powers that number formats are made of, and the integers that fit a number of bits.
-/

namespace ExerciseAudit

/-- A power of two. -/
def powerOfTwo (n : Nat) : Nat :=
  Nat.pow 2 n

/-- A power of ten. -/
def powerOfTen (n : Nat) : Nat :=
  Nat.pow 10 n

/-- Whether an integer fits some bits, one of which is its sign. -/
def fitsSigned (bits : Nat) (n : Int) : Bool :=
  -(powerOfTwo (bits - 1) : Int) ≤ n ∧ n < powerOfTwo (bits - 1)

/-- Whether an integer fits some bits, with a sign or without. -/
def fitsWord (bits : Nat) (n : Int) : Bool :=
  -(powerOfTwo (bits - 1) : Int) ≤ n ∧ n < powerOfTwo bits

end ExerciseAudit
