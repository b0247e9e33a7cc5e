/-!
# UTF-8

Names and file contents are bytes; text is characters. `encode` writes text as bytes, `pieces` reads
bytes as a row of characters and broken stretches, and the two readings built on it differ in what they
make of a broken stretch: `decode?` refuses it, `lossy` puts a replacement character in its place. A
broken stretch is a first byte with as many of the following bytes as could still have continued it.
-/

namespace ExerciseAudit.Utf8

/-- The bytes of a text. -/
def encode (text : List Char) : List UInt8 :=
  text.flatMap String.utf8EncodeChar

/-- A character that has begun: the bits read so far, how many bytes come after the next one, and the
bounds of the next one. The bounds exclude overlong forms, surrogates and codes above U+10FFFF. -/
structure Begun where
  code : Nat
  more : Nat
  low : UInt8
  high : UInt8
  deriving DecidableEq, Repr

/-- What a first byte of `0x80` or above begins, if it can begin a character. -/
def begin? (first : UInt8) : Option Begun :=
  if 0xC2 ≤ first ∧ first ≤ 0xDF then some ⟨first.toNat - 0xC0, 0, 0x80, 0xBF⟩
  else if first = 0xE0 then some ⟨0, 1, 0xA0, 0xBF⟩
  else if first = 0xED then some ⟨0xD, 1, 0x80, 0x9F⟩
  else if 0xE1 ≤ first ∧ first ≤ 0xEF then some ⟨first.toNat - 0xE0, 1, 0x80, 0xBF⟩
  else if first = 0xF0 then some ⟨0, 2, 0x90, 0xBF⟩
  else if first = 0xF4 then some ⟨4, 2, 0x80, 0x8F⟩
  else if 0xF1 ≤ first ∧ first ≤ 0xF3 then some ⟨first.toNat - 0xF0, 2, 0x80, 0xBF⟩
  else none

/-- The bits of a begun character once a continuation byte has been added. -/
def Begun.push (begun : Begun) (byte : UInt8) : Nat :=
  begun.code * 64 + (byte.toNat - 0x80)

/-- The row of characters and broken stretches (`none`) in some bytes, after a begun character. -/
def piecesFrom : Option Begun → List UInt8 → List (Option Char)
  | none, [] => []
  | some _, [] => [none]
  | none, byte :: rest =>
    if byte < 0x80 then some (Char.ofNat byte.toNat) :: piecesFrom none rest
    else match begin? byte with
      | some begun => piecesFrom (some begun) rest
      | none => none :: piecesFrom none rest
  | some begun, byte :: rest =>
    if begun.low ≤ byte ∧ byte ≤ begun.high then
      match begun.more with
      | 0 => some (Char.ofNat (begun.push byte)) :: piecesFrom none rest
      | more + 1 => piecesFrom (some ⟨begun.push byte, more, 0x80, 0xBF⟩) rest
    else if byte < 0x80 then none :: some (Char.ofNat byte.toNat) :: piecesFrom none rest
    else match begin? byte with
      | some begun => none :: piecesFrom (some begun) rest
      | none => none :: none :: piecesFrom none rest

/-- The row of characters and broken stretches (`none`) that some bytes hold. -/
def pieces (bytes : List UInt8) : List (Option Char) :=
  piecesFrom none bytes

/-- The text that some bytes hold, if no stretch of them is broken. -/
def decode? (bytes : List UInt8) : Option (List Char) :=
  (pieces bytes).mapM id

/-- The text that some bytes hold, with U+FFFD for each broken stretch. -/
def lossy (bytes : List UInt8) : List Char :=
  (pieces bytes).map (·.getD '\uFFFD')

/-- How many bytes a text takes. -/
def size (text : List Char) : Nat :=
  text.foldr (fun c size => c.utf8Size + size) 0

end ExerciseAudit.Utf8
