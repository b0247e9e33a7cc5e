import ExerciseAudit.Text.Visible

/-!
# Quoted text

Text between double quotes, with a backslash form for every character that could not be told apart or seen
if it stood for itself.
-/

namespace ExerciseAudit.Text

/-- The backslash form of a character by its code point: `\u`, and the hexadecimal digits in braces. -/
def codeForm (c : Char) : List Char :=
  '\\' :: 'u' :: '\x7b' :: Nat.toDigits 16 c.toNat ++ ['\x7d']

/-- How a character stands between quotes. -/
def quotedChar (c : Char) : List Char :=
  if c = '"' then ['\\', '"']
  else if c = '\\' then ['\\', '\\']
  else if c = '\n' then ['\\', 'n']
  else if c = '\r' then ['\\', 'r']
  else if c = '\t' then ['\\', 't']
  else if c.toNat = 0 then ['\\', '0']
  else if isVisible c then [c]
  else codeForm c

/-- A text between quotes. -/
def quoted (text : String) : String :=
  String.ofList ('"' :: text.toList.flatMap quotedChar ++ ['"'])

end ExerciseAudit.Text
