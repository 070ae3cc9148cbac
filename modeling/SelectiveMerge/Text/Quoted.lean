import SelectiveMerge.Text.Printable

/-!
# Quoted text

How a text is shown inside a description of a value: in quotes, with the quote,
the backslash and the usual control characters escaped, and every other
character that has no printed form given by its number.
-/

namespace SelectiveMerge.Text

/-- The small hexadecimal digits of a number. -/
def hexText (n : Nat) : List Char := (Nat.toDigits 16 n)

/-- How a character is shown inside quotes. -/
def showChar (c : Char) : List Char :=
  if c = '\x00' then ['\\', '0']
  else if c = '\t' then ['\\', 't']
  else if c = '\n' then ['\\', 'n']
  else if c = '\r' then ['\\', 'r']
  else if c = '"' then ['\\', '"']
  else if c = '\\' then ['\\', '\\']
  else if isPlain c then [c]
  else ['\\', 'u', '\x7b'] ++ hexText c.toNat ++ ['\x7d']

/-- A text in quotes. -/
def quoted (s : String) : String := String.ofList ('"' :: s.toList.flatMap showChar ++ ['"'])

end SelectiveMerge.Text
