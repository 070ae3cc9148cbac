import SelectiveMerge.Declaration.Grammar.Type
import SelectiveMerge.Uuid

/-!
# The grammar of members

A member of a value is a name or a number. The number of a member is written in any
base, and its text is the decimal number.

* `Grammar.member` — reads a member
* `Grammar.membersOfDecimal` — the members whose numbers look like one decimal number
-/

namespace SelectiveMerge.Declaration.Grammar

open TokenReader Peek

/-! ## Numbers of members -/

/-- The value of the digits of a base at the start of a text after a value, with what
follows them. Underscores count for nothing. -/
def digitsIn (base value : Nat) : List Char → Nat × List Char
  | [] => (value, [])
  | c :: cs =>
      if c = '_' then digitsIn base value cs
      else
        match Uuid.hexValue? c with
        | some d => if d < base then digitsIn base (value * base + d) cs else (value, c :: cs)
        | none => (value, c :: cs)

/-- The value of a whole number, with its suffix. -/
def wholeNumber : List Char → Nat × List Char
  | '0' :: 'x' :: cs => digitsIn 16 0 cs
  | '0' :: 'o' :: cs => digitsIn 8 0 cs
  | '0' :: 'b' :: cs => digitsIn 2 0 cs
  | cs => digitsIn 10 0 cs

/-- The text of the number of a member, or what is wrong with it. -/
def memberNumber (text : String) : Except Complaint String :=
  match text.toList with
  | '-' :: cs =>
      if (wholeNumber cs).2.isEmpty then .error .indexNotDigits else .error .suffixOnIndex
  | cs =>
      let (value, suffix) := wholeNumber cs
      if !suffix.isEmpty then .error .suffixOnIndex
      else if value < 4294967296 then .ok (toString value)
      else .error .indexTooGreat

/-- Whether a whole number comes next. -/
def startsWholeNumber : Peek := literalOf (· == .int)

/-- Takes the number of a member. -/
def numberedMember : TokenReader String := do
  match memberNumber (← literalText) with
  | .ok text => return text
  | .error complaint => reject complaint

/-- Reads a member: a name or a number. -/
def member : TokenReader String :=
  choose [(name, identifier), (startsWholeNumber, numberedMember)]
    (complain (.expected ["identifier or integer"]))

/-! ## Several numbers at once -/

/-- Whether the point of a decimal number is followed by nothing. -/
def endsInPoint (text : String) : Bool := text.toList.getLast? == some '.'

/-- Whether a part of a decimal number is one itself, by its exponent. -/
def hasExponent (part : List Char) : Bool :=
  match part.dropWhile fun c => c.isDigit || c == '_' || c == '-' with
  | e :: rest =>
      (e == 'e' || e == 'E') &&
        match rest.dropWhile (· == '_') with
        | c :: _ => c.isDigit || c == '+' || c == '-'
        | [] => false
  | [] => false

/-- The texts of the numbers of members that a decimal number is when it follows a
point. A point at its end counts for none. -/
def membersOfDecimal (text : String) : Except Complaint (List String) :=
  let parts := (text.splitOn ".").filter fun part => !part.isEmpty
  parts.mapM fun part =>
    if hasExponent part.toList then .error (.expected ["integer literal"])
    else memberNumber part

end SelectiveMerge.Declaration.Grammar
