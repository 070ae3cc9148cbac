import SelectiveMerge.Number.Binary64
import SelectiveMerge.Text.Ascii

/-!
# Decimal numerals

Reading numerals from text: natural numbers, signed integers, and decimals with a
point and an exponent. `readDigits` is the shared part, and what it reads back
from a printed number is that number.
-/

namespace SelectiveMerge.Numeral

/-- The value of a decimal digit. -/
def digit? (c : Char) : Option Nat := if c.isDigit then some (c.toNat - 48) else none

/-- The leading digits of a text, appended to the number `acc`, with how many there
are and what follows them. -/
def readDigits (acc : Nat) : List Char → Nat × Nat × List Char
  | [] => (acc, 0, [])
  | c :: cs =>
      match digit? c with
      | some d =>
          let (n, count, rest) := readDigits (acc * 10 + d) cs
          (n, count + 1, rest)
      | none => (acc, 0, c :: cs)

/-- A text of one or more digits. -/
def nat? (cs : List Char) : Option Nat :=
  match readDigits 0 cs with
  | (n, _ + 1, []) => some n
  | _ => none

/-- Digits after at most one sign. -/
def int? : List Char → Option Int
  | '-' :: cs => (nat? cs).map fun n => -(n : Int)
  | '+' :: cs => (nat? cs).map Int.ofNat
  | cs => (nat? cs).map Int.ofNat

/-- Digits after at most one plus sign. -/
def unsigned? : List Char → Option Nat
  | '+' :: cs => nat? cs
  | cs => nat? cs

/-- The number that an exponent part gives: nothing at all, or `e` or `E`, a sign
or none, and digits. -/
def exponent? : List Char → Option Int
  | [] => some 0
  | c :: cs => if c = 'e' ∨ c = 'E' then int? cs else none

/-- The binary number nearest to an unsigned decimal: digits with at most one point
among or around them and perhaps an exponent. -/
def decimal? (negative : Bool) (cs : List Char) : Option Binary64 :=
  let (whole, wholeCount, rest) := readDigits 0 cs
  let (digits, fractionCount, rest) :=
    match rest with
    | '.' :: rest => readDigits whole rest
    | rest => (whole, 0, rest)
  if wholeCount + fractionCount = 0 then none else do
    let exponent ← exponent? rest
    let scale := exponent - fractionCount
    -- beyond these scales every value is zero or infinite
    let width : Int := wholeCount + fractionCount
    if digits = 0 ∨ scale + width < -400 then some (Binary64.zero negative)
    else if 400 < scale then some (Binary64.infinity negative)
    else some (Binary64.ofDecimal negative digits scale)

/-- The names of the values that have no digits. -/
def named? (negative : Bool) (cs : List Char) : Option Binary64 :=
  let name := Text.foldCase (String.ofList cs)
  if name = "inf" ∨ name = "infinity" then some (Binary64.infinity negative)
  else if name = "nan" then some Binary64.nan
  else none

/-- A floating-point numeral with at most one sign, or one of the names. -/
def float? (cs : List Char) : Option Binary64 :=
  let (negative, cs) : Bool × List Char :=
    match cs with
    | '-' :: cs => (true, cs)
    | '+' :: cs => (false, cs)
    | cs => (false, cs)
  (named? negative cs).or (decimal? negative cs)

end SelectiveMerge.Numeral
