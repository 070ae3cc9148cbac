import SelectiveMerge.Leaf.Codec
import SelectiveMerge.Number.Numeral
import SelectiveMerge.Text.Blank

/-!
# Coercion

When a leaf does not take a JSON value as it is, other readings of the value are
tried in order: an integral floating-point number as an integer, an integer as a
floating-point number, a numeral or a truth word in a text as the number or the
truth value, a number or a truth value as its text, a truth value as 0 or 1. The
first reading that the leaf takes wins.
-/

namespace SelectiveMerge.Coercion

/-- The bounds between which a floating-point number is read as an integer. The
upper one is the least power of two that no signed 64-bit integer reaches. -/
def integerBound : Int := 9223372036854775808

/-- The integer that a floating-point number is read as: its value, the upper
bound being read as the greatest signed 64-bit integer. -/
def narrow? (x : Binary64) : Option Int :=
  match x.toInt? with
  | some i =>
      if -integerBound ≤ i ∧ i ≤ integerBound then some (min i (integerBound - 1)) else none
  | none => none

/-- Other readings of a number. -/
def numberReadings (n : JsonNumber) : List Json :=
  let numeric : List Json :=
    match n with
    | .float x => (narrow? x).toList.map Json.ofInt
    | .int i => [.number (.float (Binary64.ofInt i))]
  numeric ++ [.string n.text]

/-- The number that a trimmed text denotes: a signed 64-bit integer, an unsigned
one, or else a finite floating-point number. -/
def textNumber? (cs : List Char) : Option Json :=
  let signed : Option Int := (Numeral.int? cs).filter (IntType.mk true 64).contains
  let unsigned : Option Nat :=
    (Numeral.unsigned? cs).filter fun n => (IntType.mk false 64).contains n
  match signed, unsigned with
  | some i, _ => some (Json.ofInt i)
  | none, some n => some (Json.ofNat n)
  | none, none =>
      ((Numeral.float? cs).filter Binary64.isFinite).map fun x => .number (.float x)

/-- The truth value that a trimmed text names. -/
def textBool? (cs : List Char) : Option Json :=
  let word := Text.foldCase (String.ofList cs)
  if word = "true" then some (.bool true)
  else if word = "false" then some (.bool false)
  else none

/-- Other readings of a text. -/
def textReadings (s : String) : List Json :=
  let cs := Text.trimBlanks s.toList
  (textNumber? cs).toList ++ (textBool? cs).toList

/-- The other readings of a value, in the order in which they are tried. -/
def readings : Json → List Json
  | .number n => numberReadings n
  | .string s => textReadings s
  | .bool b => [.string (if b then "true" else "false"), Json.ofNat b.toNat]
  | _ => []

/-- The result for the first reading that is accepted, the value itself first. -/
def firstAccepted {α : Type} (accept : Json → Option α) (j : Json) : Option α :=
  (j :: readings j).findSome? accept

/-- The value that a leaf of a type takes from a JSON value. -/
def coerce? (t : LeafType) (j : Json) : Option Cell := firstAccepted t.decode? j

end SelectiveMerge.Coercion
