import SelectiveMerge.Number.Binary64

/-!
# Shortest decimal text of a binary number

A finite word is written with the fewest decimal digits that read back as the
same word; among decimals of that length the one nearest to the value is taken,
and of two equally near ones the even one. `Shortest.digits` finds the digits by
exact arithmetic on the interval of the numbers that round to the word, going
from coarse decimal grids to fine ones.
-/

namespace SelectiveMerge.Shortest

/-- The numbers that round to a word: from `low` to `high` in units of
`2 ^ exponent`, the ends included or not, around `mid`. -/
structure Interval where
  low : Nat
  mid : Nat
  high : Nat
  exponent : Int
  closed : Bool

/-- The interval of a word with a positive significand, in quarters of its last
place. Below a power of two the neighbour is only half as far away. -/
def interval (x : Binary64) : Interval :=
  let m := x.significand
  let lower := if x.fractionField = 0 ∧ 1 < x.exponentField then 1 else 2
  ⟨4 * m - lower, 4 * m, 4 * m + 2, x.exponent - 2, m % 2 == 0⟩

/-- The interval in units of `1 / den`: its ends, its middle and the unit of the
decimal grid `10 ^ scale`, all scaled to natural numbers. -/
structure Scaled where
  low : Nat
  mid : Nat
  high : Nat
  unit : Nat
  closed : Bool

/-- Brings the interval and the grid `10 ^ scale` to a common denominator. -/
def Interval.onGrid (i : Interval) (scale : Int) : Scaled :=
  let up (n : Nat) : Nat := if 0 ≤ i.exponent then n * Nat.pow 2 i.exponent.toNat else n
  let den : Nat := if 0 ≤ i.exponent then 1 else Nat.pow 2 (-i.exponent).toNat
  if 0 ≤ scale then ⟨up i.low, up i.mid, up i.high, Nat.pow 10 scale.toNat * den, i.closed⟩
  else
    let factor := Nat.pow 10 (-scale).toNat
    ⟨up i.low * factor, up i.mid * factor, up i.high * factor, den, i.closed⟩

/-- Whether the grid point `n` lies in the interval. -/
def Scaled.contains (s : Scaled) (n : Nat) : Bool :=
  if s.closed then s.low ≤ n * s.unit && n * s.unit ≤ s.high
  else s.low < n * s.unit && n * s.unit < s.high

/-- The point of the grid in the interval that is nearest to its middle, if the
grid has one: it is one of the two neighbours of the middle. -/
def Scaled.nearest? (s : Scaled) : Option Nat :=
  let below := s.mid / s.unit
  let above := below + 1
  match s.contains below && below != 0, s.contains above with
  | true, true =>
      let toBelow := s.mid - below * s.unit
      let toAbove := above * s.unit - s.mid
      some (if toBelow < toAbove then below
        else if toAbove < toBelow then above
        else below + below % 2)
  | true, false => some below
  | false, true => some above
  | false, false => none

/-- The first grid, going down from `10 ^ scale`, that has a point in the
interval, with that point. -/
def search (i : Interval) : Nat → Int → Option (Nat × Int)
  | 0, _ => none
  | fuel + 1, scale =>
      match (i.onGrid scale).nearest? with
      | some n => some (n, scale)
      | none => search i fuel (scale - 1)

/-- A power of ten above the values of the interval. -/
def startScale (i : Interval) : Int :=
  ((Nat.log2 i.high + 1 : Nat) + i.exponent) * 30103 / 100000 + 1

/-- The digits and the power of ten of a finite word that is not zero. Seventeen
digits always suffice. -/
def digits (x : Binary64) : Nat × Int :=
  let i := interval x
  (search i 20 (startScale i)).getD (0, 0)

/-- How a finite word is laid out: positionally, with at least one digit on each
side of the point, from `10 ^ least` up to `10 ^ limit`, and otherwise with an
exponent. -/
structure Layout where
  least : Int
  limit : Int
  positiveSign : String

/-- Numbers from `0.00001` up to sixteen digits before the point are positional;
a positive exponent has its sign. -/
def layout : Layout := ⟨-5, 16, "+"⟩

/-- The digits `ds`, whose point stands after the first `point` of them, written
positionally. -/
def positional (ds : List Char) (point : Int) : String :=
  if point ≤ 0 then "0." ++ String.ofList (List.replicate (-point).toNat '0' ++ ds)
  else if ds.length ≤ point.toNat then
    String.ofList (ds ++ List.replicate (point.toNat - ds.length) '0') ++ ".0"
  else String.ofList (ds.take point.toNat) ++ "." ++ String.ofList (ds.drop point.toNat)

/-- The digits `ds` with a point after the first one, and the exponent. -/
def scientific (ds : List Char) (exponent : Int) : String :=
  let mantissa := match ds with
    | [] => "0"
    | [d] => String.singleton d
    | d :: rest => String.singleton d ++ "." ++ String.ofList rest
  mantissa ++ "e" ++ (if 0 ≤ exponent then layout.positiveSign else "") ++ toString exponent

/-- The text of a finite word. -/
def text (x : Binary64) : String :=
  let sign := if x.isNegative then "-" else ""
  if x.significand = 0 then sign ++ "0.0" else
  let (n, scale) := digits x
  let ds := (Nat.repr n).toList
  let point : Int := ds.length + scale
  sign ++
    (if layout.least < point ∧ point ≤ layout.limit then positional ds point
    else scientific ds (point - 1))

end SelectiveMerge.Shortest
