import SelectiveMerge.Number.Binary64

/-!
# Similarity of words

How alike two words are, as a number between nothing and one. Characters match
when they are equal and not too far apart; the measure of Jaro counts the matches
and how many of them are out of order, and the measure of Winkler favours words
with a common beginning. The numbers are those of the binary64 format: each step
of a computation is rounded to it.

* `similarity` — the similarity of two words
* `closest?` — the word of a list that is most like a given one, if any is like it
-/

namespace SelectiveMerge.Text

/-- A fraction of two natural numbers. -/
structure Fraction where
  num : Nat
  den : Nat
  deriving DecidableEq

namespace Fraction

/-- Whether a fraction is less than another one. -/
def less (a b : Fraction) : Bool := a.num * b.den < b.num * a.den

/-- The number of the binary64 format nearest to a fraction. -/
def rounded (a : Fraction) : Fraction :=
  let (num, den) := (Binary64.ofRatio false a.num a.den).ratio
  ⟨num, den⟩

/-- The sum, rounded. -/
def plus (a b : Fraction) : Fraction := rounded ⟨a.num * b.den + b.num * a.den, a.den * b.den⟩

/-- The product, rounded. -/
def times (a b : Fraction) : Fraction := rounded ⟨a.num * b.num, a.den * b.den⟩

/-- What is missing to one, rounded; nothing beyond one. -/
def rest (a : Fraction) : Fraction := rounded ⟨a.den - a.num, a.den⟩

end Fraction

/-- The positions in `bs` that match the characters of a word from position `i` on, at
most `reach` apart, and the characters that have a match. Each position matches once. -/
def matches? (bs : List Char) (reach : Nat) : Nat → List Char → List Nat → List Nat × List Char
  | _, [], taken => (taken, [])
  | i, a :: as, taken =>
      match (List.range bs.length).find? fun j =>
          i ≤ j + reach && j ≤ i + reach && bs[j]? == some a && !taken.contains j with
      | some j =>
          let (taken, matched) := matches? bs reach (i + 1) as (j :: taken)
          (taken, a :: matched)
      | none => matches? bs reach (i + 1) as taken

/-- The similarity by matches and their order. -/
def jaro (as bs : List Char) : Fraction :=
  if as = [] ∧ bs = [] then ⟨1, 1⟩
  else
    let reach := max as.length bs.length / 2 - 1
    let (taken, matched) := matches? bs reach 0 as []
    let partners := (bs.zipIdx.filter fun b => taken.contains b.2).map (·.1)
    let count := matched.length
    let swaps := ((matched.zip partners).countP fun p => p.1 != p.2) / 2
    if count = 0 then ⟨0, 1⟩
    else
      let share (part whole : Nat) : Fraction := Fraction.rounded ⟨part, whole⟩
      let sum := ((share count as.length).plus (share count bs.length)).plus
        (share (count - swaps) count)
      Fraction.rounded ⟨sum.num, 3 * sum.den⟩

/-- How many characters two words have in common at their beginning. -/
def commonStart : List Char → List Char → Nat
  | a :: as, b :: bs => if a = b then commonStart as bs + 1 else 0
  | _, _ => 0

/-- The similarity of two words. Words that are alike as such gain by each of the
first four characters that they share. -/
def similarity (a b : String) : Fraction :=
  let base := jaro a.toList b.toList
  if (Fraction.rounded ⟨7, 10⟩).less base then
    let shared := min 4 (commonStart a.toList b.toList)
    base.plus (((Fraction.rounded ⟨1, 10⟩).times ⟨shared, 1⟩).times base.rest)
  else base

/-- The first of the words most like a given one, if its similarity is above four
fifths. -/
def closest? (word : String) (candidates : List String) : Option String :=
  let better (best : Option (String × Fraction)) (candidate : String) :=
    let s := similarity word candidate
    match best with
    | some (_, b) => if Fraction.less b s then some (candidate, s) else best
    | none => if (Fraction.rounded ⟨4, 5⟩).less s then some (candidate, s) else none
  (candidates.foldl better none).map (·.1)

end SelectiveMerge.Text
