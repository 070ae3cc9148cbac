/-!
# Binary floating-point numbers

A number of the binary64 interchange format is its 64-bit word. The module reads
a word as `± significand · 2 ^ exponent`, rounds exact quotients of natural
numbers to the nearest word, and says which words are integers. All of it is
exact arithmetic on `Nat` and `Int`.
-/

namespace SelectiveMerge

/-- A word of the binary64 format. -/
structure Binary64 where
  bits : BitVec 64
  deriving DecidableEq, Inhabited

/-- The parameters of a binary format: how many bits a significand has, and the
least and the greatest exponent of its last bit. -/
structure BinaryFormat where
  precision : Nat
  minExponent : Int
  maxExponent : Int

namespace BinaryFormat

/-- The format with 64-bit words. -/
def binary64 : BinaryFormat := ⟨53, -1074, 971⟩

/-- The format with 32-bit words. -/
def binary32 : BinaryFormat := ⟨24, -149, 104⟩

/-- The numerator and the denominator of `num / den / 2 ^ exponent`. -/
def rescale (num den : Nat) (exponent : Int) : Nat × Nat :=
  if exponent < 0 then (num * Nat.pow 2 (-exponent).toNat, den)
  else (num, den * Nat.pow 2 exponent.toNat)

/-- The quotient rounded to the nearest natural number, a half to the even one. -/
def roundHalfEven (num den : Nat) : Nat :=
  let quotient := num / den
  let rest := num % den
  if 2 * rest < den then quotient
  else if den < 2 * rest then quotient + 1
  else quotient + quotient % 2

/-- The greatest `e` with `2 ^ e ≤ num / den`, for positive `num` and `den`. -/
def floorLog2 (num den : Nat) : Int :=
  let estimate : Int := (Nat.log2 num : Int) - Nat.log2 den
  let scaled := rescale num den estimate
  if scaled.2 ≤ scaled.1 then estimate else estimate - 1

/-- The significand and the exponent of the number of the format nearest to
`num / den`, a tie going to the even significand; `none` when it overflows. -/
def round (format : BinaryFormat) (num den : Nat) : Option (Nat × Int) :=
  if num = 0 then some (0, format.minExponent) else
  let exponent := max (floorLog2 num den - (format.precision - 1 : Nat)) format.minExponent
  let scaled := rescale num den exponent
  let significand := roundHalfEven scaled.1 scaled.2
  let (significand, exponent) :=
    if significand = Nat.pow 2 format.precision then
      (Nat.pow 2 (format.precision - 1), exponent + 1)
    else (significand, exponent)
  if format.maxExponent < exponent then none else some (significand, exponent)

end BinaryFormat

namespace Binary64

/-- The sign bit. -/
def isNegative (x : Binary64) : Bool := x.bits.msb

/-- The weight of the bit above the stored significand, two to the power of 52. -/
def leadingBit : Nat := 4503599627370496

/-- The weight of the sign bit, two to the power of 63. -/
def signBit : Nat := 9223372036854775808

/-- The biased exponent: eleven bits. -/
def exponentField (x : Binary64) : Nat := x.bits.toNat / leadingBit % 2048

/-- The stored part of the significand: fifty-two bits. -/
def fractionField (x : Binary64) : Nat := x.bits.toNat % leadingBit

/-- Neither an infinity nor a NaN. -/
def isFinite (x : Binary64) : Bool := x.exponentField != 2047

/-- Not a number. -/
def isNaN (x : Binary64) : Bool := x.exponentField == 2047 && x.fractionField != 0

/-- Whether the number is a zero of either sign. -/
def isZero (x : Binary64) : Bool := x.exponentField == 0 && x.fractionField == 0

/-- The significand of a finite word: a normal one has an implicit leading bit. -/
def significand (x : Binary64) : Nat :=
  if x.exponentField = 0 then x.fractionField else leadingBit + x.fractionField

/-- The exponent of the last bit of the significand of a finite word. -/
def exponent (x : Binary64) : Int := (max x.exponentField 1 : Nat) - 1075

/-- The word with the given sign, biased exponent and stored significand. -/
def ofFields (negative : Bool) (exponentField fractionField : Nat) : Binary64 :=
  ⟨BitVec.ofNat 64 ((if negative then signBit else 0) + exponentField * leadingBit + fractionField)⟩

/-- The infinity of the given sign. -/
def infinity (negative : Bool) : Binary64 := ofFields negative 2047 0

/-- A quiet NaN. -/
def nan : Binary64 := ofFields false 2047 (leadingBit / 2)

/-- The zero of the given sign. -/
def zero (negative : Bool) : Binary64 := ofFields negative 0 0

/-- The word for `± significand · 2 ^ exponent`, for a pair that rounding to the
format gives. -/
def ofParts (negative : Bool) (significand : Nat) (exponent : Int) : Binary64 :=
  if significand < leadingBit then ofFields negative 0 significand
  else ofFields negative (exponent + 1075).toNat (significand - leadingBit)

/-- The word nearest to `± num / den`; an infinity when there is none. -/
def ofRatio (negative : Bool) (num den : Nat) : Binary64 :=
  match BinaryFormat.binary64.round num den with
  | some (significand, exponent) => ofParts negative significand exponent
  | none => infinity negative

/-- The word nearest to an integer. -/
def ofInt (i : Int) : Binary64 := ofRatio (i < 0) i.natAbs 1

/-- The magnitude of a finite word as a quotient of natural numbers. -/
def ratio (x : Binary64) : Nat × Nat :=
  if x.exponent < 0 then (x.significand, Nat.pow 2 (-x.exponent).toNat)
  else (x.significand * Nat.pow 2 x.exponent.toNat, 1)

/-- The word nearest to `± digits · 10 ^ scale`. -/
def ofDecimal (negative : Bool) (digits : Nat) (scale : Int) : Binary64 :=
  if scale < 0 then ofRatio negative digits (Nat.pow 10 (-scale).toNat)
  else ofRatio negative (digits * Nat.pow 10 scale.toNat) 1

/-- The product of two finite words, rounded. -/
def mul (x y : Binary64) : Binary64 :=
  ofRatio (x.isNegative != y.isNegative) (x.ratio.1 * y.ratio.1) (x.ratio.2 * y.ratio.2)

/-- The quotient of two finite words, the second not zero, rounded. -/
def div (x y : Binary64) : Binary64 :=
  ofRatio (x.isNegative != y.isNegative) (x.ratio.1 * y.ratio.2) (x.ratio.2 * y.ratio.1)

/-- The word of the opposite sign. -/
def neg (x : Binary64) : Binary64 := ⟨x.bits ^^^ BitVec.ofNat 64 signBit⟩

/-- The value of a finite word when it is an integer. -/
def toInt? (x : Binary64) : Option Int :=
  let (num, den) := x.ratio
  if x.isFinite && num % den == 0 then
    some (if x.isNegative then -(num / den : Nat) else (num / den : Nat))
  else none

/-- The word for the number of the 32-bit format that is nearest to `± num / den`. -/
def ofRatioBinary32 (negative : Bool) (num den : Nat) : Binary64 :=
  match BinaryFormat.binary32.round num den with
  | some (significand, exponent) =>
      let scaled := BinaryFormat.rescale significand 1 (-exponent)
      ofRatio negative scaled.1 scaled.2
  | none => infinity negative

/-- The word rounded to the 32-bit format. -/
def toBinary32 (x : Binary64) : Binary64 :=
  if x.isFinite then ofRatioBinary32 x.isNegative x.ratio.1 x.ratio.2 else x

end Binary64

end SelectiveMerge
