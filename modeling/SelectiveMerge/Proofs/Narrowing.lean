import Mathlib.Data.Rat.Cast.Order
import SelectiveMerge.Proofs.Run

/-!
# Integral floating-point numbers at integer leaves

A finite word of the binary64 format is a rational number, `± significand · 2 ^ exponent`.
A leaf of an integer type takes a word when that number is an integer of the type and is below
two to the power of 63, and then it holds exactly this integer. That power itself is read as
the integer before it, and no number above it is taken, although unsigned types reach further.

* `Binary64.toRat` — the number that a finite word stands for
* `Binary64.toInt?_eq_some_iff` — `Binary64.toInt?` gives the integral ones and no others
* `Coercion.narrows_integral` — what an integer leaf takes from an integral number
* `Coercion.power_narrows_below_itself` — the power of two that is not taken as it is
* `Merger.assignLeaf_integral` — the assignment of such a number by a merge
-/

namespace SelectiveMerge

namespace Binary64

/-! ## The number of a word -/

/-- The number that a finite word stands for. -/
def toRat (x : Binary64) : ℚ :=
  (if x.isNegative then -1 else 1) * (x.significand * (2 : ℚ) ^ x.exponent)

theorem ratio_snd_pos (x : Binary64) : 0 < x.ratio.2 := by
  unfold ratio
  split
  · exact Nat.pow_pos (by decide)
  · exact Nat.one_pos

/-- The quotient that stands for the magnitude is the significand at its exponent. -/
theorem ratio_eq (x : Binary64) :
    (x.ratio.1 : ℚ) / x.ratio.2 = x.significand * (2 : ℚ) ^ x.exponent := by
  unfold ratio
  split
  case isTrue hneg =>
    obtain ⟨n, hn⟩ := Int.eq_ofNat_of_zero_le (Int.neg_nonneg.2 hneg.le)
    have hexponent : x.exponent = -(n : Int) := by omega
    rw [hexponent, zpow_neg, zpow_natCast, Int.neg_neg, Int.toNat_natCast, Nat.pow_eq,
      Nat.cast_pow, Nat.cast_ofNat, div_eq_mul_inv]
  case isFalse hnonneg =>
    obtain ⟨n, hn⟩ := Int.eq_ofNat_of_zero_le (Int.not_lt.1 hnonneg)
    rw [hn, zpow_natCast, Int.toNat_natCast, Nat.pow_eq, Nat.cast_mul, Nat.cast_pow,
      Nat.cast_ofNat, Nat.cast_one, div_one]

/-- A quotient of natural numbers is a natural number when the division leaves no rest. -/
theorem ratio_eq_natCast_iff (x : Binary64) (n : Nat) :
    (x.ratio.1 : ℚ) / x.ratio.2 = n ↔ x.ratio.1 % x.ratio.2 = 0 ∧ x.ratio.1 / x.ratio.2 = n := by
  have hpos := x.ratio_snd_pos
  have hne : (x.ratio.2 : ℚ) ≠ 0 := Nat.cast_ne_zero.2 hpos.ne'
  have hproduct : (x.ratio.1 : ℚ) / x.ratio.2 = n ↔ x.ratio.1 = n * x.ratio.2 := by
    rw [div_eq_iff hne]
    exact_mod_cast Iff.rfl
  rw [hproduct]
  constructor
  · intro h
    rw [h]
    exact ⟨Nat.mul_mod_left n _, Nat.mul_div_cancel n hpos⟩
  · rintro ⟨hrest, rfl⟩
    exact (Nat.div_mul_cancel (Nat.dvd_of_mod_eq_zero hrest)).symm

/-- The magnitude of the number is the quotient, and the sign bit is its sign. -/
theorem toRat_eq_intCast_iff (x : Binary64) (k : Int) :
    x.toRat = k ↔ x.ratio.1 % x.ratio.2 = 0 ∧
      (if x.isNegative then -((x.ratio.1 / x.ratio.2 : Nat) : Int)
        else (x.ratio.1 / x.ratio.2 : Nat)) = k := by
  have hnonneg : 0 ≤ (x.ratio.1 : ℚ) / x.ratio.2 :=
    div_nonneg (Nat.cast_nonneg _) (Nat.cast_nonneg _)
  unfold toRat
  rw [← ratio_eq]
  cases x.isNegative
  case false =>
    rw [if_neg Bool.false_ne_true, if_neg Bool.false_ne_true, one_mul]
    constructor
    · intro h
      have hk : (0 : ℚ) ≤ k := h ▸ hnonneg
      obtain ⟨n, rfl⟩ := Int.eq_ofNat_of_zero_le (Int.cast_nonneg_iff.1 hk)
      have hparts := (ratio_eq_natCast_iff x n).1 (h.trans (Int.cast_natCast n))
      exact ⟨hparts.1, congrArg _ hparts.2⟩
    · rintro ⟨hrest, rfl⟩
      exact ((ratio_eq_natCast_iff x _).2 ⟨hrest, rfl⟩).trans (Int.cast_natCast _).symm
  case true =>
    rw [if_pos rfl, if_pos rfl, neg_one_mul, neg_eq_iff_eq_neg]
    constructor
    · intro h
      have hneg : (0 : ℚ) ≤ (-k : Int) := by
        rw [Int.cast_neg, ← h]
        exact hnonneg
      obtain ⟨n, hn⟩ := Int.eq_ofNat_of_zero_le (Int.cast_nonneg_iff.1 hneg)
      have hk : k = -(n : Int) := by omega
      have hparts := (ratio_eq_natCast_iff x n).1
        (by rw [h, hk, Int.cast_neg, neg_neg, Int.cast_natCast])
      exact ⟨hparts.1, by rw [hk, hparts.2]⟩
    · rintro ⟨hrest, rfl⟩
      rw [Int.cast_neg, neg_neg, Int.cast_natCast]
      exact (ratio_eq_natCast_iff x _).2 ⟨hrest, rfl⟩

/-- The integers among the finite words are found, each with its value. -/
theorem toInt?_eq_some_iff (x : Binary64) (k : Int) :
    x.toInt? = some k ↔ x.isFinite = true ∧ x.toRat = k := by
  rw [toRat_eq_intCast_iff, toInt?]
  simp only [Bool.and_eq_true, beq_iff_eq]
  by_cases h : x.isFinite = true ∧ x.ratio.1 % x.ratio.2 = 0
  · rw [if_pos h, Option.some_inj]
    exact ⟨fun hk => ⟨h.1, h.2, hk⟩, fun hk => hk.2.2⟩
  · rw [if_neg h]
    exact ⟨(nomatch ·), fun hk => (h ⟨hk.1, hk.2.1⟩).elim⟩

end Binary64

namespace Coercion

/-! ## What an integer leaf takes -/

theorem decode?_int_ofInt (t : IntType) (i : Int) :
    (LeafType.int t).decode? (Json.ofInt i) = if t.contains i then some (.int i) else none := by
  unfold LeafType.decode? Json.ofInt
  rw [LeafType.decode]
  split <;> rfl

theorem decode?_int_float (t : IntType) (x : Binary64) :
    (LeafType.int t).decode? (.number (.float x)) = none := by
  simp [LeafType.decode?, LeafType.decode, Except.toOption]

theorem decode?_int_string (t : IntType) (s : String) :
    (LeafType.int t).decode? (.string s) = none := by
  simp [LeafType.decode?, LeafType.decode, Except.toOption]

/-- An integer leaf takes a floating-point number by the integer that it is read as, since
neither the number itself nor its text is one. -/
theorem coerce?_int_float (t : IntType) (x : Binary64) :
    coerce? (.int t) (.number (.float x)) = ((narrow? x).filter t.contains).map Cell.int := by
  have hreadings : readings (.number (.float x)) =
      (narrow? x).toList.map Json.ofInt ++ [.string (JsonNumber.float x).text] := rfl
  unfold coerce? firstAccepted
  rw [List.findSome?_cons, decode?_int_float, hreadings]
  dsimp only
  cases narrow? x with
  | none =>
    rw [Option.toList_none, List.map_nil, List.nil_append, List.findSome?_cons, decode?_int_string]
    rfl
  | some i =>
    rw [Option.toList_some, List.map_singleton, List.singleton_append, List.findSome?_cons,
      decode?_int_ofInt]
    by_cases hin : t.contains i = true
    · rw [if_pos hin, Option.filter_some, if_pos hin, Option.map_some]
    · rw [if_neg hin, List.findSome?_cons, decode?_int_string, Option.filter_some, if_neg hin]
      rfl

/-- The least value of a type of at most 64 bits is a signed 64-bit integer. -/
theorem neg_power_le_least {t : IntType} (ht : t.bits ≤ 64) : -2 ^ 63 ≤ t.least := by
  have hpow : 2 ^ (t.bits - 1) ≤ 2 ^ 63 := Nat.pow_le_pow_right (by decide) (by omega)
  unfold IntType.least
  rw [Nat.pow_eq]
  split <;> omega

section

variable {t : IntType} {x : Binary64} {k : Int}

/-- An integral number is read as an integer between the bounds, which can both be met. -/
theorem narrow?_of_toInt? (hvalue : x.toInt? = some k) :
    narrow? x = if -2 ^ 63 ≤ k ∧ k ≤ 2 ^ 63 then some (min k (2 ^ 63 - 1)) else none := by
  unfold narrow?
  rw [hvalue]
  rfl

/-- A number that is read as an integer is taken when this integer is in the range. -/
theorem coerce?_eq_some_iff (hread : narrow? x = some k) (cell : Cell) :
    coerce? (.int t) (.number (.float x)) = some cell ↔ t.contains k = true ∧ cell = .int k := by
  rw [coerce?_int_float, hread, Option.filter_some]
  by_cases hin : t.contains k = true
  · rw [if_pos hin, Option.map_some, Option.some_inj]
    exact ⟨fun h => ⟨hin, h.symm⟩, fun h => h.2.symm⟩
  · rw [if_neg hin]
    exact ⟨(nomatch ·), fun h => (hin h.1).elim⟩

theorem coerce?_eq_none (hread : narrow? x = none) :
    coerce? (.int t) (.number (.float x)) = none := by
  rw [coerce?_int_float, hread]
  rfl

/-- Below two to the power of 63 the range of the type decides. -/
theorem coerce?_below (ht : t.bits ≤ 64) (hvalue : x.toInt? = some k) (hbelow : k < 2 ^ 63)
    (cell : Cell) :
    coerce? (.int t) (.number (.float x)) = some cell ↔ t.contains k = true ∧ cell = .int k := by
  by_cases hleast : -2 ^ 63 ≤ k
  · have hread : narrow? x = some k := by
      rw [narrow?_of_toInt? hvalue, if_pos ⟨hleast, hbelow.le⟩, min_eq_left (by omega)]
    exact coerce?_eq_some_iff hread cell
  · have hout : ¬t.contains k = true := fun hin =>
      hleast ((neg_power_le_least ht).trans (IntType.contains_iff.1 hin).1)
    rw [coerce?_eq_none ((narrow?_of_toInt? hvalue).trans (if_neg fun h => hleast h.1))]
    exact ⟨(nomatch ·), fun h => (hout h.1).elim⟩

/-- A leaf of an integer type of at most 64 bits and an integral number. Below two to the
power of 63 the leaf takes it exactly when it is in the range of the type, and holds that
integer. That power is taken as the integer before it, and nothing above it is taken. -/
theorem narrows_integral (ht : t.bits ≤ 64) (hx : x.isFinite = true) (hk : x.toRat = k) :
    (k < 2 ^ 63 → ∀ cell, coerce? (.int t) (.number (.float x)) = some cell ↔
      t.contains k = true ∧ cell = .int k) ∧
    (k = 2 ^ 63 → ∀ cell, coerce? (.int t) (.number (.float x)) = some cell ↔
      t.contains (2 ^ 63 - 1) = true ∧ cell = .int (2 ^ 63 - 1)) ∧
    (2 ^ 63 < k → coerce? (.int t) (.number (.float x)) = none) := by
  have hvalue : x.toInt? = some k := (Binary64.toInt?_eq_some_iff x k).2 ⟨hx, hk⟩
  refine ⟨coerce?_below ht hvalue, fun hpower => ?_, fun habove => ?_⟩
  · -- the power itself passes the test of the bounds, and is cut down by the conversion
    have hread : narrow? x = some (2 ^ 63 - 1) := by
      rw [narrow?_of_toInt? hvalue, hpower]
      rfl
    exact coerce?_eq_some_iff hread
  · exact coerce?_eq_none ((narrow?_of_toInt? hvalue).trans (if_neg fun h => not_lt.2 h.2 habove))

end

/-- The least signed 64-bit integer is a floating-point number, and a leaf takes it. -/
theorem narrows_integral_least :
    coerce? (.int ⟨true, 64⟩) (.number (.float ⟨0xC3E0000000000000#64⟩)) =
      some (.int (-9223372036854775808)) := by
  have hvalue := (Binary64.toInt?_eq_some_iff ⟨0xC3E0000000000000#64⟩ (-9223372036854775808)).1
    (by decide +kernel)
  have hbelow := (narrows_integral (t := ⟨true, 64⟩) (by decide) hvalue.1 hvalue.2).1 (by decide)
  exact (hbelow _).2 ⟨by decide, rfl⟩

/-- Two to the power of 63 is an unsigned 64-bit integer and a floating-point number, but a
leaf takes it as the integer before it. -/
theorem power_narrows_below_itself :
    (Binary64.mk 0x43E0000000000000#64).isFinite = true ∧
    (Binary64.mk 0x43E0000000000000#64).toRat = (9223372036854775808 : Int) ∧
    (IntType.mk false 64).contains 9223372036854775808 = true ∧
    (IntType.mk true 64).contains 9223372036854775808 = false ∧
    (∀ signed, coerce? (.int ⟨signed, 64⟩) (.number (.float ⟨0x43E0000000000000#64⟩)) =
      some (.int 9223372036854775807)) := by
  have hvalue := (Binary64.toInt?_eq_some_iff ⟨0x43E0000000000000#64⟩ 9223372036854775808).1
    (by decide +kernel)
  refine ⟨hvalue.1, hvalue.2, by decide, by decide, fun signed => ?_⟩
  have hread : narrow? ⟨0x43E0000000000000#64⟩ = some 9223372036854775807 := by decide +kernel
  rw [coerce?_int_float, hread]
  cases signed <;> rfl

end Coercion

namespace Merger

/-- An integral number below two to the power of 63 that a merge assigns to an integer leaf,
once the validator has granted it: the leaf holds that integer and the change is recorded, or
else the merge fails with the two types. -/
theorem assignLeaf_integral (m : Merger) {full : Path} {patch original : Node} {member : Member}
    {sourceType : LeafType} {t : IntType} {x : Binary64} {k : Int} {position : Nat} {cell : Cell}
    {s s' : Session} (ht : t.bits ≤ 64) (hx : x.isFinite = true) (hk : x.toRat = k)
    (hbelow : k < 2 ^ 63)
    (htarget : original.target? member = some (position, .leaf (.int t) cell))
    (hgrant : (m.validate ⟨full, member.name, .number (.float x), .updateProperty, some original,
      some patch⟩).Succeeds s () s') :
    m.assignLeaf full patch original member sourceType (.float x) s =
      if t.contains k then
        .ok (original.fields.set position (.leaf (.int t) (.int k))) (s'.noting ⟨full, .updated, none⟩)
      else .error (.coercion full (.number (.float x)) sourceType.name (LeafType.int t).name) s' := by
  have htaken := Coercion.coerce?_below ht ((Binary64.toInt?_eq_some_iff x k).2 ⟨hx, hk⟩) hbelow
  have hencode : (Cell.float x).encode = .ok (.number (.float x)) := by
    rw [Cell.encode, Json.ofBinary64, if_pos hx]
  have hvalue : ((Cell.float x).encode.mapError fun fault =>
      MergeError.serialization (.encoding fault)) = .ok (.number (.float x)) := by
    rw [hencode]
    rfl
  unfold assignLeaf
  rw [(Run.Succeeds.of_ofExcept hvalue).bind_eq, hgrant.bind_eq, htarget]
  dsimp only
  by_cases hin : t.contains k = true
  · rw [(htaken _).2 ⟨hin, rfl⟩, if_pos hin]
    rfl
  · have hnone : Coercion.coerce? (.int t) (.number (.float x)) = none :=
      Option.eq_none_iff_forall_ne_some.2 fun c hc => hin ((htaken c).1 hc).1
    rw [hnone, if_neg hin]
    rfl

end Merger

end SelectiveMerge
