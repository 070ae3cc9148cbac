import Mathlib.Algebra.Group.Nat.Defs
import Mathlib.Data.List.Basic
import SelectiveMerge.Leaf.Coercion
import SelectiveMerge.Uuid

/-!
# Texts of identifiers

The text of an identifier is read back as that identifier, digit by digit. So an identity
that is taken over from a patch by way of its JSON form arrives as it was.

* `Uuid.readHex_hexDigits` — the digits of a number
* `Uuid.ofText?_toText` — the text of an identifier
* `coerce?_encode_uuid` — an identifier that is taken over
-/

namespace SelectiveMerge

namespace Uuid

theorem hexValue?_hexDigit : ∀ n < 16, hexValue? (hexDigit n) = some n := by decide

theorem length_hexDigits (count n : Nat) : (hexDigits count n).length = count := by
  induction count generalizing n with
  | zero => rfl
  | succ count ih => rw [hexDigits, List.length_append, ih, List.length_singleton]

/-- A digit more counts for itself and shifts those before it. -/
theorem readHex_append_singleton (cs : List Char) (c : Char) :
    readHex (cs ++ [c]) = (readHex cs).bind fun n => (hexValue? c).map (n * 16 + ·) := by
  unfold readHex
  rw [List.foldlM_append]
  refine Option.bind_congr fun n _ => ?_
  rw [List.foldlM_cons]
  cases hexValue? c <;> rfl

theorem readHex_hexDigits (count n : Nat) : readHex (hexDigits count n) = some (n % 16 ^ count) := by
  induction count generalizing n with
  | zero => rw [Nat.pow_zero, Nat.mod_one]; rfl
  | succ count ih =>
    have hdigit := hexValue?_hexDigit (n % 16) (Nat.mod_lt _ (by decide))
    have hmod : n / 16 % 16 ^ count * 16 + n % 16 = n % 16 ^ (count + 1) := by
      rw [Nat.pow_succ, Nat.mul_comm (16 ^ count) 16, Nat.mod_mul]
      omega
    rw [hexDigits, readHex_append_singleton, ih, Option.bind_some, hdigit, Option.map_some, hmod]

/-- Thirty-two digits are found again between the hyphens. -/
theorem unhyphenate?_hyphenate {ds : List Char} (h : ds.length = 32) :
    unhyphenate? (hyphenate ds) = some ds := by
  -- the five groups, and where each of them starts
  obtain ⟨a, b, c, d, e, rfl, ha, hb, hc, hd⟩ : ∃ a b c d e, ds = a ++ (b ++ (c ++ (d ++ e))) ∧
      a.length = 8 ∧ b.length = 4 ∧ c.length = 4 ∧ d.length = 4 := by
    refine ⟨ds.take 8, (ds.drop 8).take 4, (ds.drop 12).take 4, (ds.drop 16).take 4, ds.drop 20,
      ?_, by simp [h], by simp [h], by simp [h], by simp [h]⟩
    rw [← List.drop_drop (i := 4) (j := 16), List.take_append_drop, ← List.drop_drop (i := 4) (j := 12),
      List.take_append_drop, ← List.drop_drop (i := 4) (j := 8), List.take_append_drop,
      List.take_append_drop]
  have hjoined : hyphenate (a ++ (b ++ (c ++ (d ++ e)))) =
      a ++ '-' :: (b ++ '-' :: (c ++ '-' :: (d ++ '-' :: e))) := by
    simp [hyphenate, List.drop_append, List.drop_eq_nil_of_le, ha, hb, hc, hd]
  have hdigits : (hyphenate (a ++ (b ++ (c ++ (d ++ e))))).take 8 ++
      ((hyphenate (a ++ (b ++ (c ++ (d ++ e))))).drop 9).take 4 ++
      ((hyphenate (a ++ (b ++ (c ++ (d ++ e))))).drop 14).take 4 ++
      ((hyphenate (a ++ (b ++ (c ++ (d ++ e))))).drop 19).take 4 ++
      (hyphenate (a ++ (b ++ (c ++ (d ++ e))))).drop 24 = a ++ (b ++ (c ++ (d ++ e))) := by
    rw [hjoined]
    simp [List.drop_append, List.drop_eq_nil_of_le, ha, hb, hc, hd]
  unfold unhyphenate?
  rw [hdigits, if_pos rfl]

/-- The text of an identifier is read as that identifier. -/
theorem ofText?_toText (u : Uuid) : ofText? u.toText = some u := by
  have hlength := length_hexDigits 32 u.bits.toNat
  have htext : u.toText.toList = hyphenate (hexDigits 32 u.bits.toNat) := String.toList_ofList
  have hthirtysix : u.toText.toList.length = 36 := by
    rw [htext]
    simp [hyphenate, hlength]
  have hread : ofDigits? (hexDigits 32 u.bits.toNat) = some u := by
    have hlt : u.bits.toNat < 16 ^ 32 := u.bits.isLt
    have hbits : BitVec.ofNat 128 u.bits.toNat = u.bits := by simp
    rw [ofDigits?, if_pos hlength, readHex_hexDigits, Nat.mod_eq_of_lt hlt, Option.map_some, hbits]
  unfold ofText?
  simp only [hthirtysix]
  rw [htext, ofHyphenated?, unhyphenate?_hyphenate hlength, Option.bind_some, hread]

end Uuid

/-- The text of an identifier is taken over as that identifier. -/
theorem coerce?_toText (u : Uuid) :
    Coercion.coerce? .uuid (.string u.toText) = some (.uuid u) := by
  have hdecode : LeafType.uuid.decode? (.string u.toText) = some (.uuid u) := by
    unfold LeafType.decode?
    rw [LeafType.decode, Uuid.read, Uuid.ofText?_toText]
    rfl
  unfold Coercion.coerce? Coercion.firstAccepted
  rw [List.findSome?_cons, hdecode]

/-- An identifier that is taken over by way of its JSON form arrives as it was. -/
theorem coerce?_encode_uuid {u : Uuid} {json : Json} {cell : Cell}
    (hencode : (Cell.uuid u).encode = .ok json)
    (hcoerce : Coercion.coerce? .uuid json = some cell) : cell = .uuid u := by
  rw [Cell.encode] at hencode
  rw [← Except.ok.inj hencode, coerce?_toText] at hcoerce
  exact (Option.some_inj.1 hcoerce).symm

end SelectiveMerge
