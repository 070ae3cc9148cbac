import SelectiveMerge.Proofs.Narrowing
import SelectiveMerge.Proofs.Numerals

/-!
# Integers and truth values through text

A text leaf takes an integer or a truth value as its text, and a leaf of the old type takes
the same value from this text, with any blanks around it. A text of any other kind never
becomes an integer: what an integer leaf takes from a text is what the text, trimmed, denotes
as a numeral. All of this holds for nullable leaves as well.

* `LeafType.nullable`, `Cell.present` — nullable types and the values that are there
* `Coercion.coerce?_nullable` — a nullable leaf takes what the leaf takes
* `Coercion.textNumber?_eq_ofInt_iff` — the integers that are read from texts
* `Coercion.coerce?_int_string_iff` — what an integer leaf takes from a text
* `Coercion.PassesThroughText` — a value that is the same after it was a text
* `Coercion.lossless_through_text` — integers and truth values are, and no texts but numerals
  become integers
-/

namespace SelectiveMerge

/-! ## Nullable leaves -/

/-- The type that is made nullable a number of times. -/
def LeafType.nullable : Nat → LeafType → LeafType
  | 0, t => t
  | n + 1, t => .option (nullable n t)

/-- The value of a type that is made nullable a number of times, when there is a value. -/
def Cell.present : Nat → Cell → Cell
  | 0, c => c
  | n + 1, c => .option (some (present n c))

theorem Cell.encode_present (n : Nat) (c : Cell) : (c.present n).encode = c.encode := by
  induction n with
  | zero => rfl
  | succ n ih => rw [Cell.present, Cell.encode, ih]

theorem LeafType.decode?_option (t : LeafType) {j : Json} (h : j ≠ .null) :
    (LeafType.option t).decode? j = (t.decode? j).map fun c => .option (some c) := by
  unfold decode?
  rw [LeafType.decode]
  · cases t.decode j <;> rfl
  · exact h

/-- Only `null` is read otherwise because the type is nullable. -/
theorem LeafType.decode?_nullable (n : Nat) (t : LeafType) {j : Json} (h : j ≠ .null) :
    (t.nullable n).decode? j = (t.decode? j).map (Cell.present n) := by
  induction n with
  | zero => cases hdecode : t.decode? j <;> simp [LeafType.nullable, hdecode, Cell.present]
  | succ n ih =>
    rw [LeafType.nullable, LeafType.decode?_option _ h, ih, Option.map_map]
    rfl

theorem LeafType.findSome?_nullable (n : Nat) (t : LeafType) {js : List Json}
    (h : ∀ j ∈ js, j ≠ .null) :
    js.findSome? (t.nullable n).decode? = (js.findSome? t.decode?).map (Cell.present n) := by
  induction js with
  | nil => rfl
  | cons j js ih =>
    obtain ⟨hj, hjs⟩ := List.forall_mem_cons.1 h
    rw [List.findSome?_cons, List.findSome?_cons, LeafType.decode?_nullable n t hj, ih hjs]
    cases t.decode? j <;> rfl

namespace Coercion

variable {t : IntType} {i : Int} {cs : List Char} {j : Json}

theorem exists_of_textNumber? (h : textNumber? cs = some j) : ∃ n, j = .number n := by
  unfold textNumber? at h
  dsimp only at h
  split at h
  · exact ⟨_, (Option.some_inj.1 h).symm⟩
  · exact ⟨_, (Option.some_inj.1 h).symm⟩
  · obtain ⟨x, -, hx⟩ := Option.map_eq_some_iff.1 h
    exact ⟨_, hx.symm⟩

theorem exists_of_textBool? (h : textBool? cs = some j) : ∃ b, j = .bool b := by
  unfold textBool? at h
  dsimp only at h
  split_ifs at h
  · exact ⟨true, (Option.some_inj.1 h).symm⟩
  · exact ⟨false, (Option.some_inj.1 h).symm⟩

/-- A text is read as a number, as a truth value, or not at all. -/
theorem readings_string (s : String) : readings (.string s) =
    (textNumber? (Text.trimBlanks s.toList)).toList ++
      (textBool? (Text.trimBlanks s.toList)).toList := rfl

/-- No reading of a value is `null`. -/
theorem ne_null_of_mem_readings {j' : Json} (h : j' ∈ readings j) : j' ≠ .null := by
  rintro rfl
  cases j with
  | null | array _ | object _ => exact List.not_mem_nil h
  | bool b => simp [readings, Json.ofNat] at h
  | number n => cases n <;> simp [readings, numberReadings, Json.ofInt] at h
  | string s =>
    rw [readings_string] at h
    rcases List.mem_append.1 h with hnumber | hbool
    · obtain ⟨n, hn⟩ := exists_of_textNumber? (Option.mem_toList.1 hnumber)
      cases hn
    · obtain ⟨b, hb⟩ := exists_of_textBool? (Option.mem_toList.1 hbool)
      cases hb

/-- A nullable leaf takes what the leaf takes, unless it is `null`. -/
theorem coerce?_nullable (n : Nat) (t : LeafType) (h : j ≠ .null) :
    coerce? (t.nullable n) j = (coerce? t j).map (Cell.present n) := by
  refine LeafType.findSome?_nullable n t fun j' hj' => ?_
  rcases List.mem_cons.1 hj' with rfl | hreading
  · exact h
  · exact ne_null_of_mem_readings hreading

/-! ## Texts of integers and truth values -/

/-- Neither the integer nor the floating-point number next to it is a text. -/
theorem coerce?_text_int (i : Int) : coerce? .text (Json.ofInt i) = some (.text (toString i)) :=
  rfl

theorem coerce?_text_bool (b : Bool) :
    coerce? .text (.bool b) = some (.text (if b then "true" else "false")) := rfl

/-! ## Integers from texts -/

theorem contains_signed_iff :
    (IntType.mk true 64).contains i = true ↔ -2 ^ 63 ≤ i ∧ i < 2 ^ 63 := by
  have hpower : Nat.pow 2 63 = 2 ^ 63 := rfl
  simp only [IntType.contains_iff, IntType.least, IntType.greatest, if_true, hpower]
  omega

theorem contains_unsigned_iff :
    (IntType.mk false 64).contains i = true ↔ 0 ≤ i ∧ i < 2 ^ 64 := by
  have hpower : Nat.pow 2 64 = 2 ^ 64 := rfl
  simp only [IntType.contains_iff, IntType.least, IntType.greatest, Bool.false_eq_true, if_false,
    hpower]
  omega

theorem fitsInt_iff : Json.fitsInt i = true ↔ -2 ^ 63 ≤ i ∧ i < 2 ^ 64 := by
  simp [Json.fitsInt]

/-- The integers of a type of at most 64 bits are JSON numbers. -/
theorem fitsInt_of_contains (ht : t.bits ≤ 64) (h : t.contains i = true) :
    Json.fitsInt i = true := by
  obtain ⟨hleast, hgreatest⟩ := IntType.contains_iff.1 h
  refine fitsInt_iff.2 ⟨(neg_power_le_least ht).trans hleast, hgreatest.trans_lt ?_⟩
  have hsigned : 2 ^ (t.bits - 1) ≤ 2 ^ 63 := Nat.pow_le_pow_right (by decide) (by omega)
  have hunsigned : 2 ^ t.bits ≤ 2 ^ 64 := Nat.pow_le_pow_right (by decide) ht
  unfold IntType.greatest
  rw [Nat.pow_eq, Nat.pow_eq]
  split <;> omega

/-- A numeral is read as the integer that it denotes, if this is a signed or an unsigned
integer of 64 bits. Other texts are read as no integers. -/
theorem textNumber?_eq_ofInt_iff :
    textNumber? cs = some (Json.ofInt i) ↔ Numeral.Denotes cs i ∧ Json.fitsInt i = true := by
  unfold textNumber?
  dsimp only
  constructor
  · intro h
    split at h
    · rename_i k hsigned
      obtain ⟨hread, hin⟩ := Option.filter_eq_some_iff.1 hsigned
      obtain rfl : k = i := by simpa [Json.ofInt] using h
      exact ⟨Numeral.int?_eq_some_iff.1 hread, fitsInt_of_contains (by decide) hin⟩
    · rename_i n _ hunsigned
      obtain ⟨hread, hin⟩ := Option.filter_eq_some_iff.1 hunsigned
      obtain rfl : (n : Int) = i := by simpa [Json.ofInt, Json.ofNat] using h
      exact ⟨(Numeral.unsigned?_eq_some_iff.1 hread).1, fitsInt_of_contains (by decide) hin⟩
    · simp [Json.ofInt] at h
  · rintro ⟨hdenotes, hfits⟩
    have hread : Numeral.int? cs = some i := Numeral.int?_eq_some_iff.2 hdenotes
    obtain ⟨hleast, hgreatest⟩ := fitsInt_iff.1 hfits
    by_cases hsigned : i < 2 ^ 63
    · have hin : (IntType.mk true 64).contains i = true := contains_signed_iff.2 ⟨hleast, hsigned⟩
      rw [hread, Option.filter_some, if_pos hin]
    · -- the numeral has no minus sign, since it denotes a positive integer
      obtain ⟨n, rfl⟩ := Int.eq_ofNat_of_zero_le (by omega : 0 ≤ i)
      have hunsigned : Numeral.unsigned? cs = some n :=
        Numeral.unsigned?_eq_some_iff.2 ⟨hdenotes, hdenotes.head?_ne_minus (by omega)⟩
      have hout : ¬(IntType.mk true 64).contains n = true := fun hin =>
        hsigned (contains_signed_iff.1 hin).2
      have hin : (IntType.mk false 64).contains n = true :=
        contains_unsigned_iff.2 ⟨by omega, hgreatest⟩
      rw [hread, hunsigned, Option.filter_some, if_neg hout, Option.filter_some, if_pos hin]
      rfl

theorem decode?_int_eq_some_iff {cell : Cell} : (LeafType.int t).decode? j = some cell ↔
    ∃ i, j = Json.ofInt i ∧ t.contains i = true ∧ cell = .int i := by
  constructor
  · intro h
    cases j with
    | number n =>
      cases n with
      | int i =>
        have hdecode := (decode?_int_ofInt t i).symm.trans h
        split at hdecode
        · exact ⟨i, rfl, ‹_›, (Option.some_inj.1 hdecode).symm⟩
        · cases hdecode
      | float x => cases (decode?_int_float t x).symm.trans h
    | _ => simp [LeafType.decode?, LeafType.decode, Except.toOption] at h
  · rintro ⟨i, rfl, hin, rfl⟩
    rw [decode?_int_ofInt, if_pos hin]

/-- An integer leaf reads a text as a number, since no truth value is one. -/
theorem coerce?_int_string (t : IntType) (s : String) :
    coerce? (.int t) (.string s) =
      (textNumber? (Text.trimBlanks s.toList)).bind (LeafType.int t).decode? := by
  have hbool : (textBool? (Text.trimBlanks s.toList)).toList.findSome? (LeafType.int t).decode? =
      none := by
    refine List.findSome?_eq_none_iff.2 fun j hj => ?_
    obtain ⟨b, rfl⟩ := exists_of_textBool? (Option.mem_toList.1 hj)
    refine Option.eq_none_iff_forall_ne_some.2 fun cell hcell => ?_
    obtain ⟨i, hi, -⟩ := decode?_int_eq_some_iff.1 hcell
    cases hi
  unfold coerce? firstAccepted
  rw [List.findSome?_cons, decode?_int_string, readings_string, List.findSome?_append,
    hbool, Option.or_none]
  cases textNumber? (Text.trimBlanks s.toList) with
  | none => rfl
  | some j => exact List.findSome?_singleton

/-- An integer leaf takes a text just when, without the blanks around it, it is a numeral of
an integer of the type that is a JSON number. -/
theorem coerce?_int_string_iff {s : String} {cell : Cell} :
    coerce? (.int t) (.string s) = some cell ↔
      ∃ i, Numeral.Denotes (Text.trimBlanks s.toList) i ∧ Json.fitsInt i = true ∧
        t.contains i = true ∧ cell = .int i := by
  rw [coerce?_int_string, Option.bind_eq_some_iff]
  constructor
  · rintro ⟨j, hnumber, hdecode⟩
    obtain ⟨i, rfl, hin, rfl⟩ := decode?_int_eq_some_iff.1 hdecode
    obtain ⟨hdenotes, hfits⟩ := textNumber?_eq_ofInt_iff.1 hnumber
    exact ⟨i, hdenotes, hfits, hin, rfl⟩
  · rintro ⟨i, hdenotes, hfits, hin, rfl⟩
    exact ⟨Json.ofInt i, textNumber?_eq_ofInt_iff.2 ⟨hdenotes, hfits⟩,
      decode?_int_eq_some_iff.2 ⟨i, rfl, hin, rfl⟩⟩

/-! ## Truth values from texts -/

/-- The words of the truth values are no numerals. -/
theorem coerce?_bool_string {s : String} {b : Bool}
    (h : Text.trimBlanks s.toList = (if b then "true" else "false").toList) :
    coerce? .bool (.string s) = some (.bool b) := by
  have hnumber : textNumber? (Text.trimBlanks s.toList) = none := by
    rw [h]
    cases b <;> decide
  have hbool : textBool? (Text.trimBlanks s.toList) = some (.bool b) := by
    rw [h]
    cases b <;> decide
  unfold coerce? firstAccepted
  rw [readings_string, hnumber, hbool]
  rfl

/-! ## There and back -/

/-- A leaf value arrives as `text` at a text leaf, and this text, with any blanks around it,
arrives as the value at a leaf of the type, each of the three leaves being nullable any number
of times. -/
def PassesThroughText (type : LeafType) (cell : Cell) (text : String) : Prop :=
  ∀ k m n : Nat, ∃ value,
    (cell.present k).encode = .ok value ∧
    coerce? (LeafType.text.nullable m) value = some ((Cell.text text).present m) ∧
    ∀ before after : List Char, (∀ c ∈ before, Text.isBlank c = true) →
      (∀ c ∈ after, Text.isBlank c = true) → ∃ surrounded,
        ((Cell.text (String.ofList (before ++ (text.toList ++ after)))).present m).encode =
          .ok surrounded ∧
        coerce? (type.nullable n) surrounded = some (cell.present n)

/-- A value passes through a word without blanks if a text leaf takes the word from its JSON
form, and a leaf of its type takes the value from every text that is the word when trimmed. -/
theorem PassesThroughText.of_coerce? {type : LeafType} {cell : Cell} {text : String}
    {value : Json} (hencode : cell.encode = .ok value) (hvalue : value ≠ .null)
    (htext : coerce? .text value = some (.text text))
    (hback : ∀ s : String, Text.trimBlanks s.toList = text.toList →
      coerce? type (.string s) = some cell)
    (hword : ∀ c ∈ text.toList, Text.isBlank c = false) (hne : text.toList ≠ []) :
    PassesThroughText type cell text := by
  intro k m n
  refine ⟨value, by rw [Cell.encode_present, hencode], ?_, fun before after hbefore hafter => ?_⟩
  · rw [coerce?_nullable m .text hvalue, htext]
    rfl
  · refine ⟨.string (String.ofList (before ++ (text.toList ++ after))), ?_, ?_⟩
    · rw [Cell.encode_present, Cell.encode]
    · have htrimmed : Text.trimBlanks (String.ofList (before ++ (text.toList ++ after))).toList =
          text.toList := by
        rw [String.toList_ofList]
        exact Text.trimBlanks_surrounded hbefore hword hne hafter
      rw [coerce?_nullable n type (by simp), hback _ htrimmed]
      rfl

/-- Integers of at most 64 bits and truth values pass through their texts. A text that an
integer leaf takes is, without the blanks around it, a numeral, and the leaf holds the integer
that the numeral denotes. -/
theorem lossless_through_text :
    (∀ (t : IntType) (i : Int), t.bits ≤ 64 → t.contains i = true →
      PassesThroughText (.int t) (.int i) (toString i)) ∧
    (∀ b : Bool, PassesThroughText .bool (.bool b) (if b then "true" else "false")) ∧
    ∀ (t : IntType) (n : Nat) (s : String) (cell : Cell),
      coerce? ((LeafType.int t).nullable n) (.string s) = some cell →
        ∃ i, Numeral.Denotes (Text.trim s).toList i ∧ cell = (Cell.int i).present n := by
  refine ⟨fun t i ht hin => ?_, fun b => ?_, fun t n s cell h => ?_⟩
  · have hfits : Json.fitsInt i = true := fitsInt_of_contains ht hin
    have hdenotes : Numeral.Denotes (toString i).toList i := Numeral.denotes_toString i
    have hencode : (Cell.int i).encode = .ok (Json.ofInt i) := if_pos hfits
    refine .of_coerce? hencode (by simp [Json.ofInt]) (coerce?_text_int i) (fun s hs => ?_)
      hdenotes.isBlank_eq_false hdenotes.ne_nil
    exact coerce?_int_string_iff.2 ⟨i, hs ▸ hdenotes, hfits, hin, rfl⟩
  · have hencode : (Cell.bool b).encode = .ok (.bool b) := rfl
    have hword : (if b then "true" else "false").toList.all (!Text.isBlank ·) = true := by
      cases b <;> rfl
    refine .of_coerce? hencode (by simp) (coerce?_text_bool b)
      (fun s hs => coerce?_bool_string hs) (by simpa using List.all_eq_true.1 hword) ?_
    cases b <;> decide
  · rw [coerce?_nullable n (.int t) (by simp)] at h
    obtain ⟨held, htaken, rfl⟩ := Option.map_eq_some_iff.1 h
    obtain ⟨i, hdenotes, -, -, rfl⟩ := coerce?_int_string_iff.1 htaken
    refine ⟨i, ?_, rfl⟩
    rwa [Text.trim, String.toList_ofList]

/-- The greatest unsigned integer of 64 bits is read as one although it is no signed one, and
a plus sign, zeros and blanks before a numeral do not count. -/
theorem lossless_through_text_greatest :
    (IntType.mk false 64).contains 18446744073709551615 = true ∧
    PassesThroughText (.int ⟨false, 64⟩) (.int 18446744073709551615) "18446744073709551615" ∧
    coerce? (.option (.int ⟨false, 8⟩)) (.string " +007") = some (.option (some (.int 7))) ∧
    ∃ i, Numeral.Denotes (Text.trim " +007").toList i ∧
      Cell.option (some (.int 7)) = (Cell.int i).present 1 := by
  obtain ⟨hinteger, -, hnumeral⟩ := lossless_through_text
  have hin : (IntType.mk false 64).contains 18446744073709551615 = true := by decide
  have htaken : coerce? (.option (.int ⟨false, 8⟩)) (.string " +007") =
      some (.option (some (.int 7))) := rfl
  exact ⟨hin, hinteger ⟨false, 64⟩ 18446744073709551615 (by decide) hin, htaken,
    hnumeral ⟨false, 8⟩ 1 " +007" _ htaken⟩

end Coercion

end SelectiveMerge
