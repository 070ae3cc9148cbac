import SelectiveMerge.Number.Numeral
import SelectiveMerge.Text.Blank

/-!
# Decimal numerals of integers

A numeral is one or more digits after at most one sign, and denotes the integer that its
digits make up in the decimal system. `Numeral.int?` reads the numerals and no other texts.
The text of an integer is a numeral that denotes it, and has no blanks to be trimmed.

* `Numeral.Denotes` — what a numeral denotes
* `Numeral.nat?_eq_some_iff`, `Numeral.int?_eq_some_iff` — numerals are read, and nothing else
* `Numeral.unsigned?_eq_some_iff` — what is read when a minus sign is not
* `Numeral.denotes_toString` — the text of an integer
* `Text.trimBlanks_surrounded` — a word between blanks
-/

namespace SelectiveMerge

namespace Numeral

variable {cs : List Char} {n : Nat} {i : Int}

/-! ## Digits -/

/-- A word of one or more digits. -/
structure Digits (cs : List Char) : Prop where
  ne_nil : cs ≠ []
  isDigit : ∀ c ∈ cs, c.isDigit = true

/-- The number that digits make up. -/
def value (cs : List Char) : Nat := Nat.ofDigitChars 10 cs 0

theorem digits_toDigits (n : Nat) : Digits (Nat.toDigits 10 n) :=
  ⟨Nat.toDigits_ne_nil, fun _ hc => Nat.isDigit_of_mem_toDigits (by decide) (by decide) hc⟩

@[simp] theorem value_toDigits (n : Nat) : value (Nat.toDigits 10 n) = n :=
  Nat.ofDigitChars_ten_toDigits

/-- Digits do not begin with another character. -/
theorem Digits.not_cons {c : Char} (hc : c.isDigit = false) : ¬Digits (c :: cs) := by
  intro h
  have hdigit : c.isDigit = true := h.isDigit c List.mem_cons_self
  rw [hc] at hdigit
  cases hdigit

theorem Digits.head?_ne_minus (h : Digits cs) : cs.head? ≠ some '-' := by
  intro hhead
  obtain ⟨rest, rfl⟩ := List.head?_eq_some_iff.1 hhead
  exact not_cons (by decide) h

/-! ## Reading digits -/

/-- Digits are read to their end, each of them counting ten times the one after it. -/
theorem readDigits_of_isDigit (acc : Nat) (h : ∀ c ∈ cs, c.isDigit = true) :
    readDigits acc cs = (Nat.ofDigitChars 10 cs acc, cs.length, []) := by
  induction cs generalizing acc with
  | nil => rfl
  | cons c cs ih =>
    have hc : digit? c = some (c.toNat - 48) := if_pos (h c List.mem_cons_self)
    have hcs := ih (acc * 10 + (c.toNat - 48)) fun d hd => h d (List.mem_cons_of_mem c hd)
    simp only [readDigits, hc, hcs, Nat.ofDigitChars_cons, List.length_cons, Nat.mul_comm 10 acc]
    rfl

theorem isDigit_of_readDigits {acc count : Nat} (h : readDigits acc cs = (n, count, [])) :
    ∀ c ∈ cs, c.isDigit = true := by
  induction cs generalizing acc count with
  | nil => exact fun c hc => absurd hc List.not_mem_nil
  | cons c cs ih =>
    intro d hd
    by_cases hc : c.isDigit = true
    · have hvalue : digit? c = some (c.toNat - 48) := if_pos hc
      simp only [readDigits, hvalue, Prod.mk.injEq] at h
      rcases List.mem_cons.1 hd with rfl | hrest
      · exact hc
      · exact ih (Prod.ext h.1 (Prod.ext rfl h.2.2)) d hrest
    · have hvalue : digit? c = none := if_neg hc
      simp [readDigits, hvalue] at h

theorem nat?_eq_some_iff : nat? cs = some n ↔ Digits cs ∧ value cs = n := by
  constructor
  · intro h
    unfold nat? at h
    split at h
    · rename_i m count hread
      have hdigits := isDigit_of_readDigits hread
      rw [readDigits_of_isDigit 0 hdigits] at hread
      obtain ⟨hvalue, hcount, -⟩ := by simpa only [Prod.mk.injEq] using hread
      refine ⟨⟨?_, hdigits⟩, hvalue.trans (Option.some_inj.1 h)⟩
      rintro rfl
      cases hcount
    · cases h
  · rintro ⟨h, rfl⟩
    have hcount : cs.length = cs.length - 1 + 1 := by
      have := List.length_pos_iff.2 h.ne_nil
      omega
    unfold nat?
    rw [readDigits_of_isDigit 0 h.isDigit, hcount]
    rfl

/-! ## Signs -/

/-- The integers that numerals denote. -/
inductive Denotes : List Char → Int → Prop where
  | plain {digits : List Char} (h : Digits digits) : Denotes digits (value digits)
  | plus {digits : List Char} (h : Digits digits) : Denotes ('+' :: digits) (value digits)
  | minus {digits : List Char} (h : Digits digits) : Denotes ('-' :: digits) (-(value digits : Int))

theorem int?_minus (cs : List Char) :
    int? ('-' :: cs) = (nat? cs).map fun n : Nat => -(n : Int) := by
  have hread : int? ('-' :: cs) = ((nat? cs).bind fun n => some (n : Int)).map fun k => -k := rfl
  rw [hread]
  cases nat? cs <;> rfl

theorem int?_plus (cs : List Char) : int? ('+' :: cs) = (nat? cs).map Int.ofNat := rfl

theorem int?_eq_some_iff : int? cs = some i ↔ Denotes cs i := by
  constructor
  · intro h
    unfold int? at h
    split at h
    · obtain ⟨n, hn, rfl⟩ := Option.map_eq_some_iff.1 ((int?_minus _).symm.trans h)
      obtain ⟨hdigits, rfl⟩ := nat?_eq_some_iff.1 hn
      exact .minus hdigits
    · obtain ⟨n, hn, rfl⟩ := Option.map_eq_some_iff.1 h
      obtain ⟨hdigits, rfl⟩ := nat?_eq_some_iff.1 hn
      exact .plus hdigits
    · obtain ⟨n, hn, rfl⟩ := Option.map_eq_some_iff.1 h
      obtain ⟨hdigits, rfl⟩ := nat?_eq_some_iff.1 hn
      exact .plain hdigits
  · intro h
    cases h with
    | plain h =>
      unfold int?
      split
      · exact absurd h (Digits.not_cons (by decide))
      · exact absurd h (Digits.not_cons (by decide))
      · rw [nat?_eq_some_iff.2 ⟨h, rfl⟩]
        rfl
    | plus h =>
      rw [int?_plus, nat?_eq_some_iff.2 ⟨h, rfl⟩]
      rfl
    | minus h =>
      rw [int?_minus, nat?_eq_some_iff.2 ⟨h, rfl⟩]
      rfl

/-- Without a minus sign the same numerals are read, with the same values. -/
theorem unsigned?_eq_some_iff :
    unsigned? cs = some n ↔ Denotes cs n ∧ cs.head? ≠ some '-' := by
  constructor
  · intro h
    unfold unsigned? at h
    split at h
    · obtain ⟨hdigits, rfl⟩ := nat?_eq_some_iff.1 h
      exact ⟨.plus hdigits, by simp⟩
    · obtain ⟨hdigits, rfl⟩ := nat?_eq_some_iff.1 h
      exact ⟨.plain hdigits, hdigits.head?_ne_minus⟩
  · rintro ⟨h, hhead⟩
    generalize hi : (n : Int) = i at h
    cases h with
    | plain h =>
      unfold unsigned?
      split
      · exact absurd h (Digits.not_cons (by decide))
      · exact nat?_eq_some_iff.2 ⟨h, by omega⟩
    | plus h =>
      unfold unsigned?
      exact nat?_eq_some_iff.2 ⟨h, by omega⟩
    | minus h => exact absurd rfl hhead

/-- A numeral with a minus sign denotes no positive integer. -/
theorem Denotes.head?_ne_minus (h : Denotes cs i) (hi : 0 < i) : cs.head? ≠ some '-' := by
  cases h with
  | plain h => exact h.head?_ne_minus
  | plus h => simp
  | minus h => omega

/-- The text of an integer is a numeral that denotes it. -/
theorem denotes_toString (i : Int) : Denotes (toString i).toList i := by
  cases i with
  | ofNat n =>
    have htext : (toString (Int.ofNat n)).toList = Nat.toDigits 10 n := Nat.toList_repr
    have hvalue : Int.ofNat n = (value (Nat.toDigits 10 n) : Int) := by
      rw [value_toDigits]
      rfl
    rw [htext, hvalue]
    exact .plain (digits_toDigits n)
  | negSucc n =>
    have htext : (toString (Int.negSucc n)).toList = '-' :: Nat.toDigits 10 (n + 1) := by
      rw [← Nat.toList_repr]
      exact String.toList_append
    have hvalue : Int.negSucc n = -(value (Nat.toDigits 10 (n + 1)) : Int) := by
      rw [value_toDigits]
      rfl
    rw [htext, hvalue]
    exact .minus (digits_toDigits (n + 1))

/-! ## Blanks -/

theorem isBlank_of_isDigit {c : Char} (h : c.isDigit = true) : Text.isBlank c = false := by
  have hrange := Char.isDigit_iff_toNat.1 h
  simp only [Text.isBlank, Bool.or_eq_false_iff, Bool.and_eq_false_iff, decide_eq_false_iff_not,
    beq_eq_false_iff_ne]
  have hzero : '0'.toNat = 48 := rfl
  have hnine : '9'.toNat = 57 := rfl
  omega

theorem Denotes.isBlank_eq_false (h : Denotes cs i) : ∀ c ∈ cs, Text.isBlank c = false := by
  have hdigits {digits : List Char} (h : Digits digits) : ∀ c ∈ digits, Text.isBlank c = false :=
    fun c hc => isBlank_of_isDigit (h.isDigit c hc)
  cases h with
  | plain h => exact hdigits h
  | plus h => exact List.forall_mem_cons.2 ⟨by decide, hdigits h⟩
  | minus h => exact List.forall_mem_cons.2 ⟨by decide, hdigits h⟩

theorem Denotes.ne_nil (h : Denotes cs i) : cs ≠ [] := by
  cases h with
  | plain h => exact h.ne_nil
  | plus h => exact List.cons_ne_nil _ _
  | minus h => exact List.cons_ne_nil _ _

end Numeral

namespace Text

/-- The blanks before a word that begins with none are dropped, and nothing else. -/
theorem dropWhile_isBlank_append {blanks rest : List Char} (h : ∀ c ∈ blanks, isBlank c = true)
    (hrest : ∀ c, rest.head? = some c → isBlank c = false) :
    (blanks ++ rest).dropWhile isBlank = rest := by
  rw [List.dropWhile_append_of_pos h]
  cases rest with
  | nil => rfl
  | cons c cs => rw [List.dropWhile_cons_of_neg (by simp [hrest c rfl])]

/-- A word without blanks is what remains of it between blanks. -/
theorem trimBlanks_surrounded {before word after : List Char}
    (hbefore : ∀ c ∈ before, isBlank c = true) (hword : ∀ c ∈ word, isBlank c = false)
    (hne : word ≠ []) (hafter : ∀ c ∈ after, isBlank c = true) :
    trimBlanks (before ++ (word ++ after)) = word := by
  obtain ⟨first, rest, hfirst⟩ := List.exists_cons_of_ne_nil hne
  have hstart : (before ++ (word ++ after)).dropWhile isBlank = word ++ after := by
    refine dropWhile_isBlank_append hbefore fun c hc => ?_
    rw [hfirst] at hc hword
    obtain rfl : first = c := by simpa using hc
    exact hword first List.mem_cons_self
  have hend : (after.reverse ++ word.reverse).dropWhile isBlank = word.reverse := by
    refine dropWhile_isBlank_append (by simpa using hafter) fun c hc => ?_
    exact hword c (List.mem_reverse.1 (List.mem_of_mem_head? hc))
  rw [trimBlanks, hstart, List.reverse_append, hend, List.reverse_reverse]

end Text

end SelectiveMerge
