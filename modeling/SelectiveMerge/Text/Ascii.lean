/-!
# ASCII case folding

Member names, path segments and removal markers are compared without regard to
the case of the letters `A` to `Z`. Every other character, accented letters
included, counts as it stands. The main statements say that the comparison is
equality of folded texts, hence an equivalence.
-/

namespace SelectiveMerge.Text

/-- The text with each of the letters `A` to `Z` replaced by its small letter. -/
def foldCase (s : String) : String := String.ofList (s.toList.map Char.toLower)

/-- Equality up to the case of ASCII letters. -/
def eqIgnoreCase (a b : String) : Bool := foldCase a == foldCase b

theorem eqIgnoreCase_iff {a b : String} : eqIgnoreCase a b = true ↔ foldCase a = foldCase b := by
  simp [eqIgnoreCase]

@[simp] theorem eqIgnoreCase_refl (a : String) : eqIgnoreCase a a = true := by
  simp [eqIgnoreCase]

theorem eqIgnoreCase_comm (a b : String) : eqIgnoreCase a b = eqIgnoreCase b a := by
  simp only [eqIgnoreCase, Bool.beq_comm]

end SelectiveMerge.Text
