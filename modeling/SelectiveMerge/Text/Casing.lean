import SelectiveMerge.Text.CaseTable

/-!
# Capital and small letters

The full case mapping of the Unicode standard, character by character. The form of
a character may be several characters: the capital form of `ß` is `SS`.
-/

namespace SelectiveMerge.Text

/-- The form of a character that runs and expansions give. -/
def mapCase (runs : List CaseRun) (expansions : List (Nat × List Nat)) (c : Char) : List Char :=
  match expansions.find? fun e => e.1 == c.toNat with
  | some (_, form) => form.map Char.ofNat
  | none =>
      match runs.find? fun r => r.covers c.toNat with
      | some r => [Char.ofNat (r.target c.toNat)]
      | none => [c]

/-- The capital form of a character. -/
def capital (c : Char) : List Char := mapCase capitalRuns capitalExpansions c

/-- The small form of a character. -/
def small (c : Char) : List Char := mapCase smallRuns smallExpansions c

/-- The text in capital letters. -/
def upper (s : String) : String := String.ofList (s.toList.flatMap capital)

/-- A word with its first character in capital form. -/
def capitalize : List Char → List Char
  | [] => []
  | c :: cs => capital c ++ cs

/-- A word with its first character in small form. -/
def uncapitalize : List Char → List Char
  | [] => []
  | c :: cs => small c ++ cs

end SelectiveMerge.Text
