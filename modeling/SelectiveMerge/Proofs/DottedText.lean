import SelectiveMerge.Path

/-!
# Paths and their dotted text

A path is written with dots between its segments, and reading it drops the empty ones. So a
path that was read is read again from its text, and a path stands for itself in text just
when no segment of it is empty or has a dot.

* `Path.splitDots_eq_splitOn` — reading splits a text at its dots
* `Path.Legible` — no segment is empty or has a dot
* `Path.legible_parse` — every path that is read is legible
* `Path.parse_toText_of_legible` — a legible path is read from its text
* `Path.parse_toText` — the text of a path that was read, and the paths that stand for
  themselves in text
-/

namespace SelectiveMerge.Path

/-! ## Splitting at dots -/

theorem splitDots_eq_splitOn (cs : List Char) : splitDots cs = cs.splitOn '.' := by
  induction cs with
  | nil => rfl
  | cons c cs ih =>
    rw [splitDots, List.splitOn_cons_eq_if_modifyHead, ih]
    by_cases hc : c = '.'
    · rw [if_pos hc, if_pos (beq_iff_eq.2 hc)]
    · rw [if_neg hc, if_neg (by simpa using hc)]
      cases hwords : cs.splitOn '.' with
      | nil => exact absurd hwords (List.splitOn_ne_nil '.' cs)
      | cons word words => rfl

/-- A word between dots has no dot. -/
theorem dot_notMem_of_mem_splitDots {cs word : List Char} (h : word ∈ splitDots cs) :
    '.' ∉ word := by
  induction cs generalizing word with
  | nil =>
    obtain rfl : word = [] := by simpa [splitDots] using h
    exact List.not_mem_nil
  | cons c cs ih =>
    unfold splitDots at h
    by_cases hc : c = '.'
    · rw [if_pos hc] at h
      rcases List.mem_cons.1 h with rfl | hrest
      · exact List.not_mem_nil
      · exact ih hrest
    · rw [if_neg hc] at h
      cases hwords : splitDots cs with
      | nil =>
        rw [hwords] at h
        obtain rfl : word = [c] := by simpa using h
        simpa using Ne.symm hc
      | cons first rest =>
        rw [hwords] at h ih
        rcases List.mem_cons.1 h with rfl | hrest
        · have hfirst : '.' ∉ first := ih List.mem_cons_self
          simp [Ne.symm hc, hfirst]
        · exact ih (List.mem_cons_of_mem _ hrest)

/-! ## Legible paths -/

/-- No segment is empty or has a dot. -/
def Legible (p : Path) : Prop := ∀ s ∈ p.segments, s ≠ "" ∧ '.' ∉ s.toList

theorem legible_parse (text : String) : (parse text).Legible := by
  intro s hs
  obtain ⟨word, hword, rfl⟩ := List.mem_map.1 hs
  obtain ⟨hsplit, hne⟩ := List.mem_filter.1 hword
  have hdot : '.' ∉ word := dot_notMem_of_mem_splitDots hsplit
  exact ⟨by simpa using hne, by simpa using hdot⟩

theorem parse_toText_of_legible {p : Path} (h : p.Legible) : parse p.toText = p := by
  obtain ⟨segments⟩ := p
  -- the text of the root is empty, and has one word, which is empty too
  by_cases hroot : segments = []
  · subst hroot
    rfl
  have hdots : ∀ word ∈ segments.map String.toList, '.' ∉ word := by
    intro word hword
    obtain ⟨s, hs, rfl⟩ := List.mem_map.1 hword
    exact (h s hs).2
  have hwords : splitDots (toText ⟨segments⟩).toList = segments.map String.toList := by
    rw [toText, String.toList_intercalate, splitDots_eq_splitOn]
    exact List.splitOn_intercalate '.' hdots (by simpa using hroot)
  have hfilter : (segments.map String.toList).filter (· ≠ []) = segments.map String.toList := by
    refine List.filter_eq_self.2 fun word hword => ?_
    obtain ⟨s, hs, rfl⟩ := List.mem_map.1 hword
    simpa using (h s hs).1
  have hsegments : (segments.map String.toList).map String.ofList = segments := by
    simp [Function.comp_def]
  rw [parse, hwords, hfilter, hsegments]

/-- A path that was read from a text is read again from its own text, and just the paths
without empty segments and without dots in a segment are read from their texts. -/
theorem parse_toText :
    (∀ text, parse (parse text).toText = parse text) ∧
      ∀ p : Path, parse p.toText = p ↔ ∀ s ∈ p.segments, s ≠ "" ∧ '.' ∉ s.toList := by
  refine ⟨fun text => parse_toText_of_legible (legible_parse text), fun p => ⟨fun h => ?_, ?_⟩⟩
  · -- `p` was read from a text, namely its own
    have hlegible : (parse p.toText).Legible := legible_parse p.toText
    rw [h] at hlegible
    exact hlegible
  · exact parse_toText_of_legible

/-- A dot inside a segment divides it, and an empty segment is lost. -/
example : parse (toText ⟨["a.b", "", "c"]⟩) = ⟨["a", "b", "c"]⟩ := by decide

end SelectiveMerge.Path
