import Mathlib.Data.List.Forall2
import SelectiveMerge.Merge.Configuration

/-!
# Patterns of paths

Paths are compared segment by segment up to the case of ASCII letters. A pattern that gives
the beginning and the end of a path applies to just those paths that are made of a part that
is the beginning, anything at all, and a part that is the end. The two parts share no segment.

* `Path.SameUpToCase` — the segments are the same but for the case of their letters
* `Path.folded` — the segments in small letters, by which the comparisons are described
* `Path.startsWithIgnoreCase_iff`, `Path.endsWithIgnoreCase_iff` — initial and final parts
* `PathMatcher.covers_range` — the paths to which a pattern applies
* `Configuration.overrides_congr` — the overrides at a path do not depend on its case
-/

namespace SelectiveMerge

namespace Path

variable {p q : Path}

/-! ## Comparison up to case -/

/-- The paths have as many segments, and each is the same as its counterpart up to the case
of ASCII letters. -/
def SameUpToCase (p q : Path) : Prop :=
  List.Forall₂ (fun s t => Text.eqIgnoreCase s t = true) p.segments q.segments

/-- The segments in small letters. -/
def folded (p : Path) : List String := p.segments.map Text.foldCase

@[simp] theorem length_folded (p : Path) : p.folded.length = p.length := List.length_map _

@[simp] theorem folded_join (p q : Path) : (p.join q).folded = p.folded ++ q.folded :=
  List.map_append

theorem sameUpToCase_iff : p.SameUpToCase q ↔ p.folded = q.folded := by
  unfold SameUpToCase folded
  rw [← List.forall₂_eq_eq_eq, List.forall₂_map_left_iff, List.forall₂_map_right_iff]
  simp only [Text.eqIgnoreCase_iff]

/-- A path whose small letters fall into two parts falls into these parts itself. -/
theorem exists_join_of_folded_eq {start finish : List String} (h : p.folded = start ++ finish) :
    ∃ a b : Path, p = a.join b ∧ a.folded = start ∧ b.folded = finish := by
  obtain ⟨as, bs, hsegments, has, hbs⟩ := List.map_eq_append_iff.1 h
  refine ⟨⟨as⟩, ⟨bs⟩, ?_, has, hbs⟩
  rw [join, ← hsegments]

/-! ## Initial and final parts -/

/-- Two lists agree as far as both go. If the second one is not the longer one, it is an
initial part of the first one. -/
theorem agree_iff {ps qs : List String} (h : qs.length ≤ ps.length) :
    agree ps qs = true ↔ qs.map Text.foldCase <+: ps.map Text.foldCase := by
  induction qs generalizing ps with
  | nil => simp [agree]
  | cons q qs ih =>
    cases ps with
    | nil => simp at h
    | cons p ps =>
      have hlength : qs.length ≤ ps.length := by simpa using h
      have hcons : agree (p :: ps) (q :: qs) = (Text.eqIgnoreCase p q && agree ps qs) := rfl
      rw [hcons, Bool.and_eq_true, ih hlength, Text.eqIgnoreCase_iff, List.map_cons,
        List.map_cons, List.cons_prefix_cons, eq_comm]

theorem startsWithIgnoreCase_iff : p.startsWithIgnoreCase q = true ↔ q.folded <+: p.folded := by
  unfold startsWithIgnoreCase
  rw [Bool.and_eq_true, decide_eq_true_eq]
  constructor
  · rintro ⟨hlength, hagree⟩
    exact (agree_iff hlength).1 hagree
  · intro hinitial
    have hlength : q.length ≤ p.length := by simpa using hinitial.length_le
    exact ⟨hlength, (agree_iff hlength).2 hinitial⟩

/-- What ends a path begins the reversed path. -/
theorem endsWithIgnoreCase_iff : p.endsWithIgnoreCase q = true ↔ q.folded <:+ p.folded := by
  have hreversed : p.endsWithIgnoreCase q =
      startsWithIgnoreCase ⟨p.segments.reverse⟩ ⟨q.segments.reverse⟩ := by
    unfold endsWithIgnoreCase startsWithIgnoreCase length
    rw [List.length_reverse, List.length_reverse]
  rw [hreversed, startsWithIgnoreCase_iff, ← List.reverse_prefix]
  simp [folded]

theorem eqIgnoreCase_iff : p.eqIgnoreCase q = true ↔ p.SameUpToCase q := by
  unfold eqIgnoreCase
  rw [Bool.and_eq_true, beq_iff_eq, sameUpToCase_iff]
  constructor
  · rintro ⟨hlength, hagree⟩
    have hinitial : q.folded <+: p.folded := (agree_iff (Nat.le_of_eq hlength.symm)).1 hagree
    exact (hinitial.eq_of_length (by simpa using hlength.symm)).symm
  · intro hfolded
    have hlength : p.length = q.length := by simpa using congrArg List.length hfolded
    have hinitial : q.folded <+: p.folded := hfolded ▸ List.prefix_refl _
    exact ⟨hlength, (agree_iff (Nat.le_of_eq hlength.symm)).2 hinitial⟩

end Path

namespace PathMatcher

variable {start finish full : Path}

/-! ## Beginnings and ends -/

/-- Three parts one after another have their lengths together. -/
theorem length_of_folded_eq {middle : List String}
    (h : full.folded = start.folded ++ (middle ++ finish.folded)) :
    full.length = start.length + (middle.length + finish.length) := by
  simpa using congrArg List.length h

/-- In small letters a path to which the pattern applies is the beginning, something, and the
end: by the test of the lengths, what follows the beginning is long enough to end with the
end. -/
theorem covers_range_iff_folded : (range start finish).covers full = true ↔
    ∃ middle, full.folded = start.folded ++ (middle ++ finish.folded) := by
  unfold covers
  dsimp only
  rw [Bool.and_eq_true, Bool.and_eq_true, decide_eq_true_eq, Path.startsWithIgnoreCase_iff,
    Path.endsWithIgnoreCase_iff]
  constructor
  · rintro ⟨⟨hlength, rest, hstart⟩, hfinish⟩
    have hrest : rest <:+ full.folded := ⟨start.folded, hstart⟩
    have htotal : start.length + rest.length = full.length := by
      simpa using congrArg List.length hstart
    have hroom : finish.folded.length ≤ rest.length := by
      rw [Path.length_folded]
      omega
    obtain ⟨middle, hmiddle⟩ := List.suffix_of_suffix_length_le hfinish hrest hroom
    exact ⟨middle, by rw [hmiddle, hstart]⟩
  · rintro ⟨middle, hfull⟩
    have htotal := length_of_folded_eq hfull
    refine ⟨⟨by omega, middle ++ finish.folded, hfull.symm⟩, start.folded ++ middle, ?_⟩
    rw [hfull, List.append_assoc]

/-- The case of letters does not count, neither in a pattern nor in a path. -/
theorem covers_range_congr {start' finish' full' : Path} (hstart : start'.SameUpToCase start)
    (hfinish : finish'.SameUpToCase finish) (hfull : full'.SameUpToCase full) :
    (range start' finish').covers full' = (range start finish).covers full := by
  rw [Bool.eq_iff_iff, covers_range_iff_folded, covers_range_iff_folded,
    Path.sameUpToCase_iff.1 hstart, Path.sameUpToCase_iff.1 hfinish,
    Path.sameUpToCase_iff.1 hfull]

/-- A pattern of a beginning and an end applies to the paths that are made of three parts one
after another: one that is the beginning, any one, and one that is the end, up to the case of
ASCII letters. So the path has room for both of them side by side, and other case of any
letters makes no difference. -/
theorem covers_range (start finish full : Path) :
    ((range start finish).covers full = true ↔ ∃ a m b : Path,
      full = (a.join m).join b ∧ a.SameUpToCase start ∧ b.SameUpToCase finish) ∧
    ((range start finish).covers full = true → start.length + finish.length ≤ full.length) ∧
    ∀ start' finish' full' : Path, start'.SameUpToCase start → finish'.SameUpToCase finish →
      full'.SameUpToCase full →
        (range start' finish').covers full' = (range start finish).covers full := by
  refine ⟨⟨fun h => ?_, ?_⟩, fun h => ?_, fun start' finish' full' => covers_range_congr⟩
  · obtain ⟨middle, hfull⟩ := covers_range_iff_folded.1 h
    obtain ⟨a, rest, rfl, ha, hrest⟩ := Path.exists_join_of_folded_eq hfull
    obtain ⟨m, b, rfl, -, hb⟩ := Path.exists_join_of_folded_eq hrest
    exact ⟨a, m, b, (Path.join_assoc a m b).symm, Path.sameUpToCase_iff.2 ha,
      Path.sameUpToCase_iff.2 hb⟩
  · rintro ⟨a, m, b, rfl, ha, hb⟩
    refine covers_range_iff_folded.2 ⟨m.folded, ?_⟩
    rw [Path.folded_join, Path.folded_join, Path.sameUpToCase_iff.1 ha,
      Path.sameUpToCase_iff.1 hb, List.append_assoc]
  · obtain ⟨middle, hfull⟩ := covers_range_iff_folded.1 h
    have htotal := length_of_folded_eq hfull
    omega

theorem covers_range_sku :
    (range ⟨["Orders"]⟩ ⟨["Sku"]⟩).covers ⟨["orders", "LINES", "sku"]⟩ = true ∧
    (∃ a m b : Path, ⟨["orders", "LINES", "sku"]⟩ = (a.join m).join b ∧
      a.SameUpToCase ⟨["Orders"]⟩ ∧ b.SameUpToCase ⟨["Sku"]⟩) ∧
    (range ⟨["ORDERS"]⟩ ⟨["SKU"]⟩).covers ⟨["Orders", "Lines", "Sku"]⟩ = true := by
  obtain ⟨hparts, -, hcase⟩ :=
    covers_range ⟨["Orders"]⟩ ⟨["Sku"]⟩ ⟨["orders", "LINES", "sku"]⟩
  have hcovers : (range ⟨["Orders"]⟩ ⟨["Sku"]⟩).covers ⟨["orders", "LINES", "sku"]⟩ = true := by
    decide
  refine ⟨hcovers, hparts.1 hcovers, ?_⟩
  rw [← hcovers]
  exact hcase _ _ _ (Path.eqIgnoreCase_iff.1 (by decide)) (Path.eqIgnoreCase_iff.1 (by decide))
    (Path.eqIgnoreCase_iff.1 (by decide))

/-- A segment that is both the beginning and the end is not enough, two of them are. -/
example : (range ⟨["Lines"]⟩ ⟨["Lines"]⟩).covers ⟨["lines"]⟩ = false ∧
    (range ⟨["Lines"]⟩ ⟨["Lines"]⟩).covers ⟨["lines", "LINES"]⟩ = true := by decide

/-- No matcher of either sort tells paths apart by their case. -/
theorem covers_congr {m : PathMatcher} {full' : Path} (h : full'.SameUpToCase full) :
    m.covers full' = m.covers full := by
  cases m with
  | exact path =>
    unfold covers
    dsimp only
    rw [Bool.eq_iff_iff, Path.eqIgnoreCase_iff, Path.eqIgnoreCase_iff, Path.sameUpToCase_iff,
      Path.sameUpToCase_iff, Path.sameUpToCase_iff.1 h]
  | range start finish =>
    exact covers_range_congr (Path.sameUpToCase_iff.2 rfl) (Path.sameUpToCase_iff.2 rfl) h

end PathMatcher

namespace Configuration

/-- Paths that are the same up to case have the same overrides. -/
theorem overrides_congr (c : Configuration) {full full' : Path} (h : full'.SameUpToCase full) :
    c.setAction? full' = c.setAction? full ∧ c.itemFactory? full' = c.itemFactory? full ∧
      c.forcesReplace full' = c.forcesReplace full := by
  have haction : actionAt? full' = actionAt? full := by
    funext e
    simp only [actionAt?, PathMatcher.covers_congr h]
  have hfactory : factoryAt? full' = factoryAt? full := by
    funext e
    simp only [factoryAt?, PathMatcher.covers_congr h]
  have hforces : forcesAt full' = forcesAt full := by
    funext e
    simp only [forcesAt, PathMatcher.covers_congr h]
  exact ⟨by rw [setAction?, haction, setAction?], by rw [itemFactory?, hfactory, itemFactory?],
    by rw [forcesReplace, hforces, forcesReplace]⟩

end Configuration

end SelectiveMerge
