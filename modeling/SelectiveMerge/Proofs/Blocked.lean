import SelectiveMerge.Proofs.Failing
import SelectiveMerge.Proofs.Turns

/-!
# Navigations that do not go on

A navigation that fails has come to two objects from which no hop leads on, or what is done at
the owners of its member fails. What it is stuck at says which error there is, and the path of
the error ends with what the navigation does not go through.

* `Merger.Blocks` — how a navigation that is stuck fails
* `Merger.HaltsAt` — how a navigation fails at two objects that it has come to
* `Merger.fails_visit` — a navigation that fails does so at two such objects
-/

namespace SelectiveMerge

open Run (Succeeds)

namespace Merger

variable {m : Merger} {s t : Session} {e : MergeError} {patch original p o : Node}

/-- How a navigation to a path fails that is stuck at two objects in front of a member of them:
`here` is the path of what it cannot go through. -/
inductive Blocks (m : Merger) (full here : Path) (p o : Node) (name : String) :
    Cause → MergeError → Prop where
  /-- A member or an entry of the patch is missing. -/
  | unknown {typeName member : String} :
      Blocks m full here p o name .ordinary (.structuralMismatch full typeName member)
  | mismatch {expected found : String} :
      Blocks m full here p o name .ordinary (.typeMismatch here expected found)
  | unmade {typeName : String} :
      Blocks m full here p o name .ordinary (.uninitializable here typeName)
  | table {n : Node} {member : Member} (hn : n = p ∨ n = o)
      (hmember : m.member? n name = some member) (hfits : ¬ n.Fits member) :
      Blocks m full here p o name .table (tableMismatch here (m.catalogue.displayName n))

/-- An object is not made of a type that has no objects made from nothing. -/
theorem Ensures.ne_none {type : TypeName} {found : Option Fields} {fields : Fields}
    (h : m.Ensures type s found fields t)
    (hconstructible : (m.catalogue type).constructible = false) :
    found ≠ none := by
  rintro rfl
  cases h with
  | made hmade => cases hmade <;> simp_all

/-- A navigation is stuck in front of two members, unless both show objects, or both show
dictionaries and a further segment is left, and what is behind them is there or can be made. -/
theorem stuck_of_members {name key : String} {rest : List String} {pm om : Member}
    (hpm : m.member? p name = some pm) (hom : m.member? o name = some om)
    (hobject : ∀ n, p.read? pm = some (.object (some n)) →
      (∀ i type fields, o.target? om ≠ some (i, .object type fields)) ∧
        ∀ i type present, o.target? om = some (i, .optional type present) →
          present = none ∧ (m.catalogue type).constructible = false)
    (hentry : ∀ patchType patchEntries i type entries,
      p.read? pm = some (.dictionary patchType patchEntries) →
      o.target? om = some (i, .dictionary type entries) →
      rest = [] ∨ Dictionary.find? key patchEntries = none ∨
        (Dictionary.find? key entries = none ∧ (m.catalogue type).constructible = false)) :
    m.Stuck p o s (name :: key :: rest) := by
  intro keys later innerPatch inner put t hsplit hlater hhop
  cases hhop with
  | object hpm' hom' hread htarget =>
    obtain ⟨rfl, -⟩ := List.cons.inj hsplit
    obtain rfl := Option.some_inj.1 (hpm.symm.trans hpm')
    obtain rfl := Option.some_inj.1 (hom.symm.trans hom')
    exact (hobject _ hread).1 _ _ _ htarget
  | optional hpm' hom' hread htarget hensure =>
    obtain ⟨rfl, -⟩ := List.cons.inj hsplit
    obtain rfl := Option.some_inj.1 (hpm.symm.trans hpm')
    obtain rfl := Option.some_inj.1 (hom.symm.trans hom')
    obtain ⟨hnone, hconstructible⟩ := (hobject _ hread).2 _ _ _ htarget
    exact hensure.ne_none hconstructible hnone
  | entry hpm' hom' hread htarget hfind hensure =>
    obtain ⟨rfl, htail⟩ := List.cons.inj hsplit
    obtain ⟨rfl, hrest⟩ := List.cons.inj htail
    obtain rfl := Option.some_inj.1 (hpm.symm.trans hpm')
    obtain rfl := Option.some_inj.1 (hom.symm.trans hom')
    rcases hentry _ _ _ _ _ hread htarget with hnil | hmissing | ⟨hnone, hconstructible⟩
    · rw [hnil] at hrest
      exact hlater hrest.symm
    · rw [hfind] at hmissing
      cases hmissing
    · exact hensure.ne_none hconstructible hnone

/-- It is stuck in front of two members of shapes that do not go together. -/
theorem stuck_of_shapes {name key : String} {rest : List String} {pm om : Member} {view : View}
    {i : Nat} {slot : Slot} (hpm : m.member? p name = some pm) (hom : m.member? o name = some om)
    (hread : p.read? pm = some view) (htarget : o.target? om = some (i, slot))
    (hobject : ∀ n type fields, view = .object (some n) → slot = .object type fields → False)
    (hoptional : ∀ n type present, view = .object (some n) → slot = .optional type present → False)
    (hdictionary : ∀ patchType patchEntries type entries,
      view = .dictionary patchType patchEntries → slot = .dictionary type entries → False) :
    m.Stuck p o s (name :: key :: rest) := by
  refine stuck_of_members hpm hom ?_ ?_
  · intro n hn
    have hview : view = .object (some n) := Option.some_inj.1 (hread.symm.trans hn)
    constructor
    · intro j type fields hslot
      rw [htarget] at hslot
      cases hslot
      exact hobject n type fields hview rfl
    · intro j type present hslot
      rw [htarget] at hslot
      cases hslot
      exact (hoptional n type present hview rfl).elim
  · intro patchType patchEntries j type entries hn hslot
    have hview : view = .dictionary patchType patchEntries :=
      Option.some_inj.1 (hread.symm.trans hn)
    rw [htarget] at hslot
    cases hslot
    exact (hdictionary patchType patchEntries type entries hview rfl).elim

/-- It is stuck in front of a name that one of the objects has no member for. -/
theorem stuck_of_unknown {name key : String} {rest : List String}
    (h : m.member? p name = none ∨ m.member? o name = none) :
    m.Stuck p o s (name :: key :: rest) := by
  intro keys later innerPatch inner put t hsplit _ hhop
  cases hhop with
  | object hpm hom | optional hpm hom | entry hpm hom =>
    obtain ⟨rfl, -⟩ := List.cons.inj hsplit
    rcases h with h | h
    · rw [h] at hpm
      cases hpm
    · rw [h] at hom
      cases hom

theorem span_eq {name : String} {pm om : Member} (hpm : m.member? p name = some pm)
    (hom : m.member? o name = some om) :
    m.span p o name = stride (p.read? pm) (o.target? om) := by
  rw [span, hpm, hom, Option.bind_some, Option.bind_some]

/-- How a navigation along `path`, which starts behind `before`, fails at two objects, with so many
segments passed. -/
inductive HaltsAt (m : Merger) (onMember : Node → Node → String → Run Fields)
    (before path : List String) (index : Nat) (p o : Node) (t : Session) (e : MergeError) :
    Prop where
  | member {name : String} (hlast : path.drop index = [name])
      (hfails : Run.Fails (onMember p o name) t e)
  | entry {name key : String} (hlast : path.drop index = [name, key])
      (hspan : m.span p o name = 2) (hat : e.IsAt ⟨before ++ path⟩)
  | blocked {name key : String} {rest : List String} {cause : Cause}
      (hrest : path.drop index = name :: key :: rest) (hstuck : m.Stuck p o t (path.drop index))
      (hblocks : m.Blocks ⟨before ++ path⟩ ⟨before ++ path.take (index + m.span p o name)⟩ p o
        name cause e)

/-- What happens behind a hop happens to the whole path. -/
theorem HaltsAt.behind {onMember : Node → Node → String → Run Fields}
    {before keys rest : List String} {index : Nat}
    (h : m.HaltsAt onMember (before ++ keys) rest index p o t e) :
    m.HaltsAt onMember before (keys ++ rest) (keys.length + index) p o t e := by
  have hdrop : (keys ++ rest).drop (keys.length + index) = rest.drop index := by
    rw [← List.drop_drop, List.drop_left]
  have htake (n : Nat) : before ++ (keys ++ rest).take (keys.length + index + n) =
      before ++ keys ++ rest.take (index + n) := by
    rw [Nat.add_assoc, List.take_length_add_append, List.append_assoc]
  cases h with
  | member hlast hfails => exact .member (hdrop.trans hlast) hfails
  | entry hlast hspan hat => exact .entry (hdrop.trans hlast) hspan (by rwa [← List.append_assoc])
  | blocked hrest hstuck hblocks =>
    rw [List.append_assoc before keys rest, ← htake] at hblocks
    exact .blocked (hdrop.trans hrest) (by rwa [hdrop]) hblocks

/-- The path of an entry ends with its key. -/
theorem child_eq_take (before : List String) (name key : String) (rest : List String) :
    (Path.mk (before ++ [name])).child key = ⟨before ++ (name :: key :: rest).take 2⟩ := by
  simp [Path.child]

/-- How a navigation fails that has more than one segment: at the objects that it starts from, or
behind its first hop. -/
inductive FailsFrom (m : Merger) (node : Json) (onMember : Node → Node → String → Run Fields)
    (before path : List String) (patch original : Node) (s : Session) (e : MergeError) : Prop where
  | here (hhalts : m.HaltsAt onMember before path 0 patch original s e)
  | behind {keys later : List String} {innerPatch inner : Node} {put : Fields → Fields}
      {t : Session} (hhop : m.Hop patch original s keys innerPatch inner put t)
      (hsplit : path = keys ++ later) (hlater : later ≠ []) (hkeys : keys ≠ [])
      (hfails : Run.Fails (m.visit node onMember (before ++ keys) later innerPatch inner) t e)

namespace FailsFrom

variable {node : Json} {onMember : Node → Node → String → Run Fields}
  {before rest : List String} {name key : String} {pm om : Member}

/-- It is stuck, and how it is stuck says which error there is. -/
theorem of_blocks {n : Nat} {cause : Cause} (hspan : m.span patch original name = n)
    (hstuck : m.Stuck patch original s (name :: key :: rest))
    (hblocks : m.Blocks ⟨before ++ name :: key :: rest⟩
      ⟨before ++ (name :: key :: rest).take n⟩ patch original name cause e) :
    m.FailsFrom node onMember before (name :: key :: rest) patch original s e := by
  rw [← hspan, ← Nat.zero_add (m.span patch original name)] at hblocks
  exact .here (.blocked rfl hstuck hblocks)

section Kinds

variable (hpm : m.member? patch name = some pm) (hom : m.member? original name = some om)
include hpm hom

/-- In front of an optional object: it cannot be made, or the failure is in it. -/
theorem of_optional {n : Node} {i : Nat} {type : TypeName} {present : Option Fields}
    (hread : patch.read? pm = some (.object (some n)))
    (htarget : original.target? om = some (i, .optional type present))
    (h : Run.Fails (m.ensure type ⟨before ++ [name]⟩ present >>= fun fields =>
      m.visit node onMember (before ++ [name]) (key :: rest) n ⟨type, fields⟩ >>= fun made =>
        pure (original.fields.set i (.optional type (some made)))) s e) :
    m.FailsFrom node onMember before (name :: key :: rest) patch original s e := by
  rcases Run.Fails.bind_iff.1 h with h | ⟨fields, t, hensure, h⟩
  · obtain ⟨hnone, hconstructible, rfl⟩ := fails_ensure h
    have hspan : m.span patch original name = 1 := by
      rw [span_eq hpm hom, hread, htarget]
      rfl
    refine .of_blocks hspan (stuck_of_members hpm hom ?_ ?_) .unmade
    · intro _ _
      simp [htarget, hnone, hconstructible]
    · simp [hread]
  · exact .behind (.optional hpm hom hread htarget (.of_ensure hensure)) rfl (by simp) (by simp)
      h.of_bind_pure

/-- In front of an object that the patch does not have. -/
theorem of_missing {expected found : String} (hread : patch.read? pm = some (.object none)) :
    m.FailsFrom node onMember before (name :: key :: rest) patch original s
      (.typeMismatch ⟨before ++ [name]⟩ expected found) := by
  have hspan : m.span patch original name = 1 := by
    rw [span_eq hpm hom, hread]
    rfl
  refine .of_blocks hspan (stuck_of_members hpm hom ?_ ?_) .mismatch <;> simp [hread]

/-- In front of two dictionaries, where the path ends with the key of an entry. -/
theorem of_dictionary_end {patchType type : TypeName} {i : Nat} {expected found : String}
    {patchEntries entries : List (String × Fields)}
    (hread : patch.read? pm = some (.dictionary patchType patchEntries))
    (htarget : original.target? om = some (i, .dictionary type entries)) :
    m.FailsFrom node onMember before [name, key] patch original s
      (.typeMismatch ⟨before ++ [name, key]⟩ expected found) := by
  have hspan : m.span patch original name = 2 := by
    rw [span_eq hpm hom, hread, htarget]
    rfl
  refine .of_blocks hspan (stuck_of_members hpm hom ?_ ?_) .mismatch <;> simp [hread]

/-- In front of two dictionaries: the patch has no entry there, or none can be made, or the failure
is in the entry. -/
theorem of_dictionary {patchType type : TypeName} {i : Nat} {next : String}
    {patchEntries entries : List (String × Fields)}
    (hread : patch.read? pm = some (.dictionary patchType patchEntries))
    (htarget : original.target? om = some (i, .dictionary type entries))
    (h : Run.Fails (Run.require (.structuralMismatch ⟨before ++ name :: key :: next :: rest⟩
        (m.catalogue patchType).typeName key) (Dictionary.find? key patchEntries) >>= fun p =>
      m.ensure type ((Path.mk (before ++ [name])).child key) (Dictionary.find? key entries) >>=
        fun fields => m.visit node onMember ((Path.mk (before ++ [name])).child key).segments
            (next :: rest) ⟨patchType, p⟩ ⟨type, fields⟩ >>= fun made =>
          pure (original.fields.set i
            (.dictionary type (Dictionary.insert key made entries)))) s e) :
    m.FailsFrom node onMember before (name :: key :: next :: rest) patch original s e := by
  have hspan : m.span patch original name = 2 := by
    rw [span_eq hpm hom, hread, htarget]
    rfl
  rcases Run.Fails.bind_iff.1 h with h | ⟨entry, t, hentry, h⟩
  · obtain ⟨hnone, rfl⟩ := Run.Fails.require_iff.1 h
    refine .of_blocks hspan (stuck_of_members hpm hom ?_ ?_) .unknown
    · simp [hread]
    · intro _ _ _ _ _ hread' _
      rw [hread] at hread'
      cases hread'
      exact .inr (.inl hnone)
  · obtain ⟨hfind, rfl⟩ := Succeeds.require_iff.1 hentry
    rcases Run.Fails.bind_iff.1 h with h | ⟨fields, t, hensure, h⟩
    · obtain ⟨hnone, hconstructible, rfl⟩ := fails_ensure h
      rw [child_eq_take before name key (next :: rest)]
      refine .of_blocks hspan (stuck_of_members hpm hom ?_ ?_) .unmade
      · simp [hread]
      · intro _ _ _ _ _ _ htarget'
        rw [htarget] at htarget'
        cases htarget'
        exact .inr (.inr ⟨hnone, hconstructible⟩)
    · have hhere : ((Path.mk (before ++ [name])).child key).segments = before ++ [name, key] := by
        simp
      rw [hhere] at h
      exact .behind (.entry hpm hom hread htarget hfind (.of_ensure hensure)) rfl (by simp)
        (by simp) h.of_bind_pure

/-- In front of two dictionaries of leaves, where the path goes on behind an entry. -/
theorem of_leafDictionary {patchType type : LeafType} {i : Nat} {next expected found : String}
    {patchEntries entries : List (String × Cell)}
    (hread : patch.read? pm = some (.leafDictionary patchType patchEntries))
    (htarget : original.target? om = some (i, .leafDictionary type entries)) :
    m.FailsFrom node onMember before (name :: key :: next :: rest) patch original s
      (.typeMismatch ((Path.mk (before ++ [name])).child key) expected found) := by
  have hspan : m.span patch original name = 2 := by
    rw [span_eq hpm hom, hread, htarget]
    rfl
  rw [child_eq_take before name key (next :: rest)]
  refine .of_blocks hspan (stuck_of_members hpm hom ?_ ?_) .mismatch <;> simp [hread]

/-- In front of a member that the patch does not show, or the original cannot be written to. -/
theorem of_table (h : patch.read? pm = none ∧ e =
      tableMismatch ⟨before ++ [name]⟩ (m.catalogue.displayName patch) ∨
    original.target? om = none ∧ e =
      tableMismatch ⟨before ++ [name]⟩ (m.catalogue.displayName original)) :
    m.FailsFrom node onMember before (name :: key :: rest) patch original s e := by
  rcases h with ⟨hread, rfl⟩ | ⟨htarget, rfl⟩
  · have hspan : m.span patch original name = 1 := by
      rw [span_eq hpm hom, hread, stride_none_left]
    refine .of_blocks hspan (stuck_of_members hpm hom ?_ ?_)
      (.table (.inl rfl) hpm fun hfits => hfits.read?_ne_none hread) <;> simp [hread]
  · have hspan : m.span patch original name = 1 := by
      rw [span_eq hpm hom, htarget, stride_none_right]
    refine .of_blocks hspan (stuck_of_members hpm hom ?_ ?_)
      (.table (.inr rfl) hom fun hfits => hfits.target?_ne_none htarget) <;> simp [htarget]

end Kinds

end FailsFrom

/-- A navigation of more than one segment fails behind its first hop, or at the objects that it
starts from. -/
theorem fails_visit_cons {node : Json} {onMember : Node → Node → String → Run Fields}
    {before rest : List String} {name key : String}
    (h : Run.Fails (m.visit node onMember before (name :: key :: rest) patch original) s e) :
    m.FailsFrom node onMember before (name :: key :: rest) patch original s e := by
  unfold visit at h
  rcases Run.Fails.bind_iff.1 h with h | ⟨⟨pm, om⟩, t, hpair, h⟩
  · obtain ⟨hunknown, typeName, rfl⟩ := memberPair_eq_error (Run.Fails.ofExcept_iff.1 h)
    exact .of_blocks rfl (stuck_of_unknown hunknown) .unknown
  · obtain ⟨⟨hpm, hom⟩, rfl⟩ := (Succeeds.ofExcept_iff.1 hpair).imp_left memberPair_eq_ok.1
    clear hpair
    dsimp only at h
    -- one case for each pair of what the patch shows and what is to be written to
    split at h
    · rename_i hread htarget
      exact .behind (.object hpm hom hread htarget) rfl (by simp) (by simp) h.of_bind_pure
    · rename_i hread htarget
      exact .of_optional hpm hom hread htarget h
    · rename_i hread _
      obtain rfl := Run.Fails.fail_iff.1 h
      exact .of_missing hpm hom hread
    · rename_i hread _
      obtain rfl := Run.Fails.fail_iff.1 h
      exact .of_missing hpm hom hread
    · rename_i hread htarget
      split at h
      · obtain rfl := Run.Fails.fail_iff.1 h
        exact .of_dictionary_end hpm hom hread htarget
      · exact .of_dictionary hpm hom hread htarget h
    · rename_i hread htarget
      split at h
      · have hspan : m.span patch original name = 2 := by
          rw [span_eq hpm hom, hread, htarget]
          rfl
        exact .here (.entry rfl hspan (isAt_of_assignEntry h.of_bind_pure))
      · obtain rfl := Run.Fails.fail_iff.1 h
        exact .of_leafDictionary hpm hom hread htarget
    · -- shapes that do not go together, or have no members
      rename_i hobject hoptional _ _ hdictionary hleaves hread htarget
      have hspan := span_eq hpm hom
      rw [hread, htarget, stride_eq_one hdictionary hleaves] at hspan
      have hstuck : m.Stuck patch original s (name :: key :: rest) :=
        stuck_of_shapes hpm hom hread htarget hobject hoptional hdictionary
      split at h
      all_goals
        obtain rfl := Run.Fails.fail_iff.1 h
        exact .of_blocks hspan hstuck .mismatch
    · rename_i hread
      exact .of_table hpm hom (.inl ⟨hread, (Run.Fails.fail_iff.1 h).symm⟩)
    · rename_i htarget _
      exact .of_table hpm hom (.inr ⟨htarget, (Run.Fails.fail_iff.1 h).symm⟩)

/-- A navigation fails at two objects that it gets to, or it has no segment to begin with. -/
theorem fails_visit {node : Json} {onMember : Node → Node → String → Run Fields}
    {before path : List String}
    (h : Run.Fails (m.visit node onMember before path patch original) s e) :
    (path = [] ∧ e = .malformedInput "path" "empty member path") ∨
      ∃ index p o t, m.Proceeds path patch original s index p o t ∧
        m.HaltsAt onMember before path index p o t e := by
  -- the induction is on the number of segments, since a hop may pass two of them
  induction hlength : path.length using Nat.strong_induction_on
    generalizing before path patch original s with
  | _ n ih =>
    match path with
    | [] =>
      rw [visit] at h
      exact .inl ⟨rfl, (Run.Fails.fail_iff.1 h).symm⟩
    | [name] =>
      rw [visit] at h
      exact .inr ⟨0, patch, original, s, .start, .member rfl h⟩
    | name :: key :: rest =>
      cases fails_visit_cons h with
      | here hhalts => exact .inr ⟨0, patch, original, s, .start, hhalts⟩
      | @behind keys later _ _ _ _ hhop hsplit hlater hkeys hfails =>
        have hshort : later.length < n := by
          have hlengths := congrArg List.length hsplit
          have hpos := List.length_pos_iff.2 hkeys
          rw [List.length_append] at hlengths
          omega
        rcases ih later.length hshort hfails rfl with
          ⟨hnil, -⟩ | ⟨index, p, o, u, hproceeds, hhalts⟩
        · exact absurd hnil hlater
        · rw [hsplit]
          exact .inr ⟨_, p, o, u, .hop hhop hlater hproceeds, hhalts.behind⟩

end Merger

end SelectiveMerge
