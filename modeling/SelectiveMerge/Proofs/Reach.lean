import SelectiveMerge.Proofs.Lookup

/-!
# Following keys through an object

The keys of a directive lead through an object on their own, whatever the patch is.
`Merger.next?` takes one step: into the object behind the first key, or behind the first
two if they name an entry of a dictionary; the object may be missing. Every hop of a
navigation is such a step.

* `Merger.next?` — one step along some keys
* `Lacks` — the keys lead through an object that is missing
* `held?_of_next?` — a step on the way to what the keys lead to
* `Hop.exists_hopsTo` — what a hop does to the object that it starts from
-/

namespace SelectiveMerge

/-- The object that a slot holds for the first of some keys to come, if it holds any, and
the keys that are left. -/
def Slot.enter? : Slot → List String → Option (Option Node × List String)
  | .object type fields, rest => some (some ⟨type, fields⟩, rest)
  | .optional type fields, rest => some (fields.map (Node.mk type), rest)
  | .dictionary type entries, key :: rest =>
      some ((Dictionary.find? key entries).map (Node.mk type), rest)
  | _, _ => none

namespace Merger

/-- The object that is next along some keys, which may be missing, and the keys that are
left. -/
def next? (m : Merger) (n : Node) : List String → Option (Option Node × List String)
  | [] => none
  | name :: rest =>
      ((m.number? Member.writes n.type name).bind (n.fields[·]?)).bind (·.enter? rest)

/-- The keys lead through an object that is missing. -/
inductive Lacks (m : Merger) : Node → List String → Prop where
  | here {n : Node} {keys rest : List String}
      (hnext : m.next? n keys = some (none, rest)) (hrest : rest ≠ []) :
      Lacks m n keys
  | next {n inner : Node} {keys rest : List String}
      (hnext : m.next? n keys = some (some inner, rest))
      (hlacks : Lacks m inner rest) : Lacks m n keys

variable {m : Merger}

theorem not_lacks_nil {n : Node} : ¬ m.Lacks n [] := by
  rintro (⟨hnext, -⟩ | ⟨hnext, -⟩) <;> cases hnext

/-- The last key leads through nothing. -/
theorem not_lacks_singleton {n : Node} {name : String} : ¬ m.Lacks n [name] := by
  have hleft : ∀ {slot : Slot} {found : Option Node} {rest : List String},
      slot.enter? [] = some (found, rest) → rest = [] := by
    intro slot found rest h
    cases slot <;> simp [Slot.enter?] at h <;> exact h.2
  rintro (⟨hnext, hrest⟩ | ⟨hnext, hlacks⟩)
  · obtain ⟨slot, -, henter⟩ := Option.bind_eq_some_iff.1 hnext
    exact hrest (hleft henter)
  · obtain ⟨slot, -, henter⟩ := Option.bind_eq_some_iff.1 hnext
    obtain rfl := hleft henter
    exact not_lacks_nil hlacks

/-- Behind an object that is there, the keys that are left lead to the same. -/
theorem held?_of_next? {n inner : Node} {keys rest : List String} (hrest : rest ≠ [])
    (hnext : m.next? n keys = some (some inner, rest)) :
    m.held? (.object n.type n.fields) keys = m.held? (.object inner.type inner.fields) rest := by
  cases keys with
  | nil => cases hnext
  | cons name left =>
    obtain ⟨slot, hslot, henter⟩ := Option.bind_eq_some_iff.1 hnext
    rw [held?, spot?_object_cons, hslot, Option.bind_some]
    cases slot with
    | object type fields =>
      obtain ⟨⟩ := henter
      rfl
    | optional type present =>
      cases left with
      | nil =>
        obtain ⟨-, rfl⟩ := Prod.ext_iff.1 (Option.some_inj.1 henter)
        exact absurd rfl hrest
      | cons key left =>
        obtain ⟨hinner, rfl⟩ := Prod.ext_iff.1 (Option.some_inj.1 henter)
        obtain ⟨fields, rfl, rfl⟩ := Option.map_eq_some_iff.1 hinner
        rw [spot?_optional_cons]
        rfl
    | dictionary type entries =>
      cases left with
      | nil => cases henter
      | cons key left =>
        obtain ⟨hinner, rfl⟩ := Prod.ext_iff.1 (Option.some_inj.1 henter)
        obtain ⟨fields, hfind, rfl⟩ := Option.map_eq_some_iff.1 hinner
        rw [spot?_dictionary_cons, hfind]
        rfl
    | leaf | collection | leafDictionary => cases henter

/-! ## Hops -/

/-- What a hop finds along its keys, and how it puts an object back: the object that was
found is replaced, or else one is added to what there was. -/
structure HopsTo (m : Merger) (original : Node) (keys : List String) (type : TypeName)
    (present : Option Fields) (put : Fields → Fields) : Prop where
  next?_eq : ∀ rest, m.next? original (keys ++ rest) =
    some (present.map (Node.mk type), rest)
  put_present : ∀ f, present = some f → put f = original.fields
  sizeOf_put : ∀ f made, present = some f →
    sizeOf (put made) + sizeOf f = sizeOf original.fields + sizeOf made
  lt_sizeOf_put : present = none → ∀ made, sizeOf original.fields < sizeOf (put made)

end Merger

theorem sizeOf_set {α : Type} [SizeOf α] {xs : List α} {i : Nat} {a : α} (b : α)
    (h : xs[i]? = some a) : sizeOf (xs.set i b) + sizeOf a = sizeOf xs + sizeOf b := by
  induction xs generalizing i with
  | nil => cases h
  | cons x xs ih =>
    cases i with
    | zero =>
      obtain rfl : x = a := by simpa using h
      rw [List.set_cons_zero, List.cons.sizeOf_spec, List.cons.sizeOf_spec]
      omega
    | succ i =>
      have hxs := ih (by simpa using h)
      rw [List.set_cons_succ, List.cons.sizeOf_spec, List.cons.sizeOf_spec]
      omega

namespace Dictionary

theorem sizeOf_replace {α : Type} [SizeOf α] {key : String} {old : α} (made : α)
    {entries : List (String × α)} (h : find? key entries = some old) :
    sizeOf (replace key made entries) + sizeOf old = sizeOf entries + sizeOf made := by
  induction entries with
  | nil => cases h
  | cons entry rest ih =>
    obtain ⟨k, v⟩ := entry
    rw [find?_cons] at h
    rw [replace]
    by_cases hk : k = key
    · subst hk
      obtain rfl : v = old := by simpa using h
      rw [if_pos rfl, List.cons.sizeOf_spec, List.cons.sizeOf_spec, Prod.mk.sizeOf_spec,
        Prod.mk.sizeOf_spec]
      omega
    · rw [if_neg hk] at h
      have hrest := ih h
      rw [if_neg hk, List.cons.sizeOf_spec, List.cons.sizeOf_spec]
      omega

theorem lt_sizeOf_place {α : Type} [SizeOf α] (key : String) (made : α)
    (entries : List (String × α)) : sizeOf entries < sizeOf (place key made entries) := by
  induction entries with
  | nil =>
    rw [place, List.cons.sizeOf_spec, List.nil.sizeOf_spec]
    omega
  | cons entry rest ih =>
    obtain ⟨k, v⟩ := entry
    rw [place]
    split
    · rw [List.cons.sizeOf_spec (key, made), Prod.mk.sizeOf_spec]
      omega
    · rw [List.cons.sizeOf_spec, List.cons.sizeOf_spec]
      omega

end Dictionary

namespace Merger

open Run (Succeeds)

variable {m : Merger} {s s' : Session}

/-- The object behind a hop is the next one along its keys. -/
theorem Hop.exists_hopsTo {patch original innerPatch inner : Node} {keys : List String}
    {put : Fields → Fields} (h : m.Hop patch original s keys innerPatch inner put s') :
    ∃ present, m.Ensures inner.type s present inner.fields s' ∧
      m.HopsTo original keys inner.type present put := by
  cases h with
  | @object name _ _ _ type fields i _ hom _ htarget =>
    obtain ⟨hnumber, hslot⟩ := number?_of_target? hom htarget
    refine ⟨_, .found, fun rest => ?_, ?_, ?_, by rintro ⟨⟩⟩
    · simp [next?, hnumber, hslot, Slot.enter?]
    · rintro f ⟨⟩
      exact set_eq_self hslot
    · rintro f made ⟨⟩
      have hset := sizeOf_set (.object type made) hslot
      simp only [Slot.object.sizeOf_spec] at hset
      show sizeOf (original.fields.set i (.object type made)) + sizeOf fields = _
      omega
  | @optional name _ _ _ type present _ i _ _ hom _ htarget hensure =>
    obtain ⟨hnumber, hslot⟩ := number?_of_target? hom htarget
    refine ⟨_, hensure, fun rest => ?_, ?_, ?_, ?_⟩
    · simp [next?, hnumber, hslot, Slot.enter?]
    · rintro f rfl
      exact set_eq_self hslot
    · rintro f made rfl
      have hset := sizeOf_set (.optional type (some made)) hslot
      simp only [Slot.optional.sizeOf_spec, Option.some.sizeOf_spec] at hset
      omega
    · rintro rfl made
      have hset := sizeOf_set (.optional type (some made)) hslot
      simp only [Slot.optional.sizeOf_spec, Option.some.sizeOf_spec, Option.none.sizeOf_spec]
        at hset
      have hpos : 0 < sizeOf made := by
        cases made <;> simp only [List.nil.sizeOf_spec, List.cons.sizeOf_spec] <;> omega
      omega
  | @entry name key _ _ _ type _ _ _ entries i _ _ hom _ htarget _ hensure =>
    obtain ⟨hnumber, hslot⟩ := number?_of_target? hom htarget
    refine ⟨_, hensure, fun rest => ?_, fun f hf => ?_, fun f made hf => ?_,
      fun hf made => ?_⟩
    · simp [next?, hnumber, hslot, Slot.enter?]
    · show original.fields.set i (.dictionary type (Dictionary.insert key f entries)) = _
      rw [Dictionary.insert_eq_self hf]
      exact set_eq_self hslot
    · have hset := sizeOf_set (.dictionary type (Dictionary.insert key made entries)) hslot
      have hreplace := Dictionary.sizeOf_replace made hf
      simp only [Slot.dictionary.sizeOf_spec, Dictionary.insert, hf, Option.isSome_some, if_pos]
        at hset ⊢
      omega
    · have hset := sizeOf_set (.dictionary type (Dictionary.insert key made entries)) hslot
      have hplace := Dictionary.lt_sizeOf_place key made entries
      simp only [Slot.dictionary.sizeOf_spec, Dictionary.insert, hf, Option.isSome_none,
        Bool.false_eq_true, if_false] at hset ⊢
      omega

end Merger

end SelectiveMerge
