import Mathlib.Data.List.Forall2
import Mathlib.Data.List.ReduceOption
import Mathlib.Data.Set.Insert
import SelectiveMerge.Merge.Reconciliation
import SelectiveMerge.Proofs.Identity

/-!
# What a payload leaves alone

`Kept m alike ns a b` says that going from `a` to `b` changes nothing that the values `ns`
of a payload do not mention. What is mentioned follows the payload: a key mentions the
member that it denotes, or the dictionary entry that it names, and the object behind it
says in turn what it mentions there; an element of an array mentions the item whose
identity it names. An item keeps its identity while elements come to it, if `alike` holds,
or if of the keys of the element only those called `id` go to the identity. Items are gone
only where they are removed, cleared or left out of an array that replaces them.

* `Addressed` — a value of a payload where a merge meets it
* `Kept` — the relation, by the shape of what is compared
* `Kept.mono`, `Kept.trans` — more may be mentioned, and changes may follow each other
* `Kept.set`, `Kept.insert`, `Kept.set_item`, … — single changes
* `Kept.field`, `Kept.exists_after`, `Kept.of_item` — fields, collections and items that are left
* `Kept.identity?_eq` — the identities of items
-/

namespace SelectiveMerge

/-- A value of a payload, and the path at which a merge meets it. -/
structure Addressed where
  path : List String
  value : Json

namespace Addressed

/-- The value that an object has at a key which is not the removal marker. -/
def Child (options : Options) (a : Addressed) (key : String) (c : Addressed) : Prop :=
  ∃ members, a.value = .object members ∧ (key, c.value) ∈ members ∧
    options.isRemoveMarker key = false ∧ c.path = a.path ++ [key]

/-- The keys of an object, save the removal marker. -/
def named (options : Options) (a : Addressed) : Set String :=
  {key | ∃ c, a.Child options key c}

/-- The value is an object that asks, as an element of an array, for something. -/
def Asks (options : Options) (a : Addressed) (intent : Intent) : Prop :=
  ∃ members, a.value = .object members ∧
    Intent.ofMembers options ⟨a.path⟩ members = .ok intent

end Addressed

/-- What some values of a payload say of the entry at a key. -/
def under (options : Options) (key : String) (ns : Set Addressed) : Set Addressed :=
  {c | ∃ a ∈ ns, a.Child options key c}

/-- The elements of those values that are arrays. -/
def elementsOf (ns : Set Addressed) : Set Addressed :=
  {c | ∃ a ∈ ns, ∃ items, a.value = .array items ∧ c.value ∈ items ∧ c.path = a.path}

namespace Merger

/-- What some values of a payload say of a field of an object: the values at the keys
that denote a member which is written to that field. -/
def denoting (m : Merger) (type : TypeName) (i : Nat) (ns : Set Addressed) : Set Addressed :=
  {c | ∃ a ∈ ns, ∃ key member, a.Child m.options key c ∧
    (m.catalogue type).table.find? key m.options.ignoreCase = some member ∧
    member.writes = some i}

/-- The value is an array that has all items of a collection removed beforehand, where they
have no identities: it is empty, or an override has the collection replaced by it. -/
def Clearing (m : Merger) (type : TypeName) (a : Addressed) : Prop :=
  (m.catalogue type).identified = false ∧ ∃ items, a.value = .array items ∧
    (items = [] ∨ m.configuration.forcesReplace ⟨a.path⟩ = true)

/-- The value is an array that an override has a collection replaced by, and no element of
it names an identity to update its item. -/
def LeavesOut (m : Merger) (id : Uuid) (a : Addressed) : Prop :=
  m.configuration.forcesReplace ⟨a.path⟩ = true ∧ ∃ items, a.value = .array items ∧
    ∀ item ∈ items, ¬ Addressed.Asks m.options ⟨a.path, item⟩ (.update id)

end Merger

/-- What a merge may change: the content of a field, or what has become of an item of a
collection. -/
inductive Part where
  | slot (content : Slot)
  | item (type : TypeName) (fields : Option Fields)

/-- Nothing has changed but what the values `ns` mention. -/
inductive Kept (m : Merger) (alike : Prop) : Set Addressed → Part → Part → Prop where
  | same {ns : Set Addressed} {p : Part} : Kept m alike ns p p
  /-- A leaf changes only where there is a scalar or an array. -/
  | leaf {ns : Set Addressed} {type : LeafType} {old new : Cell}
      (hns : ∃ a ∈ ns, a.value.isObject = false) :
      Kept m alike ns (.slot (.leaf type old)) (.slot (.leaf type new))
  /-- A field of an object changes only where a key denotes it, and is kept in turn. -/
  | object {ns : Set Addressed} {type : TypeName} {old new : Fields}
      (hlength : new.length = old.length)
      (hunnamed : ∀ i : Nat, m.denoting type i ns = ∅ → new[i]? = old[i]?)
      (hnamed : ∀ (i : Nat) s s', old[i]? = some s → new[i]? = some s' →
        Kept m alike (m.denoting type i ns) (.slot s) (.slot s')) :
      Kept m alike ns (.slot (.object type old)) (.slot (.object type new))
  | optional {ns : Set Addressed} {type : TypeName} {old new : Fields}
      (hpresent : Kept m alike ns (.slot (.object type old)) (.slot (.object type new))) :
      Kept m alike ns (.slot (.optional type (some old))) (.slot (.optional type (some new)))
  /-- An optional object is unset only where there is a scalar or an array, and made again
  only where there is an object with a key as well. -/
  | unset {ns : Set Addressed} {type : TypeName} {old new : Option Fields}
      (hns : ∃ a ∈ ns, a.value.isObject = false)
      (hagain : new.isSome → ∃ a ∈ ns, ∃ key c, a.Child m.options key c) :
      Kept m alike ns (.slot (.optional type old)) (.slot (.optional type new))
  /-- An optional object is made only where there is an object with a key. -/
  | made {ns : Set Addressed} {type : TypeName} {new : Fields}
      (hns : ∃ a ∈ ns, ∃ key c, a.Child m.options key c) :
      Kept m alike ns (.slot (.optional type none)) (.slot (.optional type (some new)))
  /-- An entry changes only where its key occurs, is still there, and is kept in turn. -/
  | dictionary {ns : Set Addressed} {type : TypeName} {old new : List (String × Fields)}
      (hunnamed : ∀ key, under m.options key ns = ∅ →
        Dictionary.find? key new = Dictionary.find? key old)
      (hpresent : ∀ key, (Dictionary.find? key old).isSome → (Dictionary.find? key new).isSome)
      (hnamed : ∀ key f f', Dictionary.find? key old = some f →
        Dictionary.find? key new = some f' →
        Kept m alike (under m.options key ns) (.slot (.object type f)) (.slot (.object type f'))) :
      Kept m alike ns (.slot (.dictionary type old)) (.slot (.dictionary type new))
  | leafDictionary {ns : Set Addressed} {type : LeafType} {old new : List (String × Cell)}
      (hunnamed : ∀ key, under m.options key ns = ∅ →
        Dictionary.find? key new = Dictionary.find? key old)
      (hpresent : ∀ key, (Dictionary.find? key old).isSome → (Dictionary.find? key new).isSome) :
      Kept m alike ns (.slot (.leafDictionary type old)) (.slot (.leafDictionary type new))
  /-- The items that are left of a collection stay in their order, and what is added
  comes after them, only where an element asks for it. -/
  | collection {ns : Set Addressed} {type : TypeName} {old : List Fields}
      {after : List (Option Fields)} {added : List Fields} (hlength : after.length = old.length)
      (hitems : ∀ (j : Nat) x y, old[j]? = some x → after[j]? = some y →
        Kept m alike ns (.item type (some x)) (.item type y))
      (hadded : added ≠ [] → ∃ e ∈ elementsOf ns, e.Asks m.options .add) :
      Kept m alike ns (.slot (.collection type old))
        (.slot (.collection type (after.reduceOption ++ added)))
  /-- An item changes only where an element names its identity. What the element does not
  mention of it is kept, its identity included, unless a key that is not called `id` goes to
  the identity and the graphs are not alike; then the element may have given it another one,
  and what comes to it later has to name that one. -/
  | updated {ns : Set Addressed} {type : TypeName} {e : Addressed} {id : Uuid}
      {old mid : Fields} {p : Part} (he : e ∈ elementsOf ns)
      (hasks : e.Asks m.options (.update id)) (hid : m.identity? type old = some id)
      (hsame : alike ∨ m.Protects (e.named m.options) type → m.identity? type mid = some id)
      (hupdate : Kept m alike {e} (.slot (.object type old)) (.slot (.object type mid)))
      (hlater : Kept m alike ns (.item type (some mid)) p) :
      Kept m alike ns (.item type (some old)) p
  /-- An item is removed only where an element names its identity and asks for that. -/
  | removed {ns : Set Addressed} {type : TypeName} {e : Addressed} {id : Uuid} {old : Fields}
      (he : e ∈ elementsOf ns) (hasks : e.Asks m.options (.remove id))
      (hid : m.identity? type old = some id) :
      Kept m alike ns (.item type (some old)) (.item type none)
  /-- So is one whose collection has no identities where an array has all of it removed. -/
  | cleared {ns : Set Addressed} {type : TypeName} {old : Fields}
      (hns : ∃ a ∈ ns, m.Clearing type a) :
      Kept m alike ns (.item type (some old)) (.item type none)
  /-- So is one that an array which replaces its collection leaves out. -/
  | dropped {ns : Set Addressed} {type : TypeName} {id : Uuid} {old : Fields}
      (hid : m.identity? type old = some id) (hns : ∃ a ∈ ns, m.LeavesOut id a) :
      Kept m alike ns (.item type (some old)) (.item type none)

variable {m : Merger} {alike : Prop} {ns ns' : Set Addressed}

/-! ## More may be mentioned -/

theorem under_mono (hsub : ns ⊆ ns') (options : Options) (key : String) :
    under options key ns ⊆ under options key ns' := by
  rintro c ⟨a, ha, hchild⟩
  exact ⟨a, hsub ha, hchild⟩

theorem elementsOf_mono (hsub : ns ⊆ ns') : elementsOf ns ⊆ elementsOf ns' := by
  rintro c ⟨a, ha, h⟩
  exact ⟨a, hsub ha, h⟩

theorem Merger.denoting_mono (hsub : ns ⊆ ns') (type : TypeName) (i : Nat) :
    m.denoting type i ns ⊆ m.denoting type i ns' := by
  rintro c ⟨a, ha, h⟩
  exact ⟨a, hsub ha, h⟩

theorem Kept.mono {p q : Part} (h : Kept m alike ns p q) (hsub : ns ⊆ ns') :
    Kept m alike ns' p q := by
  induction h generalizing ns' with
  | same => exact .same
  | leaf hns =>
    obtain ⟨a, ha, hvalue⟩ := hns
    exact .leaf ⟨a, hsub ha, hvalue⟩
  | object hlength hunnamed _ ih =>
    refine .object hlength (fun i hi => hunnamed i ?_) fun i s s' hs hs' =>
      ih i s s' hs hs' (m.denoting_mono hsub _ i)
    exact Set.subset_eq_empty (m.denoting_mono hsub _ i) hi
  | optional _ ih => exact .optional (ih hsub)
  | unset hns hagain =>
    obtain ⟨a, ha, hvalue⟩ := hns
    refine .unset ⟨a, hsub ha, hvalue⟩ fun hnew => ?_
    obtain ⟨b, hb, hchild⟩ := hagain hnew
    exact ⟨b, hsub hb, hchild⟩
  | made hns =>
    obtain ⟨a, ha, hchild⟩ := hns
    exact .made ⟨a, hsub ha, hchild⟩
  | dictionary hunnamed hpresent _ ih =>
    refine .dictionary (fun key hkey => hunnamed key ?_) hpresent fun key f f' hf hf' =>
      ih key f f' hf hf' (under_mono hsub _ key)
    exact Set.subset_eq_empty (under_mono hsub _ key) hkey
  | leafDictionary hunnamed hpresent =>
    refine .leafDictionary (fun key hkey => hunnamed key ?_) hpresent
    exact Set.subset_eq_empty (under_mono hsub _ key) hkey
  | collection hlength _ hadded ih =>
    refine .collection hlength (fun j x y hx hy => ih j x y hx hy hsub) fun hne => ?_
    obtain ⟨e, he, hasks⟩ := hadded hne
    exact ⟨e, elementsOf_mono hsub he, hasks⟩
  | updated he hasks hid hsame hupdate _ _ ih =>
    exact .updated (elementsOf_mono hsub he) hasks hid hsame hupdate (ih hsub)
  | removed he hasks hid => exact .removed (elementsOf_mono hsub he) hasks hid
  | cleared hns =>
    obtain ⟨a, ha, hclearing⟩ := hns
    exact .cleared ⟨a, hsub ha, hclearing⟩
  | dropped hid hns =>
    obtain ⟨a, ha, hleaves⟩ := hns
    exact .dropped hid ⟨a, hsub ha, hleaves⟩

/-! ## Changes may follow each other -/

/-- Two lists are related item by item when they have one length and the items at each
position are related. -/
theorem forall₂_iff_getElem? {α β : Type} {R : α → β → Prop} {xs : List α} {ys : List β} :
    List.Forall₂ R xs ys ↔
      ys.length = xs.length ∧ ∀ (j : Nat) x y, xs[j]? = some x → ys[j]? = some y → R x y := by
  constructor
  · intro h
    refine ⟨h.length_eq.symm, fun j x y hx hy => ?_⟩
    obtain ⟨hj, rfl⟩ := List.getElem?_eq_some_iff.1 hx
    obtain ⟨hj', rfl⟩ := List.getElem?_eq_some_iff.1 hy
    exact h.get hj hj'
  · rintro ⟨hlength, h⟩
    refine List.forall₂_iff_get.2 ⟨hlength.symm, fun j hj hj' => ?_⟩
    exact h j _ _ (List.getElem?_eq_getElem hj) (List.getElem?_eq_getElem hj')

/-- What has become of each item in two steps. The items that the second step left of
those that the first one added are new. -/
theorem exists_forall₂_reduceOption {α : Type} {R S T : α → Option α → Prop}
    (hnone : ∀ x, R x none → T x none) (hsome : ∀ x y z, R x (some y) → S y z → T x z)
    {old : List α} {after : List (Option α)} (h : List.Forall₂ R old after) {added : List α} :
    ∀ {later : List (Option α)}, List.Forall₂ S (after.reduceOption ++ added) later →
      ∃ after' rest, List.Forall₂ T old after' ∧
        later.reduceOption = after'.reduceOption ++ rest ∧ (added = [] → rest = []) := by
  induction h with
  | nil =>
    intro later hlater
    refine ⟨[], later.reduceOption, .nil, rfl, ?_⟩
    rintro rfl
    cases hlater
    rfl
  | @cons x y old after hhead _ ih =>
    intro later hlater
    cases y with
    | none =>
      rw [List.reduceOption_cons_of_none] at hlater
      obtain ⟨after', rest, hafter', heq, hrest⟩ := ih hlater
      exact ⟨none :: after', rest, .cons (hnone x hhead) hafter',
        by rw [List.reduceOption_cons_of_none, heq], hrest⟩
    | some y =>
      rw [List.reduceOption_cons_of_some, List.cons_append] at hlater
      cases hlater with
      | @cons _ z _ later hz hlater =>
        obtain ⟨after', rest, hafter', heq, hrest⟩ := ih hlater
        refine ⟨z :: after', rest, .cons (hsome x y z hhead hz) hafter', ?_, hrest⟩
        cases z with
        | none => rw [List.reduceOption_cons_of_none, List.reduceOption_cons_of_none, heq]
        | some z =>
          rw [List.reduceOption_cons_of_some, List.reduceOption_cons_of_some, heq,
            List.cons_append]

/-- A collection changes once more. What became of its items at first may change as well. -/
theorem Kept.collection_trans {type : TypeName} {old : List Fields} {after : List (Option Fields)}
    {added : List Fields} {r : Part}
    (hitems : List.Forall₂ (fun x y => Kept m alike ns (.item type (some x)) (.item type y) ∧
      ∀ r, Kept m alike ns (.item type y) r → Kept m alike ns (.item type (some x)) r) old after)
    (hadded : added ≠ [] → ∃ e ∈ elementsOf ns, e.Asks m.options .add)
    (h : Kept m alike ns (.slot (.collection type (after.reduceOption ++ added))) r) :
    Kept m alike ns (.slot (.collection type old)) r := by
  cases h with
  | same =>
    obtain ⟨hlength, hitems⟩ := forall₂_iff_getElem?.1 hitems
    exact .collection hlength (fun j x y hx hy => (hitems j x y hx hy).1) hadded
  | @collection _ _ _ later added' hlength hlater hadded' =>
    obtain ⟨after', rest, hafter', heq, hrest⟩ := exists_forall₂_reduceOption
      (T := fun x y => Kept m alike ns (.item type (some x)) (.item type y))
      (fun x hx => hx.1) (fun x y z hx hz => hx.2 _ hz) hitems
      (forall₂_iff_getElem?.2 ⟨hlength, hlater⟩)
    obtain ⟨hlength', hitems'⟩ := forall₂_iff_getElem?.1 hafter'
    rw [heq, List.append_assoc]
    refine .collection hlength' hitems' fun hne => ?_
    by_cases hnew : added = []
    · refine hadded' fun hnone => hne ?_
      rw [hrest hnew, hnone, List.append_nil]
    · exact hadded hnew

theorem Kept.trans {p q r : Part} (h : Kept m alike ns p q) (h' : Kept m alike ns q r) :
    Kept m alike ns p r := by
  induction h generalizing r with
  | same => exact h'
  | leaf hns => cases h' with
    | same | leaf => exact .leaf hns
  | object hlength hunnamed hnamed ih =>
    cases h' with
    | same => exact .object hlength hunnamed hnamed
    | object hlength' hunnamed' hnamed' =>
      refine .object (hlength'.trans hlength)
        (fun i hi => (hunnamed' i hi).trans (hunnamed i hi)) fun i s s' hs hs' => ?_
      have hi := (List.getElem?_eq_some_iff.1 hs).1
      obtain ⟨t, ht⟩ : ∃ t, _ = some t := ⟨_, List.getElem?_eq_getElem (hlength ▸ hi)⟩
      exact ih i s t hs ht (hnamed' i t s' ht hs')
  | optional hpresent ih =>
    cases h' with
    | same => exact .optional hpresent
    | optional hpresent' => exact .optional (ih hpresent')
    | unset hns hagain => exact .unset hns hagain
  | unset hns hagain =>
    cases h' with
    | same => exact .unset hns hagain
    | optional => exact .unset hns fun _ => hagain rfl
    | unset _ hagain' => exact .unset hns hagain'
    | made hmade => exact .unset hns fun _ => hmade
  | made hns =>
    cases h' with
    | same | optional => exact .made hns
    | unset hns' hagain => exact .unset hns' hagain
  | dictionary hunnamed hpresent hnamed ih =>
    cases h' with
    | same => exact .dictionary hunnamed hpresent hnamed
    | dictionary hunnamed' hpresent' hnamed' =>
      refine .dictionary (fun key hkey => (hunnamed' key hkey).trans (hunnamed key hkey))
        (fun key hkey => hpresent' key (hpresent key hkey)) fun key f f' hf hf' => ?_
      obtain ⟨g, hg⟩ := Option.isSome_iff_exists.1 (hpresent key (by simp [hf]))
      exact ih key f g hf hg (hnamed' key g f' hg hf')
  | leafDictionary hunnamed hpresent =>
    cases h' with
    | same => exact .leafDictionary hunnamed hpresent
    | leafDictionary hunnamed' hpresent' =>
      exact .leafDictionary (fun key hkey => (hunnamed' key hkey).trans (hunnamed key hkey))
        fun key hkey => hpresent' key (hpresent key hkey)
  | collection hlength hitems hadded ih =>
    refine .collection_trans (forall₂_iff_getElem?.2 ⟨hlength, fun j x y hx hy => ?_⟩) hadded h'
    exact ⟨hitems j x y hx hy, fun r => ih j x y hx hy⟩
  | updated he hasks hid hsame hupdate _ _ ih =>
    exact .updated he hasks hid hsame hupdate (ih h')
  | removed he hasks hid =>
    cases h' with
    | same => exact .removed he hasks hid
  | cleared hns =>
    cases h' with
    | same => exact .cleared hns
  | dropped hid hns =>
    cases h' with
    | same => exact .dropped hid hns

/-! ## Single changes -/

/-- Lists that are related position by position are still so when an item of the second one
is replaced by one that is related to its counterpart. -/
theorem forall_getElem?_set {α β : Type} {R : Nat → α → β → Prop} {xs : List α} {ys : List β}
    {i : Nat} {b : β} (h : ∀ (j : Nat) x y, xs[j]? = some x → ys[j]? = some y → R j x y)
    (hb : ∀ x, xs[i]? = some x → R i x b) :
    ∀ (j : Nat) x y, xs[j]? = some x → (ys.set i b)[j]? = some y → R j x y := by
  intro j x y hx hy
  by_cases hij : i = j
  · subst hij
    have hi := (List.getElem?_eq_some_iff.1 hy).1
    rw [List.length_set] at hi
    rw [List.getElem?_set_self hi] at hy
    obtain rfl := Option.some_inj.1 hy
    exact hb x hx
  · rw [List.getElem?_set_ne hij] at hy
    exact h j x y hx hy

/-- Each position of a list is related to itself by what is reflexive. -/
theorem forall_getElem?_self {α : Type} {R : Nat → α → α → Prop} (h : ∀ j x, R j x x)
    {xs : List α} : ∀ (j : Nat) x y, xs[j]? = some x → xs[j]? = some y → R j x y := by
  intro j x y hx hy
  obtain rfl := Option.some_inj.1 (hx.symm.trans hy)
  exact h j x

/-- The entries of a dictionary are related to what they are after one of them was put. -/
theorem forall_find?_insert {α : Type} {R : String → α → α → Prop} (hrefl : ∀ key x, R key x x)
    {entries : List (String × α)} {key : String} {made : α}
    (hmade : ∀ x, Dictionary.find? key entries = some x → R key x made) :
    ∀ other x y, Dictionary.find? other entries = some x →
      Dictionary.find? other (Dictionary.insert key made entries) = some y → R other x y := by
  intro other x y hx hy
  by_cases heq : other = key
  · subst heq
    rw [Dictionary.find?_insert_self] at hy
    obtain rfl := Option.some_inj.1 hy
    exact hmade x hx
  · rw [Dictionary.find?_insert_of_ne heq, hx] at hy
    obtain rfl := Option.some_inj.1 hy
    exact hrefl other x

/-- What was in a dictionary is still there when an entry is put. -/
theorem isSome_find?_insert {α : Type} (key : String) (made : α) {entries : List (String × α)}
    {other : String} (h : (Dictionary.find? other entries).isSome) :
    (Dictionary.find? other (Dictionary.insert key made entries)).isSome := by
  by_cases heq : other = key
  · rw [heq, Dictionary.find?_insert_self]
    rfl
  · rwa [Dictionary.find?_insert_of_ne heq]

/-- A field that a key denotes changes. -/
theorem Kept.set {type : TypeName} {old : Fields} {i : Nat} {content content' : Slot}
    (hold : old[i]? = some content) (hns : (m.denoting type i ns).Nonempty)
    (h : Kept m alike (m.denoting type i ns) (.slot content) (.slot content')) :
    Kept m alike ns (.slot (.object type old)) (.slot (.object type (old.set i content'))) := by
  refine .object (by simp) (fun j hj => ?_) (forall_getElem?_set
    (R := fun j s s' => Kept m alike (m.denoting type j ns) (.slot s) (.slot s'))
    (forall_getElem?_self fun _ _ => .same) fun x hx => ?_)
  · have hne : i ≠ j := by
      rintro rfl
      exact hns.ne_empty hj
    rw [List.getElem?_set_ne hne]
  · rw [hold] at hx
    obtain rfl := Option.some_inj.1 hx
    exact h

/-- An entry whose key occurs is put into a dictionary. -/
theorem Kept.insert {type : TypeName} {old : List (String × Fields)} {key : String}
    {made : Fields} (hns : (under m.options key ns).Nonempty)
    (h : ∀ f, Dictionary.find? key old = some f →
      Kept m alike (under m.options key ns) (.slot (.object type f)) (.slot (.object type made))) :
    Kept m alike ns (.slot (.dictionary type old))
      (.slot (.dictionary type (Dictionary.insert key made old))) := by
  refine .dictionary (fun other hother => ?_) (fun _ => isSome_find?_insert key made)
    (forall_find?_insert
      (R := fun key f f' => Kept m alike (under m.options key ns) (.slot (.object type f))
        (.slot (.object type f'))) (fun _ _ => .same) h)
  have hne : other ≠ key := by
    rintro rfl
    exact hns.ne_empty hother
  rw [Dictionary.find?_insert_of_ne hne]

/-- A leaf whose key occurs is put into a dictionary of leaves. -/
theorem Kept.insert_leaf {type : LeafType} {old : List (String × Cell)} {key : String}
    {cell : Cell} (hns : (under m.options key ns).Nonempty) :
    Kept m alike ns (.slot (.leafDictionary type old))
      (.slot (.leafDictionary type (Dictionary.insert key cell old))) := by
  refine .leafDictionary (fun other hother => ?_) fun _ => isSome_find?_insert key cell
  have hne : other ≠ key := by
    rintro rfl
    exact hns.ne_empty hother
  rw [Dictionary.find?_insert_of_ne hne]

/-- One item of a collection is kept or removed, and nothing happens to the others. -/
theorem Kept.collection_set {type : TypeName} {old : List Fields} {j : Nat} {x : Fields}
    {y : Option Fields} (hold : old[j]? = some x)
    (h : Kept m alike ns (.item type (some x)) (.item type y)) :
    Kept m alike ns (.slot (.collection type old))
      (.slot (.collection type ((old.map some).set j y).reduceOption)) := by
  have hcollection : Kept m alike ns (.slot (.collection type old))
      (.slot (.collection type (((old.map some).set j y).reduceOption ++ []))) := by
    refine .collection (by simp) (forall_getElem?_set (fun k x' y' hx hy => ?_) fun x' hx => ?_)
      fun hne => absurd rfl hne
    · rw [List.getElem?_map, hx] at hy
      obtain rfl := Option.some_inj.1 hy
      exact .same
    · rw [hold] at hx
      obtain rfl := Option.some_inj.1 hx
      exact h
  rwa [List.append_nil] at hcollection

theorem reduceOption_map_some {α : Type} (xs : List α) : (xs.map some).reduceOption = xs := by
  simp [List.reduceOption]

theorem reduceOption_set_some {α : Type} (xs : List α) (j : Nat) (y : α) :
    ((xs.map some).set j (some y)).reduceOption = xs.set j y := by
  rw [← List.map_set, reduceOption_map_some]

theorem reduceOption_set_none {α : Type} (xs : List α) (j : Nat) :
    ((xs.map some).set j none).reduceOption = xs.eraseIdx j := by
  induction xs generalizing j with
  | nil => rfl
  | cons x xs ih =>
    cases j with
    | zero =>
      rw [List.map_cons, List.set_cons_zero, List.reduceOption_cons_of_none,
        reduceOption_map_some, List.eraseIdx_cons_zero]
    | succ j =>
      rw [List.map_cons, List.set_cons_succ, List.reduceOption_cons_of_some, ih,
        List.eraseIdx_cons_succ]

/-- An item whose identity an element names is updated. -/
theorem Kept.set_item {type : TypeName} {old : List Fields} {j : Nat} {x y : Fields}
    {e : Addressed} {id : Uuid} (hold : old[j]? = some x) (he : e ∈ elementsOf ns)
    (hasks : e.Asks m.options (.update id)) (hid : m.identity? type x = some id)
    (hsame : alike ∨ m.Protects (e.named m.options) type → m.identity? type y = some id)
    (hupdate : Kept m alike {e} (.slot (.object type x)) (.slot (.object type y))) :
    Kept m alike ns (.slot (.collection type old)) (.slot (.collection type (old.set j y))) := by
  rw [← reduceOption_set_some]
  exact .collection_set hold (.updated he hasks hid hsame hupdate .same)

/-- An item whose identity an element names is removed. -/
theorem Kept.eraseIdx_item {type : TypeName} {old : List Fields} {j : Nat} {x : Fields}
    {e : Addressed} {id : Uuid} (hold : old[j]? = some x) (he : e ∈ elementsOf ns)
    (hasks : e.Asks m.options (.remove id)) (hid : m.identity? type x = some id) :
    Kept m alike ns (.slot (.collection type old)) (.slot (.collection type (old.eraseIdx j))) := by
  rw [← reduceOption_set_none]
  exact .collection_set hold (.removed he hasks hid)

/-- An item is added that an element asks for. -/
theorem Kept.append_item {type : TypeName} {old : List Fields} {y : Fields} {e : Addressed}
    (he : e ∈ elementsOf ns) (hasks : e.Asks m.options .add) :
    Kept m alike ns (.slot (.collection type old)) (.slot (.collection type (old ++ [y]))) := by
  have hcollection : Kept m alike ns (.slot (.collection type old))
      (.slot (.collection type ((old.map some).reduceOption ++ [y]))) := by
    refine .collection (by simp) (fun j x z hx hz => ?_) fun _ => ⟨e, he, hasks⟩
    rw [List.getElem?_map, hx] at hz
    obtain rfl := Option.some_inj.1 hz
    exact .same
  rwa [reduceOption_map_some] at hcollection

/-- Of the items some are gone. -/
theorem Kept.of_forall₂ {type : TypeName} {old : List Fields} {after : List (Option Fields)}
    (h : List.Forall₂ (fun x y => Kept m alike ns (.item type (some x)) (.item type y)) old
      after) :
    Kept m alike ns (.slot (.collection type old))
      (.slot (.collection type after.reduceOption)) := by
  obtain ⟨hlength, hitems⟩ := forall₂_iff_getElem?.1 h
  have hcollection : Kept m alike ns (.slot (.collection type old))
      (.slot (.collection type (after.reduceOption ++ []))) :=
    .collection hlength hitems fun hne => absurd rfl hne
  rwa [List.append_nil] at hcollection

/-- All items are gone where an array has them removed. -/
theorem Kept.nil {type : TypeName} {old : List Fields} (hns : ∃ a ∈ ns, m.Clearing type a) :
    Kept m alike ns (.slot (.collection type old)) (.slot (.collection type [])) := by
  have hgone : List.Forall₂ (fun x y => Kept m alike ns (.item type (some x)) (.item type y)) old
      (old.map fun _ => none) := by
    rw [List.forall₂_map_right_iff]
    exact List.forall₂_same.2 fun _ _ => .cleared hns
  have hnone : (old.map fun _ => (none : Option Fields)).reduceOption = [] := by
    simp [List.reduceOption]
  rw [← hnone]
  exact .of_forall₂ hgone

/-! ## What is left -/

/-- An item that no element names is still there, unchanged, unless an array has it removed
together with others. -/
theorem Kept.eq_of_unnamed {type : TypeName} {x : Fields} {p : Part}
    (hunnamed : ∀ e ∈ elementsOf ns, ∀ id, m.identity? type x = some id →
      ¬ e.Asks m.options (.update id) ∧ ¬ e.Asks m.options (.remove id))
    (hclearing : ∀ a ∈ ns, ¬ m.Clearing type a)
    (hleft : ∀ a ∈ ns, ∀ id, m.identity? type x = some id → ¬ m.LeavesOut id a)
    (h : Kept m alike ns (.item type (some x)) p) : p = .item type (some x) := by
  cases h with
  | same => rfl
  | updated he hasks hid => exact absurd hasks (hunnamed _ he _ hid).1
  | removed he hasks hid => exact absurd hasks (hunnamed _ he _ hid).2
  | cleared hns =>
    obtain ⟨a, ha, hclears⟩ := hns
    exact absurd hclears (hclearing a ha)
  | dropped hid hns =>
    obtain ⟨a, ha, hleaves⟩ := hns
    exact absurd hleaves (hleft a ha _ hid)

/-- Between graphs that are alike, an item that is still there has its identity. -/
theorem Kept.identity?_eq (halike : alike) {type : TypeName} {old new : Fields}
    (h : Kept m alike ns (.item type (some old)) (.item type (some new))) :
    m.identity? type new = m.identity? type old := by
  generalize hp : Part.item type (some old) = p at h
  generalize hq : Part.item type (some new) = q at h
  induction h generalizing old with
  | same =>
    obtain ⟨-, heq⟩ := Part.item.inj (hp.trans hq.symm)
    rw [Option.some_inj.1 heq]
  | updated _ _ hid hsame _ _ _ ih =>
    obtain ⟨rfl, hold⟩ := Part.item.inj hp
    obtain rfl := Option.some_inj.1 hold
    rw [hid, ← hsame (.inl halike)]
    exact ih rfl hq
  | removed | cleared | dropped => cases hq
  | _ => cases hp

/-- An item that is still there is kept in what no element mentions of it. -/
theorem Kept.of_item {type : TypeName} {old new : Fields}
    (h : Kept m alike ns (.item type (some old)) (.item type (some new))) :
    Kept m alike (elementsOf ns) (.slot (.object type old)) (.slot (.object type new)) := by
  generalize hp : Part.item type (some old) = p at h
  generalize hq : Part.item type (some new) = q at h
  induction h generalizing old with
  | same =>
    obtain ⟨-, heq⟩ := Part.item.inj (hp.trans hq.symm)
    rw [Option.some_inj.1 heq]
    exact .same
  | updated he _ _ _ hupdate _ _ ih =>
    obtain ⟨rfl, hold⟩ := Part.item.inj hp
    obtain rfl := Option.some_inj.1 hold
    exact (hupdate.mono (Set.singleton_subset_iff.2 he)).trans (ih rfl hq)
  | removed | cleared | dropped => cases hq
  | _ => cases hp

/-- What has become of the items of a collection. -/
theorem Kept.exists_after {type : TypeName} {old : List Fields} {s : Slot}
    (h : Kept m alike ns (.slot (.collection type old)) (.slot s)) :
    ∃ after added, s = .collection type (after.reduceOption ++ added) ∧
      List.Forall₂ (fun x y => Kept m alike ns (.item type (some x)) (.item type y)) old after := by
  cases h with
  | same =>
    refine ⟨old.map some, [], ?_, ?_⟩
    · rw [reduceOption_map_some, List.append_nil]
    · rw [List.forall₂_map_right_iff]
      exact List.forall₂_same.2 fun _ _ => .same
  | collection hlength hitems =>
    exact ⟨_, _, rfl, forall₂_iff_getElem?.2 ⟨hlength, hitems⟩⟩

/-- A field is still there, and is kept in what the keys that denote it mention. -/
theorem Kept.field {type : TypeName} {old new : Fields} {i : Nat} {s : Slot}
    (hold : old[i]? = some s)
    (h : Kept m alike ns (.slot (.object type old)) (.slot (.object type new))) :
    ∃ s', new[i]? = some s' ∧ Kept m alike (m.denoting type i ns) (.slot s) (.slot s') := by
  cases h with
  | same => exact ⟨s, hold, .same⟩
  | object hlength _ hnamed =>
    have hi := (List.getElem?_eq_some_iff.1 hold).1
    obtain ⟨s', hs'⟩ : ∃ s', new[i]? = some s' := ⟨_, List.getElem?_eq_getElem (hlength ▸ hi)⟩
    exact ⟨s', hs', hnamed i s s' hold hs'⟩

/-- A field that no key denotes is still there, unchanged. -/
theorem Kept.getElem?_of_unnamed {type : TypeName} {old new : Fields} {i : Nat}
    (hunnamed : m.denoting type i ns = ∅)
    (h : Kept m alike ns (.slot (.object type old)) (.slot (.object type new))) :
    new[i]? = old[i]? := by
  cases h with
  | same => rfl
  | object _ hfields => exact hfields i hunnamed

end SelectiveMerge
