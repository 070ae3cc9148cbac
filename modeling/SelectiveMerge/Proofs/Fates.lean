import Mathlib.Data.List.Forall2
import Mathlib.Data.List.ReduceOption
import Mathlib.Logic.Relation
import SelectiveMerge.Proofs.Settled
import SelectiveMerge.Proofs.Stability

/-!
# What becomes of the items of a collection

The elements of an array come to a collection one after another. Each item that is there, or
that one of them adds, is updated some times, and may be removed in the end. The items that
are left are in their old order, those that were added come after them in the order of the
array.

* `Intent.additions`, `Intent.updates`, `Intent.removals` — what the elements ask for
* `Merger.Adds`, `Merger.Updates` — what an element does to an item
* `Merger.Fate` — what becomes of an item
* `Fates`, `ElementsRun.exists_fates` — what becomes of all items
* `Records` — which additions and removals were recorded at a path
-/

namespace SelectiveMerge

/-! ## What is asked for -/

/-- What an item of an array asks for, if it is an object whose identity can be read. -/
def Json.intent? (options : Options) : Json → Option Intent
  | .object members => (Intent.ofMembers options ⟨[]⟩ members).toOption
  | _ => none

namespace Intent

/-- The identity of the item that is to be updated. -/
def updated? : Intent → Option Uuid
  | .update id => some id
  | .add | .remove _ => none

/-- The identity of the item that is to be removed. -/
def removed? : Intent → Option Uuid
  | .remove id => some id
  | .add | .update _ => none

/-- The elements that ask for a new item, with their positions, of which the first is
`position`. -/
def additions (options : Options) (position : Nat) (items : List Json) : List (Json × Nat) :=
  (items.zipIdx position).filter fun element => element.1.intent? options = some .add

/-- The identities of the items that are to be updated, in the order of the elements. -/
def updates (options : Options) (items : List Json) : List Uuid :=
  items.filterMap fun item => (item.intent? options).bind updated?

/-- The identities of the items that are to be removed, in the order of the elements. -/
def removals (options : Options) (items : List Json) : List Uuid :=
  items.filterMap fun item => (item.intent? options).bind removed?

variable {options : Options} {item : Json} {items : List Json} {id : Uuid} {position : Nat}

theorem intent?_eq_some_iff {intent : Intent} : item.intent? options = some intent ↔
    ∃ members, item = .object members ∧ ofMembers options ⟨[]⟩ members = .ok intent := by
  cases item with
  | object members =>
    simp only [Json.intent?, Json.object.injEq, exists_eq_left']
    cases ofMembers options ⟨[]⟩ members <;> simp [Except.toOption]
  | _ => simp [Json.intent?]

/-- What an element asks for does not depend on where it is. -/
theorem intent?_of_ofMembers {full : Path} {members : List (String × Json)} {intent : Intent}
    (h : ofMembers options full members = .ok intent) :
    (Json.object members).intent? options = some intent :=
  intent?_eq_some_iff.2 ⟨members, rfl, ofMembers_eq_ok h⟩

theorem additions_cons_of_add (h : item.intent? options = some .add) :
    additions options position (item :: items) =
      (item, position) :: additions options (position + 1) items := by
  rw [additions, List.zipIdx_cons, List.filter_cons_of_pos (by simpa using h), additions]

theorem additions_cons_of_ne (h : item.intent? options ≠ some .add) :
    additions options position (item :: items) = additions options (position + 1) items := by
  rw [additions, List.zipIdx_cons, List.filter_cons_of_neg (by simpa using h), additions]

theorem updates_cons_of_update (h : item.intent? options = some (.update id)) :
    updates options (item :: items) = id :: updates options items := by
  rw [updates, List.filterMap_cons, h]
  rfl

theorem updates_cons_of_ne (h : ∀ id, item.intent? options ≠ some (.update id)) :
    updates options (item :: items) = updates options items := by
  rw [updates, List.filterMap_cons, updates]
  cases hasks : item.intent? options with
  | none => rfl
  | some intent =>
    cases intent with
    | update id => exact absurd hasks (h id)
    | add | remove => rfl

theorem removals_cons_of_remove (h : item.intent? options = some (.remove id)) :
    removals options (item :: items) = id :: removals options items := by
  rw [removals, List.filterMap_cons, h]
  rfl

theorem removals_cons_of_ne (h : ∀ id, item.intent? options ≠ some (.remove id)) :
    removals options (item :: items) = removals options items := by
  rw [removals, List.filterMap_cons, removals]
  cases hasks : item.intent? options with
  | none => rfl
  | some intent =>
    cases intent with
    | remove id => exact absurd hasks (h id)
    | add | update => rfl

theorem mem_updates : id ∈ updates options items ↔
    ∃ item ∈ items, item.intent? options = some (.update id) := by
  rw [updates, List.mem_filterMap]
  refine exists_congr fun item => and_congr_right fun _ => ?_
  cases item.intent? options with
  | none => simp
  | some intent => cases intent <;> simp [updated?]

theorem mem_removals : id ∈ removals options items ↔
    ∃ item ∈ items, item.intent? options = some (.remove id) := by
  rw [removals, List.mem_filterMap]
  refine exists_congr fun item => and_congr_right fun _ => ?_
  cases item.intent? options with
  | none => simp
  | some intent => cases intent <;> simp [removed?]

end Intent

/-! ## Lists -/

section Lists

variable {α β : Type} {R S : α → β → Prop}

theorem exists_of_forall₂_append {xs xs' : List α} {ys : List β}
    (h : List.Forall₂ R (xs ++ xs') ys) :
    ∃ zs zs', ys = zs ++ zs' ∧ List.Forall₂ R xs zs ∧ List.Forall₂ R xs' zs' := by
  induction xs generalizing ys with
  | nil => exact ⟨[], ys, rfl, .nil, h⟩
  | cons x xs ih =>
    cases h with
    | @cons _ y _ ys hhead htail =>
      obtain ⟨zs, zs', rfl, hzs, hzs'⟩ := ih htail
      exact ⟨y :: zs, zs', rfl, .cons hhead hzs, hzs'⟩

/-- What is related to a list is related to the one before a replacement. -/
theorem forall₂_of_set {xs : List α} {ys : List β} {i : Nat} {a a' : α}
    (hi : xs[i]? = some a) (hmono : ∀ x y, R x y → S x y) (ha : ∀ y, R a' y → S a y)
    (h : List.Forall₂ R (xs.set i a') ys) : List.Forall₂ S xs ys := by
  induction xs generalizing i ys with
  | nil => cases hi
  | cons x xs ih =>
    cases i with
    | zero =>
      obtain rfl := Option.some_inj.1 hi
      cases h with
      | cons hhead htail => exact .cons (ha _ hhead) (htail.imp hmono)
    | succ i =>
      cases h with
      | cons hhead htail => exact .cons (hmono _ _ hhead) (ih hi htail)

/-- What is related to a list is related to the one before a removal, with nothing in the
place of what was removed. -/
theorem exists_forall₂_of_eraseIdx {R S : α → Option β → Prop} {xs : List α}
    {ys : List (Option β)} {i : Nat} {a : α} (hi : xs[i]? = some a)
    (hmono : ∀ x y, R x y → S x y) (ha : S a none)
    (h : List.Forall₂ R (xs.eraseIdx i) ys) :
    ∃ zs, List.Forall₂ S xs zs ∧ zs.reduceOption = ys.reduceOption := by
  induction xs generalizing i ys with
  | nil => cases hi
  | cons x xs ih =>
    cases i with
    | zero =>
      obtain rfl := Option.some_inj.1 hi
      exact ⟨none :: ys, .cons ha (h.imp hmono), List.reduceOption_cons_of_none ..⟩
    | succ i =>
      cases h with
      | @cons _ y _ ys hhead htail =>
        obtain ⟨zs, hzs, heq⟩ := ih hi htail
        refine ⟨y :: zs, .cons (hmono _ _ hhead) hzs, ?_⟩
        cases y with
        | none => rw [List.reduceOption_cons_of_none, List.reduceOption_cons_of_none, heq]
        | some y => rw [List.reduceOption_cons_of_some, List.reduceOption_cons_of_some, heq]

/-- What is related to the items of a list is related to those that are left of it, when
nothing is related to those without a property. -/
theorem forall₂_filter_reduceOption {R : α → Option β → Prop} {S : α → β → Prop}
    {p : α → Bool} (hnone : ∀ x, R x none → p x = false)
    (hsome : ∀ x y, R x (some y) → p x = true ∧ S x y) {xs : List α} {ys : List (Option β)}
    (h : List.Forall₂ R xs ys) : List.Forall₂ S (xs.filter p) ys.reduceOption := by
  induction h with
  | nil => exact .nil
  | @cons x y xs ys hhead _ ih =>
    cases y with
    | none =>
      rw [List.filter_cons_of_neg (by simp [hnone x hhead]), List.reduceOption_cons_of_none]
      exact ih
    | some y =>
      obtain ⟨hp, hxy⟩ := hsome x y hhead
      rw [List.filter_cons_of_pos hp, List.reduceOption_cons_of_some]
      exact .cons hxy ih

/-- Those that are left of some items of a list come from items of it, in the same order. -/
theorem exists_sublist_of_forall₂ {R : α → Option β → Prop} (p : β → Bool) {xs : List α}
    {ys : List (Option β)} (h : List.Forall₂ R xs ys) :
    ∃ zs, zs.Sublist xs ∧
      List.Forall₂ (fun x y => R x (some y) ∧ p y = true) zs (ys.reduceOption.filter p) := by
  induction h with
  | nil => exact ⟨[], .slnil, .nil⟩
  | @cons x y xs ys hhead _ ih =>
    obtain ⟨zs, hzs, hrelated⟩ := ih
    cases y with
    | none =>
      rw [List.reduceOption_cons_of_none]
      exact ⟨zs, hzs.cons x, hrelated⟩
    | some y =>
      rw [List.reduceOption_cons_of_some, List.filter_cons]
      split
      · rename_i hp
        exact ⟨x :: zs, hzs.cons_cons x, .cons ⟨hhead, hp⟩ hrelated⟩
      · exact ⟨zs, hzs.cons x, hrelated⟩

theorem exists_of_forall₂_of_mem {xs : List α} {ys : List β} {y : β}
    (h : List.Forall₂ R xs ys) (hy : y ∈ ys) : ∃ x ∈ xs, R x y := by
  obtain ⟨j, hj⟩ := List.mem_iff_getElem?.1 hy
  obtain ⟨hlength, hrelated⟩ := forall₂_iff_getElem?.1 h
  obtain ⟨hlt, -⟩ := List.getElem?_eq_some_iff.1 hj
  have hx := List.getElem?_eq_getElem (hlength ▸ hlt)
  exact ⟨_, List.mem_of_getElem? hx, hrelated j _ _ hx hj⟩

end Lists

/-! ## The record at a path -/

/-- Of the changes that were recorded at a path from one moment to another, those that are
additions, and those that are removals, carry these identities. -/
def Records (full : Path) (s s' : Session) (added removed : List (Option Uuid)) : Prop :=
  ∃ changes, s'.changesAt full = s.changesAt full ++ changes ∧
    changes.filter (fun c => c.kind = .added) = added.map (Change.mk full .added) ∧
    changes.filter (fun c => c.kind = .removed) = removed.map (Change.mk full .removed)

namespace Records

variable {full : Path} {s t s' : Session} {added added' removed removed' : List (Option Uuid)}

theorem of_elsewhere (h : Elsewhere full s s') : Records full s s' [] [] :=
  ⟨[], by rw [h.changesAt_eq, List.append_nil], rfl, rfl⟩

theorem trans (h : Records full s t added removed) (h' : Records full t s' added' removed') :
    Records full s s' (added ++ added') (removed ++ removed') := by
  obtain ⟨changes, hchanges, hadded, hremoved⟩ := h
  obtain ⟨changes', hchanges', hadded', hremoved'⟩ := h'
  refine ⟨changes ++ changes', ?_, ?_, ?_⟩
  · rw [hchanges', hchanges, List.append_assoc]
  · rw [List.filter_append, hadded, hadded', List.map_append]
  · rw [List.filter_append, hremoved, hremoved', List.map_append]

/-- An item is added. -/
theorem noting_added (request : Request) (id : Option Uuid) :
    Records full s ((s.asking request).noting ⟨full, .added, id⟩) [id] [] :=
  ⟨[⟨full, .added, id⟩], Session.changesAt_noting rfl .., rfl, rfl⟩

/-- An item is removed. -/
theorem noting_removed (request : Request) (id : Option Uuid) :
    Records full s ((s.asking request).noting ⟨full, .removed, id⟩) [] [id] :=
  ⟨[⟨full, .removed, id⟩], Session.changesAt_noting rfl .., rfl, rfl⟩

theorem asking (s : Session) (request : Request) : Records full s (s.asking request) [] [] :=
  ⟨[], (List.append_nil _).symm, rfl, rfl⟩

/-- A collection is cleared. -/
theorem noting_cleared (request : Request) :
    Records full s ((s.asking request).noting ⟨full, .cleared, none⟩) [] [] :=
  ⟨[⟨full, .cleared, none⟩], Session.changesAt_noting rfl .., rfl, rfl⟩

end Records

namespace Merger

open Intent (additions updates removals)

variable {m : Merger} {r : Reconciliation} {s t s' : Session} {items items' : List Json}
  {members : List (String × Json)} {state mid state' : Reconciled} {position minted : Nat}

/-! ## What an element does -/

/-- An element of an array makes a new item: the item is made by a factory or from nothing,
with `minted` or more identities given out before, and walked over together with the item of
the patch at the position of the element. -/
def Adds (m : Merger) (r : Reconciliation) (minted : Nat) (element : Json × Nat)
    (fields : Fields) : Prop :=
  ∃ members patchItem fresh s t u v, element.1 = .object members ∧
    Collection.item? r.patchType r.patchItems element.2 = some patchItem ∧ minted ≤ s.minted ∧
    m.MakesItem r patchItem s fresh t ∧ fresh.type = r.type ∧
    m.Walks r.full.segments patchItem fresh members u fields v

/-- An element updates an item that has the identity which it names: the item is walked over
together with the item of the patch with this identity. -/
def Updates (m : Merger) (r : Reconciliation) (items : List Json) (old new : Fields) : Prop :=
  ∃ members id patchItem s s', .object members ∈ items ∧
    (Json.object members).intent? m.options = some (.update id) ∧
    m.identity? r.type old = some id ∧
    m.catalogue.itemWithId? r.patchType r.patchItems id = some patchItem ∧
    m.Walks r.full.segments patchItem ⟨r.type, old⟩ members s new s'

/-- One update after another turns an item into what it is afterwards. -/
def Becomes (m : Merger) (r : Reconciliation) (items : List Json) : Fields → Fields → Prop :=
  Relation.ReflTransGen (m.Updates r items)

/-- What becomes of an item when the elements of an array come to its collection: it is left,
or it is removed by an element that names the identity that it has at that moment. -/
inductive Fate (m : Merger) (r : Reconciliation) (items : List Json) (old : Fields) :
    Option Fields → Prop where
  | left {new : Fields} (h : m.Becomes r items old new) : Fate m r items old (some new)
  | removed {last : Fields} {id : Uuid} (h : m.Becomes r items old last)
      (hid : m.identity? r.type last = some id) (hasked : id ∈ removals m.options items) :
      Fate m r items old none

theorem Adds.mono {minted' : Nat} {element : Json × Nat} {fields : Fields}
    (hle : minted ≤ minted') (h : m.Adds r minted' element fields) :
    m.Adds r minted element fields := by
  obtain ⟨members, patchItem, fresh, s, t, u, v, hobject, hpatch, hminted, h⟩ := h
  exact ⟨members, patchItem, fresh, s, t, u, v, hobject, hpatch, hle.trans hminted, h⟩

theorem Updates.mono {old new : Fields} (hsub : items ⊆ items')
    (h : m.Updates r items old new) : m.Updates r items' old new := by
  obtain ⟨members, id, patchItem, s, s', hmem, h⟩ := h
  exact ⟨members, id, patchItem, s, s', hsub hmem, h⟩

theorem Fate.mono {old : Fields} {new : Option Fields} (hsub : items ⊆ items')
    (h : m.Fate r items old new) : m.Fate r items' old new := by
  cases h with
  | left h => exact .left (Relation.ReflTransGen.mono (fun _ _ => Updates.mono hsub) _ _ h)
  | removed h hid hasked =>
    refine .removed (Relation.ReflTransGen.mono (fun _ _ => Updates.mono hsub) _ _ h) hid ?_
    exact List.filterMap_subset _ hsub hasked

/-- What becomes of an item after an update becomes of it. -/
theorem Fate.of_updates {old next : Fields} {new : Option Fields}
    (hupdate : m.Updates r items old next) (h : m.Fate r items next new) :
    m.Fate r items old new := by
  cases h with
  | left h => exact .left (h.head hupdate)
  | removed h hid hasked => exact .removed (h.head hupdate) hid hasked

section Identities

variable (hactions : m.configuration.NoActions) (hderived : m.catalogue.Derived)
  (hkeeps : m.NamesIdentity r.type ∨ r.patchType = r.type)

include hactions hderived hkeeps

/-- An update keeps the identity of its item, when that is in a member called `id` or the item
of the patch is of the same type. -/
theorem Updates.identity?_eq {old new : Fields} (h : m.Updates r items old new) :
    m.identity? r.type new = m.identity? r.type old := by
  obtain ⟨members, id, patchItem, s, s', -, -, hid, hfound, hwalk⟩ := h
  have hsecure : m.Secure Set.univ patchItem ⟨r.type, old⟩ := by
    rcases hkeeps with hnames | htype
    · exact .inl (hnames.protects Set.univ)
    · exact .of_itemWithId? htype hfound hid
  exact identity?_runDirectives hactions hderived hsecure (fun _ _ _ _ => Set.mem_univ _) hwalk

theorem Becomes.identity?_eq {old new : Fields} (h : m.Becomes r items old new) :
    m.identity? r.type new = m.identity? r.type old := by
  induction h with
  | refl => rfl
  | tail _ hupdate ih => exact (hupdate.identity?_eq hactions hderived hkeeps).trans ih

end Identities

/-! ## What all elements do -/

/-- What becomes of the items of a collection when the elements of an array come to it, and
what becomes of those that they add, which held `firsts` when they were added. -/
structure Fates (m : Merger) (r : Reconciliation) (minted position : Nat) (items : List Json)
    (state state' : Reconciled) (firsts : List Fields) (fates newFates : List (Option Fields)) :
    Prop where
  adds : List.Forall₂ (m.Adds r minted) (additions m.options position items) firsts
  olds : List.Forall₂ (m.Fate r items) state.items fates
  news : List.Forall₂ (m.Fate r items) firsts newFates
  items_eq : state'.items = fates.reduceOption ++ newFates.reduceOption
  mem_mentioned : ∀ id, id ∈ state'.mentioned ↔ id ∈ updates m.options items ∨
    some id ∈ firsts.map (m.identity? r.type) ∨ id ∈ state.mentioned

namespace Fates

variable {firsts : List Fields} {fates newFates : List (Option Fields)} {fields : Fields}

theorem nil : m.Fates r minted position [] state state [] (state.items.map some) [] where
  adds := .nil
  olds := by
    rw [List.forall₂_map_right_iff]
    exact List.forall₂_same.2 fun _ _ => .left .refl
  news := .nil
  items_eq := by rw [reduceOption_map_some, List.reduceOption_nil, List.append_nil]
  mem_mentioned := by simp [updates]

/-- More identities may have been given out. -/
theorem mono {minted' : Nat} (hle : minted ≤ minted')
    (h : m.Fates r minted' position items state state' firsts fates newFates) :
    m.Fates r minted position items state state' firsts fates newFates :=
  { h with adds := h.adds.imp fun _ _ => Adds.mono hle }

/-- The first element adds an item. -/
theorem add (hintent : (Json.object members).intent? m.options = some .add)
    (hadds : m.Adds r minted (.object members, position) fields)
    (h : m.Fates r minted (position + 1) items ⟨state.items ++ [fields],
      (m.identity? r.type fields).toList ++ state.mentioned⟩ state' firsts fates newFates) :
    ∃ fates newFates, m.Fates r minted position (.object members :: items) state state'
      (fields :: firsts) fates newFates := by
  have hsub := List.subset_cons_self (Json.object members) items
  obtain ⟨olds, news, rfl, holds, hnews⟩ := exists_of_forall₂_append h.olds
  cases hnews with
  | @cons _ fate _ _ hfate hnil =>
    cases hnil
    refine ⟨olds, fate :: newFates, ?_, ?_, ?_, ?_, fun id => ?_⟩
    · rw [Intent.additions_cons_of_add hintent]
      exact .cons hadds h.adds
    · exact holds.imp fun _ _ => Fate.mono hsub
    · exact .cons (hfate.mono hsub) (h.news.imp fun _ _ => Fate.mono hsub)
    · rw [h.items_eq, List.reduceOption_append, List.append_assoc, ← List.reduceOption_append]
      rfl
    · rw [h.mem_mentioned, Intent.updates_cons_of_ne (by simp [hintent]), List.map_cons,
        List.mem_cons, List.mem_append, Option.mem_toList, eq_comm]
      tauto

/-- The first element updates an item. -/
theorem update {id : Uuid} {index : Nat} {item : Fields}
    (hintent : (Json.object members).intent? m.options = some (.update id))
    (hitem : state.items[index]? = some item)
    (hupdates : m.Updates r (.object members :: items) item fields)
    (h : m.Fates r minted (position + 1) items
      ⟨state.items.set index fields, id :: state.mentioned⟩ state' firsts fates newFates) :
    m.Fates r minted position (.object members :: items) state state' firsts fates newFates := by
  have hsub := List.subset_cons_self (Json.object members) items
  refine ⟨?_, ?_, h.news.imp fun _ _ => Fate.mono hsub, h.items_eq, fun other => ?_⟩
  · rw [Intent.additions_cons_of_ne (by simp [hintent])]
    exact h.adds
  · exact forall₂_of_set hitem (fun _ _ => Fate.mono hsub)
      (fun _ hfate => .of_updates hupdates (hfate.mono hsub)) h.olds
  · rw [h.mem_mentioned, Intent.updates_cons_of_update hintent, List.mem_cons, List.mem_cons]
    tauto

/-- The first element removes an item. -/
theorem remove {id : Uuid} {index : Nat} {item : Fields}
    (hintent : (Json.object members).intent? m.options = some (.remove id))
    (hitem : state.items[index]? = some item) (hid : m.identity? r.type item = some id)
    (h : m.Fates r minted (position + 1) items { state with items := state.items.eraseIdx index }
      state' firsts fates newFates) :
    ∃ fates, m.Fates r minted position (.object members :: items) state state' firsts fates
      newFates := by
  have hsub := List.subset_cons_self (Json.object members) items
  have hasked : id ∈ removals m.options (.object members :: items) := by
    rw [Intent.removals_cons_of_remove hintent]
    exact List.mem_cons_self ..
  obtain ⟨olds, holds, heq⟩ := exists_forall₂_of_eraseIdx
    (S := m.Fate r (.object members :: items)) hitem (fun _ _ => Fate.mono hsub)
    (.removed .refl hid hasked) h.olds
  refine ⟨olds, ?_, holds, h.news.imp fun _ _ => Fate.mono hsub, ?_, fun other => ?_⟩
  · rw [Intent.additions_cons_of_ne (by simp [hintent])]
    exact h.adds
  · rw [h.items_eq, heq]
  · rw [h.mem_mentioned, Intent.updates_cons_of_ne (by simp [hintent])]

end Fates

/-- The keys of a directive of a payload are some. -/
theorem path_ne_nil_of_mem_ofMembers {options : Options} {d : Directive}
    (hd : d ∈ Directive.ofMembers options members) : d.path ≠ [] := by
  obtain ⟨path, leaf, hleads, rfl⟩ := Directive.mem_ofMembers_iff.1 hd
  rw [Directive.path_ofValue]
  cases hleads with
  | here hvalue => cases hvalue
  | member => exact List.cons_ne_nil _ _

/-- A walk over an object at a path does nothing at that path itself. -/
theorem Walks.elsewhere (hactions : m.configuration.NoActions) {patch original : Node}
    {made : Fields} {full : Path} (h : m.Walks full.segments patch original members s made s') :
    Elsewhere full s s' := by
  refine runDirectives_elsewhere hactions (fun d hd hprefix => ?_) h
  have hlength := hprefix.length_le
  rw [List.length_append] at hlength
  have hpos := List.length_pos_iff.2 (path_ne_nil_of_mem_ofMembers hd)
  omega

theorem MakesItem.elsewhere {patchItem item : Node} (h : m.MakesItem r patchItem s item s')
    (full : Path) : Elsewhere full s s' := by
  cases h with
  | factory => exact .refl full s
  | construct _ hmade => exact hmade.elsewhere full

/-- The elements of an array run one after another. -/
theorem ElementsRun.of_cons {item : Json}
    (h : m.ElementsRun r position (Directive.elements m.options (item :: items)) state s state'
      s') :
    ∃ members mid t, item = .object members ∧
      m.ElementStep r position members (Directive.ofMembers m.options members) state s mid t ∧
      m.ElementsRun r (position + 1) (Directive.elements m.options items) mid t state' s' := by
  rw [Directive.elements_eq_map, List.map_cons] at h
  generalize hitem : Element.mk item (Directive.ofItem m.options item) = element at h
  cases h with
  | cons hstep hrest =>
    obtain ⟨rfl, rfl⟩ := Element.mk.inj hitem
    rw [← Directive.elements_eq_map] at hrest
    exact ⟨_, _, _, rfl, hstep, hrest⟩

theorem ElementsRun.of_nil
    (h : m.ElementsRun r position (Directive.elements m.options []) state s state' s') :
    state' = state ∧ s' = s := by
  cases h with
  | nil => exact ⟨rfl, rfl⟩

/-- The elements of an array add, update and remove items as they ask for, and additions and
removals are recorded. -/
theorem ElementsRun.exists_fates (hactions : m.configuration.NoActions)
    (h : m.ElementsRun r position (Directive.elements m.options items) state s state' s') :
    ∃ firsts fates newFates,
      m.Fates r s.minted position items state state' firsts fates newFates ∧
      Records r.full s s' (firsts.map (m.identity? r.type))
        ((removals m.options items).map some) := by
  induction items generalizing position state s with
  | nil =>
    obtain ⟨rfl, rfl⟩ := h.of_nil
    exact ⟨[], _, [], .nil, .of_elsewhere (.refl ..)⟩
  | cons item items ih =>
    obtain ⟨members, mid, t, rfl, hstep, hrest⟩ := h.of_cons
    obtain ⟨firsts, fates, newFates, hfates, hrecords⟩ := ih hrest
    have hminted := (hstep.extends (m.runsExtend _)).counters.2
    have hmono := hfates.mono hminted
    cases hstep with
    | @add patchItem fresh fields u v hintent hpatch hfresh htype hrun =>
      have hasks := Intent.intent?_of_ofMembers hintent
      obtain ⟨fates, newFates, hfates⟩ := hmono.add hasks
        ⟨members, patchItem, fresh, s, u, _, v, rfl, hpatch, le_rfl, hfresh, htype, hrun⟩
      refine ⟨_, fates, newFates, hfates, ?_⟩
      rw [Intent.removals_cons_of_ne (by simp [hasks])]
      -- the changes that were recorded while the item was populated are forgotten
      have hadded := (Records.noting_added
        (s := { v with report := u.report, populating := u.populating }) _ _).trans hrecords
      exact (Records.of_elsewhere (hfresh.elsewhere _)).trans hadded
    | @update id index item fields patchItem _ hintent hindex hitem hpatch hrun =>
      have hasks := Intent.intent?_of_ofMembers hintent
      have hid := identity?_of_position? hindex hitem
      have hupdates : m.Updates r (.object members :: items) item fields :=
        ⟨members, id, patchItem, s, t, List.mem_cons_self .., hasks, hid, hpatch, hrun⟩
      refine ⟨firsts, fates, newFates, hmono.update hasks hitem hupdates, ?_⟩
      rw [Intent.removals_cons_of_ne (by simp [hasks])]
      have hwalk : m.Walks r.full.segments patchItem ⟨r.type, item⟩ members s fields t := hrun
      exact (Records.of_elsewhere (hwalk.elsewhere hactions)).trans hrecords
    | @remove id index hintent hindex =>
      have hasks := Intent.intent?_of_ofMembers hintent
      obtain ⟨hlt, -⟩ := List.findIdx?_eq_some_iff_getElem.1 hindex
      have hitem := List.getElem?_eq_getElem hlt
      obtain ⟨fates, hfates⟩ := hmono.remove hasks hitem (identity?_of_position? hindex hitem)
      refine ⟨firsts, fates, newFates, hfates, ?_⟩
      rw [Intent.removals_cons_of_remove hasks]
      exact (Records.noting_removed _ _).trans hrecords

end Merger

end SelectiveMerge
