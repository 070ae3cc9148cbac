import SelectiveMerge.Proofs.Evolution
import SelectiveMerge.Proofs.Fates
import SelectiveMerge.Proofs.PayloadValues
import SelectiveMerge.Proofs.Reordering

/-!
# Elements in another order

An element that names an item changes this item or removes it, wherever it stands, and leaves
all other items as and where they are. So elements that name different items can come in any
order. The same is true of an array anywhere in a payload, be it in an element of another one.

* `Effect.AtItem`, `Effect.AtItem.exchange` — what is done to two different items is done in
  either order
* `Merger.elementEffect_of_named` — what an element does to the item that it names
* `Json.NamesApart`, `Merger.elementsEffect_perm` — elements that name different items
* `Merger.Permutes`, `Merger.reorders_of_permutes` — payloads with such an array
-/

namespace SelectiveMerge

/-! ## What is done to one item -/

namespace Effect

/-- Something is done to the first item with an identity, and the items that are left of it
take its place. -/
inductive AtItem {α : Type} (identity : α → Option Uuid) (id : Uuid)
    (serve : α → List Uuid → List Change → List α → Prop) :
    List α → List Uuid → List Change → List α → Prop where
  | here {item : α} {rest kept : List α} {ids : List Uuid} {changes : List Change}
      (hid : identity item = some id) (hserve : serve item ids changes kept) :
      AtItem identity id serve (item :: rest) ids changes (kept ++ rest)
  | later {item : α} {rest left : List α} {ids : List Uuid} {changes : List Change}
      (hid : identity item ≠ some id) (hrest : AtItem identity id serve rest ids changes left) :
      AtItem identity id serve (item :: rest) ids changes (item :: left)

namespace AtItem

variable {α : Type} {identity : α → Option Uuid} {id other : Uuid}
  {serve serve' : α → List Uuid → List Change → List α → Prop} {items left : List α}
  {ids : List Uuid} {changes : List Change}

/-- The item is the one at the position of the identity. -/
theorem iff_exists_index : AtItem identity id serve items ids changes left ↔
    ∃ index item kept, items.findIdx? (fun item => identity item == some id) = some index ∧
      items[index]? = some item ∧ serve item ids changes kept ∧
      left = items.take index ++ kept ++ items.drop (index + 1) := by
  constructor
  · intro h
    induction h with
    | here hid hserve =>
      exact ⟨0, _, _, by simp [List.findIdx?_cons, hid], rfl, hserve, rfl⟩
    | later hid _ ih =>
      obtain ⟨index, item, kept, hindex, hitem, hserve, rfl⟩ := ih
      exact ⟨index + 1, item, kept, by simp [List.findIdx?_cons, hid, hindex], hitem, hserve, rfl⟩
  · rintro ⟨index, item, kept, hindex, hitem, hserve, rfl⟩
    induction items generalizing index with
    | nil => cases hitem
    | cons first rest ih =>
      rw [List.findIdx?_cons] at hindex
      split at hindex
      · rename_i hid
        obtain rfl := Option.some_inj.1 hindex
        obtain rfl := Option.some_inj.1 hitem
        exact .here (by simpa using hid) hserve
      · rename_i hid
        obtain ⟨before, hbefore, rfl⟩ := Option.map_eq_some_iff.1 hindex
        exact .later (by simpa using hid) (ih before hbefore hitem)

/-- Items of other identities are passed over. -/
theorem append_iff {front rest : List α} (hfront : ∀ item ∈ front, identity item ≠ some id) :
    AtItem identity id serve (front ++ rest) ids changes left ↔
      ∃ left', left = front ++ left' ∧ AtItem identity id serve rest ids changes left' := by
  induction front generalizing left with
  | nil => simp
  | cons item front ih =>
    rw [List.forall_mem_cons] at hfront
    constructor
    · intro h
      cases h with
      | here hid => exact (hfront.1 hid).elim
      | later _ hrest =>
        obtain ⟨left', rfl, hrest'⟩ := (ih hfront.2).1 hrest
        exact ⟨left', rfl, hrest'⟩
    · rintro ⟨left', rfl, hrest⟩
      exact .later hfront.1 ((ih hfront.2).2 ⟨left', rfl, hrest⟩)

/-- What is done to two items of different identities can be done in either order, if what is
left of each of them has the identity that it had. -/
theorem exchange (hne : id ≠ other)
    (hkept : ∀ {item ids changes kept}, identity item = some id → serve item ids changes kept →
      ∀ k ∈ kept, identity k = some id)
    (hkept' : ∀ {item ids changes kept}, identity item = some other →
      serve' item ids changes kept → ∀ k ∈ kept, identity k = some other) :
    Reorders (Then (AtItem identity id serve) (AtItem identity other serve'))
      (Then (AtItem identity other serve') (AtItem identity id serve)) := by
  have hsome : some id ≠ some other := fun heq => hne (Option.some_inj.1 heq)
  rintro items _ _ left ⟨hfirst, hsecond⟩
  rename_i mid ids later changes more
  suffices h : ∃ between, AtItem identity other serve' items later more between ∧
      AtItem identity id serve between ids changes left by
    obtain ⟨between, hsecond', hfirst'⟩ := h
    exact ⟨_, _, List.perm_append_comm, List.perm_append_comm, .intro hsecond' hfirst'⟩
  induction hfirst generalizing left with
  | @here item rest kept _ _ hid hserve =>
    -- what is left of the first item is passed over
    have hother : ∀ k ∈ kept, identity k ≠ some other := fun k hk =>
      hkept hid hserve k hk ▸ hsome
    obtain ⟨left', rfl, hrest⟩ := (append_iff hother).1 hsecond
    exact ⟨item :: left', .later (hid ▸ hsome) hrest, .here hid hserve⟩
  | @later item rest mid _ _ hid hrest ih =>
    cases hsecond with
    | @here _ _ kept _ _ hid' hserve' =>
      have hother : ∀ k ∈ kept, identity k ≠ some id := fun k hk =>
        hkept' hid' hserve' k hk ▸ hsome.symm
      exact ⟨kept ++ rest, .here hid' hserve', (append_iff hother).2 ⟨mid, rfl, hrest⟩⟩
    | later hid' hrest' =>
      obtain ⟨between, hsecond', hfirst'⟩ := ih hrest'
      exact ⟨item :: between, .later hid' hsecond', .later hid hfirst'⟩

end AtItem

end Effect

/-! ## Elements that name items -/

/-- The identity of the item that is to be updated or removed. -/
def Intent.named? : Intent → Option Uuid
  | .update id | .remove id => some id
  | .add => none

namespace Json

/-- The identity of the item that an element names. -/
def named? (options : Options) (item : Json) : Option Uuid :=
  (item.intent? options).bind Intent.named?

theorem named?_eq_some_iff {options : Options} {item : Json} {id : Uuid} :
    item.named? options = some id ↔
      item.intent? options = some (.update id) ∨ item.intent? options = some (.remove id) := by
  unfold named?
  cases item.intent? options with
  | none => simp
  | some intent => cases intent <;> simp [Intent.named?]

/-- The elements of an array all name items, and different ones. -/
structure NamesApart (options : Options) (items : List Json) : Prop where
  named : ∀ item ∈ items, (item.named? options).isSome
  distinct : (items.map (named? options)).Nodup

namespace NamesApart

variable {options : Options} {items items' : List Json} {item item' : Json}

theorem perm (h : NamesApart options items) (hperm : items.Perm items') :
    NamesApart options items' :=
  ⟨fun item hitem => h.named item (hperm.mem_iff.2 hitem),
    (hperm.map _).nodup_iff.1 h.distinct⟩

theorem tail (h : NamesApart options (item :: items)) : NamesApart options items :=
  ⟨fun other hother => h.named other (List.mem_cons_of_mem _ hother), h.distinct.of_cons⟩

/-- The first two elements name two items. -/
theorem exists_ne (h : NamesApart options (item :: item' :: items)) :
    ∃ id other, item.named? options = some id ∧ item'.named? options = some other ∧
      id ≠ other := by
  obtain ⟨id, hid⟩ := Option.isSome_iff_exists.1 (h.named item (by simp))
  obtain ⟨other, hother⟩ := Option.isSome_iff_exists.1 (h.named item' (by simp))
  refine ⟨id, other, hid, hother, ?_⟩
  rintro rfl
  have hdistinct := h.distinct
  simp [hid, hother] at hdistinct

end NamesApart

end Json

namespace Merger

variable {m : Merger} {full : Path} {patchType type : TypeName} {patchItems : List Fields}
  {item item' : Json} {directives directives' : List Directive} {id other : Uuid}
  {fields : Fields} {kept : List Fields} {ids : List Uuid} {changes : List Change}

/-- What an element does to the item that it names, and what it leaves of it. -/
inductive Serves (m : Merger) (full : Path) (patchType : TypeName) (patchItems : List Fields)
    (type : TypeName) (element : Json) (directives : List Directive) :
    Fields → List Uuid → List Change → List Fields → Prop where
  | update {id : Uuid} {patchItem : Node} {fields made : Fields} {ids : List Uuid}
      {changes : List Change} (hasks : element.intent? m.options = some (.update id))
      (hpatch : m.catalogue.itemWithId? patchType patchItems id = some patchItem)
      (hinner : m.effects full.segments patchItem type directives fields ids changes made) :
      Serves m full patchType patchItems type element directives fields ids changes [made]
  | remove {id : Uuid} {fields : Fields} (hasks : element.intent? m.options = some (.remove id)) :
      Serves m full patchType patchItems type element directives fields []
        [⟨full, .removed, some id⟩] []

/-- An element that names an item does something to it, wherever the element stands. -/
theorem elementEffect_of_named (h : item.named? m.options = some id) (position : Nat) :
    m.elementEffect full patchType patchItems type position (.mk item directives) =
      Effect.AtItem (m.identity? type) id
        (m.Serves full patchType patchItems type item directives) := by
  have hasks := Json.named?_eq_some_iff.1 h
  obtain ⟨members, rfl⟩ : ∃ members, item = .object members := by
    rcases hasks with hasks | hasks <;>
      exact (Intent.intent?_eq_some_iff.1 hasks).imp fun _ h => h.1
  funext items ids changes left
  rw [elementEffect, Effect.AtItem.iff_exists_index]
  refine propext ⟨fun htakes => ?_, ?_⟩
  · cases htakes with
    | add hintent =>
      have hadd := Intent.intent?_of_ofMembers hintent
      rcases hasks with hasks | hasks <;> cases hasks.symm.trans hadd
    | @update other index item made _ _ _ hintent hindex hitem hpatch hinner =>
      have hupdate := Intent.intent?_of_ofMembers hintent
      obtain rfl : other = id := Option.some_inj.1
        ((Json.named?_eq_some_iff.2 (.inl hupdate)).symm.trans h)
      refine ⟨index, item, [made], hindex, hitem, .update hupdate hpatch hinner, ?_⟩
      rw [List.set_eq_take_append_cons_drop, if_pos (List.getElem?_eq_some_iff.1 hitem).1,
        List.append_assoc, List.singleton_append]
    | @remove other index hintent hindex =>
      have hremove := Intent.intent?_of_ofMembers hintent
      obtain rfl : other = id := Option.some_inj.1
        ((Json.named?_eq_some_iff.2 (.inr hremove)).symm.trans h)
      obtain ⟨hlt, -⟩ := List.findIdx?_eq_some_iff_getElem.1 hindex
      refine ⟨index, _, [], hindex, List.getElem?_eq_getElem hlt, .remove hremove, ?_⟩
      rw [List.eraseIdx_eq_take_drop_succ, List.append_nil]
  · rintro ⟨index, item, kept, hindex, hitem, hserve, rfl⟩
    cases hserve with
    | @update other patchItem _ made _ _ hupdate hpatch hinner =>
      obtain rfl : other = id := Option.some_inj.1
        ((Json.named?_eq_some_iff.2 (.inl hupdate)).symm.trans h)
      obtain ⟨_, ⟨⟩, hintent⟩ := Intent.intent?_eq_some_iff.1 hupdate
      rw [List.append_assoc, List.singleton_append, ← List.set_eq_take_cons_drop made
        (List.getElem?_eq_some_iff.1 hitem).1]
      exact .update (Intent.ofMembers_eq_ok hintent) hindex hitem hpatch hinner
    | @remove other _ hremove =>
      obtain rfl : other = id := Option.some_inj.1
        ((Json.named?_eq_some_iff.2 (.inr hremove)).symm.trans h)
      obtain ⟨_, ⟨⟩, hintent⟩ := Intent.intent?_eq_some_iff.1 hremove
      rw [List.append_nil, ← List.eraseIdx_eq_take_drop_succ]
      exact .remove (Intent.ofMembers_eq_ok hintent) hindex

/-- An item that is named and stays keeps its identity. -/
theorem Serves.identity?_eq (hderived : m.catalogue.Derived)
    (hnamed : item.named? m.options = some id) (hid : m.identity? type fields = some id)
    (h : m.Serves full type patchItems type item directives fields ids changes kept) :
    ∀ k ∈ kept, m.identity? type k = some id := by
  cases h with
  | @update other _ _ made _ _ hasks hpatch hinner =>
    obtain rfl : other = id := Option.some_inj.1
      ((Json.named?_eq_some_iff.2 (.inl hasks)).symm.trans hnamed)
    intro k hk
    obtain rfl := List.mem_singleton.1 hk
    exact effects_identity?_of_itemWithId? hderived hpatch hid hinner
  | remove => simp

/-- Elements that name different items can be exchanged. -/
theorem elementEffect_exchange (hderived : m.catalogue.Derived)
    (hnamed : item.named? m.options = some id) (hnamed' : item'.named? m.options = some other)
    (hne : id ≠ other) (position position' : Nat) :
    Effect.Reorders
      (Effect.Then
        (m.elementEffect full type patchItems type position (.mk item directives))
        (m.elementEffect full type patchItems type position' (.mk item' directives')))
      (Effect.Then
        (m.elementEffect full type patchItems type position (.mk item' directives'))
        (m.elementEffect full type patchItems type position' (.mk item directives))) := by
  rw [elementEffect_of_named hnamed, elementEffect_of_named hnamed, elementEffect_of_named hnamed',
    elementEffect_of_named hnamed']
  exact Effect.AtItem.exchange hne (fun hid hserve => hserve.identity?_eq hderived hnamed hid)
    fun hid hserve => hserve.identity?_eq hderived hnamed' hid

/-- Elements that name different items have one effect in all orders, if the items of the patch
are of the type of those that are merged into. -/
theorem elementsEffect_perm (hderived : m.catalogue.Derived) {items items' : List Json}
    (hperm : items.Perm items') (hnames : Json.NamesApart m.options items) (position : Nat) :
    Effect.Reorders
      (m.elementsEffect full type patchItems type position (Directive.elements m.options items))
      (m.elementsEffect full type patchItems type position
        (Directive.elements m.options items')) := by
  simp only [Directive.elements_eq_map]
  induction hperm generalizing position with
  | nil => exact .refl _
  | cons item _ ih =>
    simp only [List.map_cons, elementsEffect]
    exact (Effect.Reorders.refl _).seq (ih hnames.tail (position + 1))
  | swap item item' items =>
    obtain ⟨id, other, hid, hother, hne⟩ := hnames.exists_ne
    simp only [List.map_cons, elementsEffect]
    rw [← Effect.then_assoc, ← Effect.then_assoc]
    exact (elementEffect_exchange hderived hid hother hne position (position + 1)).seq (.refl _)
  | trans hfirst _ ih ih' =>
    exact (ih hnames position).trans (ih' (hnames.perm hfirst) position)

end Merger

/-! ## What a typed patch shows -/

/-- What is shown is of the types that are declared at a place. -/
def View.Holds (c : Catalogue) (place : Place) (view : View) : Prop :=
  ∃ slot : Slot, slot.view = view ∧ slot.place = place ∧ Typed c slot

namespace View.Holds

variable {c : Catalogue} {place : Place} {type : TypeName}

theorem of_typed {fields : Fields} (h : Typed c (.object type fields)) :
    ∀ view, some (View.object (some ⟨type, fields⟩)) = some view →
      view.Holds c (.owner type) := by
  rintro _ ⟨⟩
  exact ⟨.object type fields, rfl, rfl, h⟩

theorem object {n : Node} (h : (View.object (some n)).Holds c place) :
    place = .owner n.type ∧ Typed c (.object n.type n.fields) := by
  obtain ⟨slot, hview, rfl, htyped⟩ := h
  cases slot with
  | object =>
    obtain ⟨⟩ := hview
    exact ⟨rfl, htyped⟩
  | optional type present =>
    cases present with
    | none => cases hview
    | some fields =>
      obtain ⟨⟩ := hview
      exact ⟨rfl, htyped.present fields rfl⟩
  | _ => cases hview

theorem collection {items : List Fields} (h : (View.collection type items).Holds c place) :
    place = .items type ∧ Typed c (.collection type items) := by
  obtain ⟨slot, hview, rfl, htyped⟩ := h
  cases slot with
  | collection =>
    obtain ⟨⟩ := hview
    exact ⟨rfl, htyped⟩
  | _ => cases hview

theorem dictionary {entries : List (String × Fields)}
    (h : (View.dictionary type entries).Holds c place) :
    place = .entries type ∧ Typed c (.dictionary type entries) := by
  obtain ⟨slot, hview, rfl, htyped⟩ := h
  cases slot with
  | dictionary =>
    obtain ⟨⟩ := hview
    exact ⟨rfl, htyped⟩
  | _ => cases hview

end View.Holds

/-- A member of a typed object shows what is declared behind its key. -/
theorem Typed.read? {m : Merger} (hderived : m.catalogue.Derived) {n : Node}
    (h : Typed m.catalogue (.object n.type n.fields)) {name : String} {member : Member}
    (hmember : m.member? n name = some member) {view : View} (hread : n.read? member = some view) :
    view.Holds m.catalogue (m.under (.owner n.type) name) := by
  obtain ⟨i, slot, hreads, hslot, hview⟩ := Node.read?_eq_some.1 hread
  obtain ⟨j, hreads', hwrites⟩ := hderived n.type member (MemberTable.mem_of_find? hmember)
  obtain rfl : j = i := Option.some_inj.1 (hreads'.symm.trans hreads)
  have htarget : n.target? member = some (j, slot) := Node.target?_eq_some.2 ⟨hwrites, hslot⟩
  exact ⟨slot, hview, (Merger.under_of_target? h.conforms hmember htarget).symm, (h.field hslot).2⟩

namespace Merger

variable {m : Merger} {full : Path} {act : Act} {place patchPlace : Place} {keys : List String}
  {view : Option View} {old new : Slot} {ids : List Uuid} {changes : List Change}

/-- Where keys lead to in the original, they lead in a typed patch to what is declared there. -/
theorem Lands.shown (hderived : m.catalogue.Derived)
    (h : m.Lands full act keys view old ids changes new)
    (hview : ∀ v, view = some v → v.Holds m.catalogue patchPlace) :
    m.Lands full (fun view old ids changes new =>
      (∀ v, view = some v → v.Holds m.catalogue (keys.foldl m.under patchPlace)) ∧
        act view old ids changes new) keys view old ids changes new := by
  induction h generalizing patchPlace with
  | here hact => exact .here ⟨hview, hact⟩
  | identity hid => exact .identity hid
  | field hid hpm hom hwrites hslot hplace hkind _ ih =>
    obtain ⟨rfl, htyped⟩ := (hview _ rfl).object
    exact .field hid hpm hom hwrites hslot hplace hkind
      (ih fun v hread => htyped.read? hderived hpm hread)
  | optional hprovides _ ih => exact .optional hprovides (ih hview)
  | entry hpatch hprovides _ ih =>
    obtain ⟨rfl, htyped⟩ := (hview _ rfl).dictionary
    refine .entry hpatch hprovides (ih ?_)
    rintro _ ⟨⟩
    exact ⟨.object _ _, rfl, rfl, htyped.entry hpatch⟩
  | cell hsource hencode hcoerce => exact .cell hsource hencode hcoerce

/-! ## Payloads -/

/-- One array in a payload has its elements in another order. They name different items, and
both the patch and the original are declared to have a collection in its place, with items of
one type. -/
inductive Permutes (m : Merger) : Place → Place → Json → Json → Prop where
  | items {type : TypeName} {items items' : List Json} (hperm : items.Perm items')
      (hnames : Json.NamesApart m.options items) :
      Permutes m (.items type) (.items type) (.array items) (.array items')
  | member {patchPlace place : Place} {before after : List (String × Json)} {key : String}
      {value value' : Json}
      (hvalue : Permutes m (m.under patchPlace key) (m.under place key) value value') :
      Permutes m patchPlace place (.object (before ++ (key, value) :: after))
        (.object (before ++ (key, value') :: after))
  | item {patchPlace place : Place} {before after : List Json} {value value' : Json}
      (hvalue : Permutes m patchPlace.item place.item value value') :
      Permutes m patchPlace place (.array (before ++ value :: after))
        (.array (before ++ value' :: after))

namespace Permutes

variable {value value' : Json}

theorem symm (h : m.Permutes patchPlace place value value') :
    m.Permutes patchPlace place value' value := by
  induction h with
  | items hperm hnames => exact .items hperm.symm (hnames.perm hperm)
  | member _ ih => exact .member ih
  | item _ ih => exact .item ih

theorem isObject_eq (h : m.Permutes patchPlace place value value') :
    value'.isObject = value.isObject := by
  cases h <;> rfl

theorem not_isScalar (h : m.Permutes patchPlace place value value') :
    value.isScalar = false ∧ value'.isScalar = false := by
  cases h <;> exact ⟨rfl, rfl⟩

/-- Where there are arrays of elements, or objects, in another order inside, an element asks
for the same. -/
theorem asksAlike (h : m.Permutes patchPlace place value value') :
    value.AsksAlike m.options value' where
  isObject_eq := h.isObject_eq
  intent := by
    rintro members members' full intent rfl rfl hintent
    cases h with
    | member hvalue =>
      refine ofMembers_eq_ok_of_forall₂ ?_ hintent
      have hsame (rest : List (String × Json)) : List.Forall₂ (fun a b => a.1 = b.1 ∧
          (isIdentityKey a.1 = true ∨ m.options.isRemoveMarker a.1 = true →
            SameScalar a.2 b.2)) rest rest :=
        List.forall₂_same.2 fun a _ => ⟨rfl, fun _ => .inl rfl⟩
      exact List.rel_append (hsame _)
        (.cons ⟨rfl, fun _ => .inr hvalue.not_isScalar⟩ (hsame _))

end Permutes

open Directive (levels memberLevels)

/-- A directive can stand for another one, for originals of a type and typed patches of a
type. -/
def ReordersEffect (m : Merger) (patchType type : TypeName) (d d' : Directive) : Prop :=
  ∀ (base : List String) (patch : Fields), Typed m.catalogue (.object patchType patch) →
    Effect.Reorders (m.effect base ⟨patchType, patch⟩ type d)
      (m.effect base ⟨patchType, patch⟩ type d')

variable {patchType type : TypeName} {value value' : Json}

theorem ReordersEffect.refl (d : Directive) : m.ReordersEffect patchType type d d :=
  fun _ _ _ => .refl _

theorem effects_reorders {ds ds' : List Directive}
    (h : List.Forall₂ (m.ReordersEffect patchType type) ds ds') {base : List String}
    {patch : Fields} (hpatch : Typed m.catalogue (.object patchType patch)) :
    Effect.Reorders (m.effects base ⟨patchType, patch⟩ type ds)
      (m.effects base ⟨patchType, patch⟩ type ds') := by
  induction h with
  | nil => exact .refl _
  | cons hhead _ ih =>
    simp only [effects]
    exact (hhead base patch hpatch).seq ih

/-- The directives of an object are related one by one when those of one member are. -/
theorem forall₂_memberLevels {R : Directive → Directive → Prop} (hrefl : ∀ d, R d d)
    {options : Options} {path : List String} {key : String}
    (h : List.Forall₂ (List.Forall₂ R) (levels options (path ++ [key]) value)
      (levels options (path ++ [key]) value')) (before after : List (String × Json)) :
    List.Forall₂ (List.Forall₂ R) (memberLevels options path (before ++ (key, value) :: after))
      (memberLevels options path (before ++ (key, value') :: after)) := by
  have hsame (levels : List (List Directive)) : List.Forall₂ (List.Forall₂ R) levels levels :=
    List.forall₂_same.2 fun _ _ => List.forall₂_same.2 fun d _ => hrefl d
  induction before with
  | nil =>
    rw [List.nil_append, List.nil_append, memberLevels, memberLevels]
    split
    · exact hsame _
    · exact forall₂_joinLevels h (hsame _)
  | cons a before ih =>
    rw [List.cons_append, List.cons_append, memberLevels, memberLevels]
    split
    · exact ih
    · exact forall₂_joinLevels (hsame _) ih

/-- The directives of a payload can stand for those of one with an array in another order. -/
theorem Permutes.reordersEffect (hderived : m.catalogue.Derived)
    (h : m.Permutes patchPlace place value value') :
    ∀ (path : List String) {patchType type : TypeName},
      path.foldl m.under (.owner patchType) = patchPlace →
      path.foldl m.under (.owner type) = place →
      List.Forall₂ (List.Forall₂ (m.ReordersEffect patchType type))
        (levels m.options path value) (levels m.options path value') := by
  induction h with
  | @items itemType items items' hperm hnames =>
    intro path patchType type hpatchPlace hplace
    refine .cons (.cons (fun base patch hpatch => ?_) .nil) .nil
    simp only [effect]
    intro fields ids changes made hlands
    refine (hlands.shown hderived (View.Holds.of_typed hpatch)).reorder fun hinner h => ?_
    obtain ⟨hshown, htakes⟩ := h
    refine htakes.reorder ?_ ?_ fun patchItemType patchItems other hview hother => ?_
    · rw [Directive.elements_eq_map, Directive.elements_eq_map, List.map_eq_nil_iff,
        List.map_eq_nil_iff, ← List.length_eq_zero_iff, ← List.length_eq_zero_iff, hperm.length_eq]
    · simp [Directive.elements_eq_map, hperm.mem_iff]
    · obtain ⟨hpatchItems, -⟩ := (hshown _ hview).collection
      obtain ⟨⟩ := hpatchPlace.symm.trans hpatchItems
      obtain ⟨⟩ := hplace.symm.trans (hinner.symm.trans hother)
      exact elementsEffect_perm hderived hperm hnames 0
  | @member patchPlace place before after key value value' _ ih =>
    intro path patchType type hpatchPlace hplace
    rw [levels, levels]
    refine .cons .nil (forall₂_memberLevels ReordersEffect.refl (ih _ ?_ ?_) before after)
    · rw [List.foldl_append, hpatchPlace]
      rfl
    · rw [List.foldl_append, hplace]
      rfl
  | @item patchPlace place before after value value' hvalue ih =>
    intro path patchType type hpatchPlace hplace
    refine .cons (.cons (fun base patch hpatch => ?_) .nil) .nil
    simp only [effect]
    intro fields ids changes made hlands
    refine (hlands.shown hderived (View.Holds.of_typed hpatch)).reorder fun hinner h => ?_
    obtain ⟨hshown, htakes⟩ := h
    refine arrayAct_reorder hvalue.asksAlike (fun hview hitems patchItem hpatchItem => ?_) htakes
    obtain ⟨hpatchItems, htyped⟩ := (hshown _ hview).collection
    obtain rfl := hpatchPlace.symm.trans hpatchItems
    obtain rfl := hplace.symm.trans (hinner.symm.trans hitems)
    have hlevels := ih [] rfl rfl
    exact effects_reorders (List.rel_flatten hlevels) (htyped.item hpatchItem)

/-- A payload has the same effect with an array in another order. -/
theorem reorders_of_permutes (hderived : m.catalogue.Derived) {base : List String} {patch : Node}
    {members members' : List (String × Json)}
    (hpatch : Typed m.catalogue (.object patch.type patch.fields))
    (h : m.Permutes (.owner patch.type) (.owner type) (.object members) (.object members')) :
    Effect.Reorders (m.effects base patch type (Directive.ofMembers m.options members))
      (m.effects base patch type (Directive.ofMembers m.options members')) := by
  have hlevels := h.reordersEffect hderived [] rfl rfl
  rw [levels, levels] at hlevels
  cases hlevels with
  | cons _ hmembers => exact effects_reorders (List.rel_flatten hmembers) hpatch

end Merger

end SelectiveMerge
