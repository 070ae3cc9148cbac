import SelectiveMerge.Proofs.ByIdentity
import SelectiveMerge.Proofs.ElementOrder
import SelectiveMerge.Proofs.Silent
import SelectiveMerge.Proofs.UnmentionedValues

/-!
# A patch in another order

An element that names an item is matched with the item of the patch that has its identity,
wherever this one stands. So the items of a collection of the patch can come in another order
when their identities are different and all elements that are about the collection name items.

* `Merger.behindField`, `Merger.behindKey`, `Merger.behindItem` — the values of a payload that
  are about one slot of the patch
* `Merger.Rearranges` — two slots of the patch with such a collection in two orders
* `Merger.Rearranges.lands` — behind the same keys the same is done
* `Merger.Rearranges.within` — so the directives of the payload have the same effect
-/

namespace SelectiveMerge

/-- What one effect does another one does as well. -/
def Effect.Within {α : Type} (x y : Effect α) : Prop :=
  ∀ ⦃a : α⦄ ⦃ids : List Uuid⦄ ⦃changes : List Change⦄ ⦃b : α⦄, x a ids changes b → y a ids changes b

namespace Effect.Within

variable {α : Type} {x x' y y' : Effect α}

theorem refl (x : Effect α) : Within x x := fun _ _ _ _ h => h

theorem seq (hx : Within x x') (hy : Within y y') : Within (Then x y) (Then x' y') := by
  rintro a _ _ c ⟨hfirst, hsecond⟩
  exact .intro (hx hfirst) (hy hsecond)

theorem reorders (h : Within x y) : Reorders x y :=
  fun _ ids changes _ hx => ⟨ids, changes, .refl _, .refl _, h hx⟩

end Effect.Within

namespace Merger

variable {m : Merger} {type patchType : TypeName} {patchItems patchItems' : List Fields}

/-! ## Items that are found in any order -/

theorem itemWithId?_eq_find? (items : List Fields) (id : Uuid) :
    m.catalogue.itemWithId? type items id =
      (items.find? fun item => m.identity? type item == some id).map (Node.mk type) := by
  have hfind : (m.catalogue.position? type items id).bind (items[·]?) =
      items.find? fun item => m.identity? type item == some id := by
    induction items with
    | nil => rfl
    | cons item items ih =>
      unfold Catalogue.position? at ih ⊢
      rw [List.findIdx?_cons, List.find?_cons, identity?]
      cases hid : (m.catalogue type).identity? item == some id with
      | true => rfl
      | false =>
        rw [← ih]
        cases items.findIdx? fun item => (m.catalogue type).identity? item == some id <;> rfl
  rw [Catalogue.itemWithId?, hfind]

/-- Items of different identities are found in any order. -/
theorem itemWithId?_perm {items items' : List Fields} (hperm : items.Perm items')
    (hdistinct : (items.filterMap (m.identity? type)).Nodup) (id : Uuid) :
    m.catalogue.itemWithId? type items' id = m.catalogue.itemWithId? type items id := by
  rw [itemWithId?_eq_find?, itemWithId?_eq_find?, find?_perm hperm]
  have hcount := having_le_one hdistinct id
  rwa [having, List.count_eq_countP, List.countP_map] at hcount

/-! ## Patches with a collection in another order -/

/-- The values behind the keys that go to a field of an object. -/
def behindField (m : Merger) (values : Set Json) (type : TypeName) (i : Nat) : Set Json :=
  {inner | ∃ members key, Json.object members ∈ values ∧ (key, inner) ∈ members ∧
    m.options.isRemoveMarker key = false ∧ m.number? Member.reads type key = some i}

/-- The values behind a key of a dictionary. -/
def behindKey (m : Merger) (values : Set Json) (key : String) : Set Json :=
  {inner | ∃ members, Json.object members ∈ values ∧ (key, inner) ∈ members ∧
    m.options.isRemoveMarker key = false}

/-- The elements of arrays that are matched with an item of a collection. -/
def behindItem (m : Merger) (values : Set Json) (type : TypeName) (items : List Fields) (j : Nat) :
    Set Json :=
  {element | ∃ elements position members, Json.array elements ∈ values ∧
    elements[position]? = some element ∧ element = .object members ∧
    m.Matches type items j position members}

/-- Two slots of the patch, of which one has the items of one collection in another order. These
have different identities, and among the values of the payload that are about the slot all
elements of arrays that come to the collection name items. -/
inductive Rearranges (m : Merger) : Set Json → Slot → Slot → Prop where
  | items {values : Set Json} {type : TypeName} {items items' : List Fields}
      (hperm : items.Perm items') (hdistinct : (items.filterMap (m.identity? type)).Nodup)
      (hnamed : ∀ elements, Json.array elements ∈ values →
        ∀ element ∈ elements, (element.named? m.options).isSome) :
      Rearranges m values (.collection type items) (.collection type items')
  | field {values : Set Json} {type : TypeName} {fields : Fields} {i : Nat} {old new : Slot}
      (hold : fields[i]? = some old) (h : Rearranges m (m.behindField values type i) old new) :
      Rearranges m values (.object type fields) (.object type (fields.set i new))
  | optional {values : Set Json} {type : TypeName} {fields fields' : Fields}
      (h : Rearranges m values (.object type fields) (.object type fields')) :
      Rearranges m values (.optional type (some fields)) (.optional type (some fields'))
  | item {values : Set Json} {type : TypeName} {items : List Fields} {j : Nat}
      {item item' : Fields} (hitem : items[j]? = some item)
      (h : Rearranges m (m.behindItem values type items j) (.object type item)
        (.object type item')) :
      Rearranges m values (.collection type items) (.collection type (items.set j item'))
  | entry {values : Set Json} {type : TypeName} {entries : List (String × Fields)} {key : String}
      {fields fields' : Fields} (hentry : Dictionary.find? key entries = some fields)
      (h : Rearranges m (m.behindKey values key) (.object type fields) (.object type fields')) :
      Rearranges m values (.dictionary type entries)
        (.dictionary type (Dictionary.insert key fields' entries))

namespace Rearranges

variable {values : Set Json} {slot slot' : Slot} {fields fields' : Fields}

theorem form_eq (h : m.Rearranges values slot slot') : slot'.form = slot.form := by
  cases h <;> rfl

theorem isBranch (h : m.Rearranges values slot slot') : slot.IsBranch ∧ slot'.IsBranch := by
  cases h <;> exact ⟨trivial, trivial⟩

/-- An object keeps its identity. -/
theorem identity?_eq
    (h : m.Rearranges values (.object type fields) (.object type fields')) :
    m.identity? type fields' = m.identity? type fields := by
  cases h with
  | field hold h => exact Schema.identity?_set_of_isBranch hold h.isBranch.1 h.isBranch.2

theorem typed (h : m.Rearranges values slot slot') (hslot : Typed m.catalogue slot) :
    Typed m.catalogue slot' := by
  induction h with
  | items hperm => exact .collection fun item hitem => hslot.item (hperm.mem_iff.2 hitem)
  | field hold h ih => exact hslot.set hold h.form_eq (ih (hslot.field hold).2)
  | optional _ ih => exact .optional (ih (hslot.present _ rfl))
  | item hitem _ ih => exact hslot.set_item (ih (hslot.item (List.mem_of_getElem? hitem))) _
  | entry hentry _ ih => exact hslot.insert (ih (hslot.entry hentry))

/-- The first order is as good as the second one. -/
theorem symm (h : m.Rearranges values slot slot') : m.Rearranges values slot' slot := by
  induction h with
  | items hperm hdistinct hnamed =>
    exact .items hperm.symm ((hperm.filterMap _).nodup_iff.1 hdistinct) hnamed
  | @field values type fields i old new hold _ ih =>
    have hi := (List.getElem?_eq_some_iff.1 hold).1
    have hback := Rearranges.field (List.getElem?_set_self hi) ih
    rwa [List.set_set, set_eq_self hold] at hback
  | optional _ ih => exact .optional ih
  | @item values type items j item item' hitem h ih =>
    have hj := (List.getElem?_eq_some_iff.1 hitem).1
    -- the items have the same identities, so the same elements are matched with them
    have hids := position?_congr (map_identity?_set hitem h.identity?_eq)
    have hsame : m.behindItem values type (items.set j item') j =
        m.behindItem values type items j := by
      simp only [behindItem, Matches, hids]
    have hback := Rearranges.item (List.getElem?_set_self hj) (hsame ▸ ih)
    rwa [List.set_set, set_eq_self hitem] at hback
  | @entry values type entries key fields fields' hentry _ ih =>
    have hback := Rearranges.entry (Dictionary.find?_insert_self key fields' entries) ih
    rwa [Dictionary.insert_insert, Dictionary.insert_eq_self hentry] at hback

/-- What a member shows is the same, or has the same collection in another order. -/
theorem read? (h : m.Rearranges values (.object type fields) (.object type fields'))
    (member : Member) :
    Node.read? ⟨type, fields'⟩ member = Node.read? ⟨type, fields⟩ member ∨
      ∃ i old new, member.reads = some i ∧ Node.read? ⟨type, fields⟩ member = some old.view ∧
        Node.read? ⟨type, fields'⟩ member = some new.view ∧
        m.Rearranges (m.behindField values type i) old new := by
  cases h with
  | @field _ _ _ i old new hold h =>
    obtain ⟨hi, -⟩ := List.getElem?_eq_some_iff.1 hold
    cases hreads : member.reads with
    | none => exact .inl (by simp only [Node.read?, hreads, Option.bind_none])
    | some j =>
      by_cases hij : i = j
      · subst hij
        refine .inr ⟨i, old, new, rfl, ?_, ?_, h⟩
        · exact Node.read?_eq_some.2 ⟨i, old, hreads, hold, rfl⟩
        · exact Node.read?_eq_some.2 ⟨i, new, hreads, List.getElem?_set_self hi, rfl⟩
      · refine .inl ?_
        simp only [Node.read?, hreads, Option.bind_some, List.getElem?_set_ne hij]

/-- What is shown as an object is one in both patches. -/
theorem object_view {n : Node} (h : m.Rearranges values slot slot')
    (hview : slot.view = .object (some n)) :
    ∃ fields', slot'.view = .object (some ⟨n.type, fields'⟩) ∧
      m.Rearranges values (.object n.type n.fields) (.object n.type fields') := by
  cases h with
  | field hold h =>
    obtain ⟨⟩ := hview
    exact ⟨_, rfl, .field hold h⟩
  | optional h =>
    obtain ⟨⟩ := hview
    exact ⟨_, rfl, h⟩
  | items | item | entry => cases hview

end Rearranges

/-! ## Keys that lead through the patch -/

variable {values : Set Json} {slot slot' : Slot} {full : Path} {act : Act} {keys : List String}
  {old new : Slot} {ids : List Uuid} {changes : List Change}

/-- Keys of the payload lead through both patches, to slots of which one may have the
collection in another order. -/
theorem Rearranges.lands (leaf : Json)
    (hact : ∀ {values : Set Json} {slot slot' old new : Slot} {ids : List Uuid}
      {changes : List Change}, m.Rearranges values slot slot' → leaf ∈ values →
      act (some slot.view) old ids changes new → act (some slot'.view) old ids changes new)
    (h : m.Rearranges values slot slot') (hleads : ∃ value ∈ values, Leads m.options value keys leaf)
    (hlands : m.Lands full act keys (some slot.view) old ids changes new) :
    m.Lands full act keys (some slot'.view) old ids changes new := by
  generalize hview : some slot.view = view at hlands
  induction hlands generalizing values slot slot' with
  | here hdone =>
    subst hview
    obtain ⟨value, hvalue, hleads⟩ := hleads
    obtain ⟨-, rfl⟩ := leads_nil_iff.1 hleads
    exact .here (hact h hvalue hdone)
  | identity hid =>
    obtain ⟨fields', hview', -⟩ := h.object_view (Option.some_inj.1 hview)
    rw [hview']
    exact .identity hid
  | @field name rest patch type fields pm om i inner made ids changes hid hpm hom hwrites hslot
      hplace hkind hrest ih =>
    obtain ⟨fields', hview', hobject⟩ := h.object_view (Option.some_inj.1 hview)
    rw [hview']
    refine .field hid hpm hom hwrites hslot hplace hkind ?_
    rcases hobject.read? pm with hsame | ⟨j, shown, shown', hreads, hread, hread', hinner⟩
    · rw [hsame]
      exact hrest
    · obtain ⟨value, hvalue, hleads⟩ := hleads
      obtain ⟨members, behind, rfl, hmember, hmarker, hleads⟩ := leads_cons_iff.1 hleads
      have hbehind : behind ∈ m.behindField values patch.type j :=
        ⟨members, name, hvalue, hmember, hmarker, number?_of_reads hpm hreads⟩
      rw [hread']
      exact ih hinner ⟨behind, hbehind, hleads⟩ hread.symm
  | optional hprovides _ ih =>
    obtain ⟨fields', hview', -⟩ := h.object_view (Option.some_inj.1 hview)
    have hrest := ih h hleads hview
    rw [hview'] at hrest ⊢
    exact .optional hprovides hrest
  | @entry key next rest patchType type patchEntries entries p fields made fresh ids changes hpatch
      hprovides hrest ih =>
    obtain ⟨value, hvalue, hleads⟩ := hleads
    obtain ⟨members, behind, rfl, hmember, hmarker, hinside⟩ := leads_cons_iff.1 hleads
    cases h with
    | @entry _ _ patchEntries changed shown shown' hentry hinner =>
      obtain ⟨⟩ := hview
      by_cases hchanged : changed = key
      · subst hchanged
        obtain rfl := Option.some_inj.1 (hpatch.symm.trans hentry)
        exact .entry (Dictionary.find?_insert_self ..) hprovides
          (ih hinner ⟨behind, ⟨members, hvalue, hmember, hmarker⟩, hinside⟩ rfl)
      · exact .entry (by rwa [Dictionary.find?_insert_of_ne (Ne.symm hchanged)]) hprovides hrest
    | items | field | optional | item => cases hview
  | cell => cases h <;> cases hview

/-- A collection, or what has one inside, is not taken over as a whole. -/
theorem Rearranges.not_copies (h : m.Rearranges values slot slot') :
    ¬ Copies full (some slot.view) old ids changes new := by
  intro hcopies
  cases h <;> cases hcopies

/-- An array does the same if its elements do the same beside the items in both orders. -/
theorem Rearranges.arrayTakes {elements : List Element}
    {inner : TypeName → List Fields → TypeName → Effect (List Fields)}
    (h : m.Rearranges values slot slot')
    (hinner : ∀ patchType patchItems patchItems' type, slot = .collection patchType patchItems →
      slot' = .collection patchType patchItems' →
      Effect.Within (inner patchType patchItems type) (inner patchType patchItems' type))
    (htakes : m.ArrayTakes full elements inner (some slot.view) old ids changes new) :
    m.ArrayTakes full elements inner (some slot'.view) old ids changes new := by
  generalize hview : some slot.view = view at htakes
  cases htakes with
  | emptied helements hcell => exact .emptied helements hcell
  | assigned _ htakes => exact (h.not_copies (hview ▸ htakes)).elim
  | cleared helements hidentified =>
    cases h with
    | items | item =>
      obtain ⟨⟩ := hview
      exact .cleared helements hidentified
    | field | optional | entry => cases hview
  | reconciled hkept hobjects hitems =>
    cases h with
    | items | item =>
      obtain ⟨⟩ := hview
      exact .reconciled hkept hobjects (hinner _ _ _ _ rfl rfl hitems)
    | field | optional | entry => cases hview

/-! ## Elements -/

variable {position : Nat} {members : List (String × Json)} {inner : Node → Effect Fields}
  {element : Json} {directives : List Directive}

/-- An element that names an item does the same beside items of the patch that are found
alike. -/
theorem elementEffect_within_of_named
    (hfound : ∀ id, m.catalogue.itemWithId? patchType patchItems' id =
      m.catalogue.itemWithId? patchType patchItems id)
    (hnamed : (element.named? m.options).isSome) (position : Nat) :
    Effect.Within
      (m.elementEffect full patchType patchItems type position (.mk element directives))
      (m.elementEffect full patchType patchItems' type position (.mk element directives)) := by
  obtain ⟨id, hid⟩ := Option.isSome_iff_exists.1 hnamed
  rw [elementEffect_of_named hid, elementEffect_of_named hid]
  intro items ids changes left h
  induction h with
  | here hitem hserve =>
    refine .here hitem ?_
    cases hserve with
    | update hasks hpatch hinner => exact .update hasks ((hfound _).trans hpatch) hinner
    | remove hasks => exact .remove hasks
  | later hitem _ ih => exact .later hitem ih

/-- An element does the same beside items of the patch of which one is another one, of the same
identity, if its directives do so whenever it is matched with this one. -/
theorem ElementTakes.within_set {j : Nat} {item item' : Fields} (hitem : patchItems[j]? = some item)
    (hidentity : m.identity? patchType item' = m.identity? patchType item)
    (hinner : m.Matches patchType patchItems j position members →
      Effect.Within (inner ⟨patchType, item⟩) (inner ⟨patchType, item'⟩)) :
    Effect.Within (m.ElementTakes full patchType patchItems type position members inner)
      (m.ElementTakes full patchType (patchItems.set j item') type position members inner) := by
  have hj := (List.getElem?_eq_some_iff.1 hitem).1
  rintro items _ _ left h
  cases h with
  | @add p _ _ _ _ _ hintent hpatch hprovides hmade =>
    by_cases hposition : position = j
    · subst hposition
      obtain rfl := Option.some_inj.1 (hpatch.symm.trans hitem)
      exact .add hintent (List.getElem?_set_self hj) hprovides
        (hinner (.inl ⟨Intent.ofMembers_eq_ok hintent, rfl⟩) hmade)
    · exact .add hintent (by rwa [List.getElem?_set_ne (Ne.symm hposition)]) hprovides hmade
  | @update id _ _ _ patchItem _ _ hintent hindex hfound hpatch hmade =>
    obtain ⟨fields, hfields, rfl⟩ := Option.map_eq_some_iff.1 hpatch
    obtain ⟨k, hk, hshown⟩ := Option.bind_eq_some_iff.1 hfields
    have hk' := (position?_congr (map_identity?_set hitem hidentity) id).trans hk
    by_cases hkj : k = j
    · subst hkj
      obtain rfl := Option.some_inj.1 (hshown.symm.trans hitem)
      exact .update hintent hindex hfound (itemWithId?_of_position? hk' (List.getElem?_set_self hj))
        (hinner (.inr ⟨id, Intent.ofMembers_eq_ok hintent, hk⟩) hmade)
    · exact .update hintent hindex hfound
        (itemWithId?_of_position? hk' (by rwa [List.getElem?_set_ne (Ne.symm hkj)])) hmade
  | remove hintent hindex => exact .remove hintent hindex

/-- The elements of an array do the same if each of them does. -/
theorem elementsEffect_within {elements : List Element} {start : Nat}
    (h : ∀ k e, elements[k]? = some e → Effect.Within
      (m.elementEffect full patchType patchItems type (start + k) e)
      (m.elementEffect full patchType patchItems' type (start + k) e)) :
    Effect.Within (m.elementsEffect full patchType patchItems type start elements)
      (m.elementsEffect full patchType patchItems' type start elements) := by
  induction elements generalizing start with
  | nil => exact .refl _
  | cons e elements ih =>
    simp only [elementsEffect]
    refine (h 0 e rfl).seq (ih fun k e he => ?_)
    have hlater := h (k + 1) e he
    rwa [Nat.add_comm k 1, ← Nat.add_assoc] at hlater

/-- An element of an array that comes to the collection does the same beside the items in both
orders, if its directives do so beside an object of the patch with a collection in both orders. -/
theorem Rearranges.elementEffect_within {elements : List Json}
    (h : m.Rearranges values (.collection patchType patchItems)
      (.collection patchType patchItems'))
    (helements : Json.array elements ∈ values) (hposition : elements[position]? = some element)
    (hinner : ∀ {values : Set Json} {fields fields' : Fields},
      m.Rearranges values (.object patchType fields) (.object patchType fields') →
      element ∈ values → ∀ (base : List String) (type : TypeName),
      Effect.Within
        (m.effects base ⟨patchType, fields⟩ type (Directive.ofItem m.options element))
        (m.effects base ⟨patchType, fields'⟩ type (Directive.ofItem m.options element))) :
    Effect.Within
      (m.elementEffect full patchType patchItems type position
        (.mk element (Directive.ofItem m.options element)))
      (m.elementEffect full patchType patchItems' type position
        (.mk element (Directive.ofItem m.options element))) := by
  cases h with
  | items hperm hdistinct hnamed =>
    exact elementEffect_within_of_named (itemWithId?_perm hperm hdistinct)
      (hnamed elements helements element (List.mem_of_getElem? hposition)) position
  | item hitem hitems =>
    cases hobject : element.isObject with
    | false =>
      rw [elementEffect_of_not_isObject hobject, elementEffect_of_not_isObject hobject]
      exact .refl _
    | true =>
      obtain ⟨members, rfl⟩ := Json.exists_of_isObject hobject
      simp only [elementEffect]
      exact .within_set hitem hitems.identity?_eq fun hmatches =>
        hinner hitems ⟨elements, position, members, helements, hposition, rfl, hmatches⟩ _ _

/-! ## Directives -/

/-- The directives of the payload have the same effect beside a patch with a collection in
another order. -/
theorem Rearranges.within (directives : List Directive) :
    ∀ {values : Set Json} {patchType : TypeName} {fields fields' : Fields},
      m.Rearranges values (.object patchType fields) (.object patchType fields') →
      (∀ d ∈ directives, ∃ value ∈ values, ∃ path leaf,
        Leads m.options value path leaf ∧ d = .ofValue m.options path leaf) →
      ∀ (base : List String) (type : TypeName),
        Effect.Within (m.effects base ⟨patchType, fields⟩ type directives)
          (m.effects base ⟨patchType, fields'⟩ type directives) := by
  induction directives using Directive.forall_of_elements with
  | nil => exact fun _ _ _ _ => .refl _
  | cons d ds hdirectives ih =>
    intro values patchType fields fields' h hvalues base type
    obtain ⟨value, hvalue, path, leaf, hleads, rfl⟩ := hvalues d (List.mem_cons_self ..)
    have hlater := ih h (fun d hd => hvalues d (List.mem_cons_of_mem _ hd)) base type
    simp only [effects]
    refine .seq ?_ hlater
    have hobject := hleads.isObject_eq_false
    cases leaf with
    | object => cases hobject
    | array elements =>
      simp only [Directive.ofValue, effect]
      intro original ids changes made hlands
      refine h.lands (.array elements) (fun h helements htakes =>
        h.arrayTakes (fun patchType patchItems patchItems' type hslot hslot' => ?_) htakes)
        ⟨value, hvalue, hleads⟩ hlands
      subst hslot hslot'
      refine elementsEffect_within fun k e he => ?_
      rw [Nat.zero_add]
      have hmem := List.mem_of_getElem? he
      rw [Directive.elements_eq_map, List.getElem?_map, Option.map_eq_some_iff] at he
      obtain ⟨element, hk, rfl⟩ := he
      refine h.elementEffect_within helements hk fun h helement => hdirectives _ hmem h ?_
      intro d hd
      cases element with
      | object members =>
        obtain ⟨path, leaf, hleads, rfl⟩ := Directive.mem_ofMembers_iff.1 hd
        exact ⟨_, helement, path, leaf, hleads, rfl⟩
      | _ => cases hd
    | _ =>
      simp only [Directive.ofValue, effect]
      split
      · exact .refl _
      · exact fun _ _ _ _ hlands => h.lands _
          (fun h _ hcopies => (h.not_copies hcopies).elim) ⟨value, hvalue, hleads⟩ hlands

end Merger

end SelectiveMerge
