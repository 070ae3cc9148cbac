import SelectiveMerge.Proofs.Stability

/-!
# Keys that are heeded

A merge walks over the objects of a payload, each together with the objects of the patch
and of the original that it is about. A key of such an object is heeded when it names a
member of both, and a change is recorded where that member is a leaf. All keys are heeded
that lead to an array, or to a scalar at a key that is not called `id`. A key below which
there is no such value is not looked at.

* `Live` — keys with something below them that a merge acts on
* `Walked` — the objects of a payload that a merge walks over
* `Heeds` — a key is heeded
* `visit_of_missing` — a key that names no member ends the merge
* `heeds_merge` — a merge that succeeds heeds all keys that are live
-/

namespace SelectiveMerge

/-- Below a key there is something that a merge acts on: an array, or a scalar whose own key
is not called `id`. -/
def Live (options : Options) (key : String) (value : Json) : Prop :=
  ∃ path leaf, Leads options value path leaf ∧
    ((∃ items, leaf = .array items) ∨ ((key :: path).getLast?).any isIdentityKey = false)

namespace Merger

open Run (Succeeds)

/-- The objects of a payload that a merge walks over: the object that it starts with, those
that keys lead to, through members and entries of dictionaries, and the elements of arrays
that update an item. `path` are the keys on the way, and `patchType` and `type` the types of
the two objects that the object is about. -/
inductive Walked (m : Merger) : (patchPlace place : Place) → (payload : List (String × Json)) →
    (path : List String) → (patchType type : TypeName) → (members : List (String × Json)) →
    Prop where
  | here {patchType type : TypeName} {members : List (String × Json)} :
      Walked m (.owner patchType) (.owner type) members [] patchType type members
  | key {patchPlace place : Place} {patchType type : TypeName} {key : String}
      {path : List String} {payload inner members : List (String × Json)}
      (hmember : (key, .object inner) ∈ payload) (hmarker : m.options.isRemoveMarker key = false)
      (hinner : Walked m (m.under patchPlace key) (m.under place key) inner path patchType type
        members) :
      Walked m patchPlace place payload (key :: path) patchType type members
  | element {patchPlace place : Place} {patchType type : TypeName} {key : String}
      {path : List String} {payload inner members : List (String × Json)} {items : List Json}
      {full : Path} {id : Uuid} (hmember : (key, .array items) ∈ payload)
      (hmarker : m.options.isRemoveMarker key = false) (hid : isIdentityKey key = false)
      (hitem : .object inner ∈ items)
      (hasks : Intent.ofMembers m.options full inner = .ok (.update id))
      (hinner : Walked m (m.under patchPlace key).item (m.under place key).item inner path
        patchType type members) :
      Walked m patchPlace place payload (key :: path) patchType type members

/-- A key of an object at a path names a member of two types, and if that is a leaf of the
second one, a change is recorded there. -/
structure Heeds (m : Merger) (changes : List Change) (patchType type : TypeName)
    (path : List String) (key : String) : Prop where
  patch : ∃ pm, (m.catalogue patchType).table.find? key m.options.ignoreCase = some pm
  original : ∃ om, (m.catalogue type).table.find? key m.options.ignoreCase = some om ∧
    (om.kind = .leaf → ∃ c ∈ changes, c.path = ⟨path ++ [key]⟩)

variable {m : Merger} {s s' : Session} {patch original : Node} {name key : String}
  {pm om : Member} {i : Nat} {slot : Slot}

theorem Heeds.mono {changes changes' : List Change} {patchType type : TypeName}
    {path : List String} (h : m.Heeds changes patchType type path key)
    (hsub : changes ⊆ changes') : m.Heeds changes' patchType type path key := by
  obtain ⟨hpatch, om, hom, hleaf⟩ := h
  refine ⟨hpatch, om, hom, fun hkind => ?_⟩
  obtain ⟨c, hc, hpath⟩ := hleaf hkind
  exact ⟨c, hsub hc, hpath⟩

/-- The changes that were recorded before are still on record. -/
theorem Extends.changes_subset {base : List String} (h : Extends m base s s') :
    s.report.changes ⊆ s'.report.changes := by
  obtain ⟨-, changes, sent, hchanges, -, -⟩ := h
  rw [hchanges]
  exact List.subset_append_left ..

/-! ## Keys and what is declared -/

/-- What a patch shows at a key is in a slot, which is as it is declared. -/
theorem exists_slot_of_read? (hderived : m.catalogue.Derived)
    (hpatch : Typed m.catalogue (.object patch.type patch.fields))
    (hpm : m.member? patch name = some pm) {view : View} (hread : patch.read? pm = some view) :
    ∃ slot : Slot, slot.view = view ∧ m.under (.owner patch.type) name = slot.place ∧
      Typed m.catalogue slot := by
  obtain ⟨j, slot, hreads, hslot, hview⟩ := Node.read?_eq_some.1 hread
  obtain ⟨k, hreads', hwrites⟩ := hderived _ pm (MemberTable.mem_of_find? hpm)
  obtain rfl : k = j := Option.some_inj.1 (hreads'.symm.trans hreads)
  have htarget : patch.target? pm = some (k, slot) := Node.target?_eq_some.2 ⟨hwrites, hslot⟩
  exact ⟨slot, hview, under_of_target? hpatch.conforms hpm htarget, (hpatch.field hslot).2⟩

/-- A member is of the kind of what it is written to. -/
theorem kind_of_target? (hkinded : m.catalogue.Kinded)
    (horiginal : Typed m.catalogue (.object original.type original.fields))
    (hom : m.member? original name = some om) (htarget : original.target? om = some (i, slot)) :
    om.kind = slot.kind := by
  obtain ⟨hwrites, hslot⟩ := Node.target?_eq_some.1 htarget
  have hkind := hkinded _ om (MemberTable.mem_of_find? hom) i slot.form hwrites
    (horiginal.field hslot).1
  rwa [Form.kind_form] at hkind

/-- Both types have a member with a name, which is no leaf of the second one. -/
def Passes (m : Merger) (patchType type : TypeName) (key : String) : Prop :=
  (∃ pm, (m.catalogue patchType).table.find? key m.options.ignoreCase = some pm) ∧
    ∃ om, (m.catalogue type).table.find? key m.options.ignoreCase = some om ∧ om.kind ≠ .leaf

theorem Passes.heeds {patchType type : TypeName} (h : m.Passes patchType type key)
    (changes : List Change) (path : List String) : m.Heeds changes patchType type path key := by
  obtain ⟨hpatch, om, hom, hkind⟩ := h
  exact ⟨hpatch, om, hom, fun hleaf => absurd hleaf hkind⟩

/-! ## Navigation -/

/-- An object that a slot shows is of the type that is declared for it. -/
theorem place_of_view_object {slot : Slot} {n : Node} (hview : slot.view = .object (some n))
    (h : Typed m.catalogue slot) :
    slot.place = .owner n.type ∧ Typed m.catalogue (.object n.type n.fields) := by
  cases slot with
  | object type fields =>
    obtain ⟨⟩ := hview
    exact ⟨rfl, h⟩
  | optional type present =>
    obtain ⟨fields, rfl, rfl⟩ := Option.map_eq_some_iff.1 (View.object.inj hview)
    exact ⟨rfl, h.present fields rfl⟩
  | leaf | collection | dictionary | leafDictionary => cases hview

/-- So is a dictionary. -/
theorem eq_of_view_dictionary {slot : Slot} {type : TypeName} {entries : List (String × Fields)}
    (hview : slot.view = .dictionary type entries) : slot = .dictionary type entries := by
  cases slot with
  | dictionary =>
    obtain ⟨⟩ := hview
    rfl
  | leaf | object | optional | collection | leafDictionary => cases hview

/-- So is a collection. -/
theorem eq_of_view_collection {slot : Slot} {type : TypeName} {items : List Fields}
    (hview : slot.view = .collection type items) : slot = .collection type items := by
  cases slot with
  | collection =>
    obtain ⟨⟩ := hview
    rfl
  | leaf | object | optional | dictionary | leafDictionary => cases hview

/-- A navigation to a key of two objects of some types, which leads on from there by its next
hop, has members for the key, or the hop leads to where the key still comes. -/
theorem Hop.through (hderived : m.catalogue.Derived) (hkinded : m.catalogue.Kinded)
    {innerPatch inner : Node} {keys rest pre path : List String} {put : Fields → Fields}
    {patchType type : TypeName}
    (hpatch : Typed m.catalogue (.object patch.type patch.fields))
    (horiginal : Typed m.catalogue (.object original.type original.fields))
    (h : m.Hop patch original s keys innerPatch inner put s') (hrest : rest ≠ [])
    (hkeys : keys ++ rest = pre ++ key :: path)
    (hpatchPlace : pre.foldl m.under (.owner patch.type) = .owner patchType)
    (hplace : pre.foldl m.under (.owner original.type) = .owner type) :
    (path ≠ [] ∧ m.Passes patchType type key) ∨
      ∃ pre', rest = pre' ++ key :: path ∧
        pre'.foldl m.under (.owner innerPatch.type) = .owner patchType ∧
        pre'.foldl m.under (.owner inner.type) = .owner type ∧
        Typed m.catalogue (.object innerPatch.type innerPatch.fields) := by
  cases h with
  | object hpm hom hread htarget | optional hpm hom hread htarget =>
    rcases List.cons_eq_append_iff.1 hkeys with ⟨rfl, hpath⟩ | ⟨pre, rfl, hpath⟩
    · obtain ⟨rfl, rfl⟩ := List.cons_eq_cons.1 hpath
      obtain rfl := Place.owner.inj hpatchPlace
      obtain rfl := Place.owner.inj hplace
      have hkind := kind_of_target? hkinded horiginal hom htarget
      exact .inl ⟨hrest, ⟨_, hpm⟩, _, hom, by rw [hkind]; simp [Slot.kind]⟩
    · obtain ⟨slot, hview, hunder, hslot⟩ := exists_slot_of_read? hderived hpatch hpm hread
      obtain ⟨hinner, htyped⟩ := place_of_view_object hview hslot
      rw [List.foldl_cons, hunder, hinner] at hpatchPlace
      rw [List.foldl_cons, under_of_target? horiginal.conforms hom htarget] at hplace
      exact .inr ⟨pre, hpath, hpatchPlace, hplace, htyped⟩
  | entry hpm hom hread htarget hfind =>
    obtain ⟨slot, hview, hunder, hslot⟩ := exists_slot_of_read? hderived hpatch hpm hread
    obtain rfl := eq_of_view_dictionary hview
    rw [List.cons_append, List.singleton_append] at hkeys
    rcases List.cons_eq_append_iff.1 hkeys with ⟨rfl, hpath⟩ | ⟨pre, rfl, hpath⟩
    · obtain ⟨rfl, rfl⟩ := List.cons_eq_cons.1 hpath
      obtain rfl := Place.owner.inj hpatchPlace
      obtain rfl := Place.owner.inj hplace
      have hkind := kind_of_target? hkinded horiginal hom htarget
      exact .inl ⟨by simp, ⟨_, hpm⟩, _, hom, by rw [hkind]; simp [Slot.kind]⟩
    · rw [List.foldl_cons, hunder] at hpatchPlace
      rw [List.foldl_cons, under_of_target? horiginal.conforms hom htarget] at hplace
      rcases List.cons_eq_append_iff.1 hpath with ⟨rfl, -⟩ | ⟨inside, rfl, hinside⟩
      · cases hplace
      · exact .inr ⟨inside, hinside, hpatchPlace, hplace, hslot.entry hfind⟩

/-- A navigation through a key of two objects of some types either ends there, or it has
members for the key. -/
theorem Visits.through (hwell : m.catalogue.WellTyped) (hderived : m.catalogue.Derived)
    (hkinded : m.catalogue.Kinded) {full : Path}
    {act : Node → Node → String → Session → Fields → Session → Prop}
    {keys pre path : List String} {fields : Fields} {patchType type : TypeName}
    (hpatch : Typed m.catalogue (.object patch.type patch.fields))
    (horiginal : Typed m.catalogue (.object original.type original.fields))
    (h : m.Visits full act keys patch original s fields s') (hkeys : keys = pre ++ key :: path)
    (hpatchPlace : pre.foldl m.under (.owner patch.type) = .owner patchType)
    (hplace : pre.foldl m.under (.owner original.type) = .owner type) :
    (path ≠ [] ∧ m.Passes patchType type key) ∨
      path = [] ∧ ∃ p o t made, p.type = patchType ∧ o.type = type ∧
        Typed m.catalogue (.object p.type p.fields) ∧
        Typed m.catalogue (.object o.type o.fields) ∧ act p o key t made s' := by
  induction h generalizing pre with
  | member hact =>
    rcases List.cons_eq_append_iff.1 hkeys with ⟨rfl, hpath⟩ | ⟨pre, rfl, hpath⟩
    · obtain ⟨rfl, rfl⟩ := List.cons_eq_cons.1 hpath
      exact .inr ⟨rfl, _, _, _, _, Place.owner.inj hpatchPlace, Place.owner.inj hplace, hpatch,
        horiginal, hact⟩
    · simp at hpath
  | entry hpm hom hread htarget =>
    rcases List.cons_eq_append_iff.1 hkeys with ⟨rfl, hpath⟩ | ⟨pre, rfl, hpath⟩
    · obtain ⟨rfl, rfl⟩ := List.cons_eq_cons.1 hpath
      obtain rfl := Place.owner.inj hpatchPlace
      obtain rfl := Place.owner.inj hplace
      have hkind := kind_of_target? hkinded horiginal hom htarget
      exact .inl ⟨by simp, ⟨_, hpm⟩, _, hom, by rw [hkind]; simp [Slot.kind]⟩
    · -- below an entry of a dictionary of leaves there is nothing
      rw [List.foldl_cons, under_of_target? horiginal.conforms hom htarget] at hplace
      rcases List.cons_eq_append_iff.1 hpath with ⟨rfl, -⟩ | ⟨inside, rfl, hinside⟩
      · cases hplace
      · simp at hinside
  | hop hhop hrest _ ih =>
    rcases hhop.through hderived hkinded hpatch horiginal hrest hkeys hpatchPlace hplace with
      hpasses | ⟨pre, hkeys, hpatchPlace, hplace, hinnerPatch⟩
    · exact .inl hpasses
    · exact ih hinnerPatch (hhop.typed hwell horiginal).1 hkeys hpatchPlace hplace

/-! ## Members -/

theorem Assigns.heeds (hactions : m.configuration.NoActions) {full : Path} {fields : Fields}
    (hid : isIdentityKey name = false)
    (h : m.Assigns full patch original name s fields s') {path : List String}
    (hfull : full = ⟨path ++ [name]⟩) :
    m.Heeds s'.report.changes patch.type original.type path name := by
  cases h with
  | identity htrue =>
    rw [hid] at htrue
    cases htrue
  | custom _ haction =>
    rw [hactions.setAction?_eq_none] at haction
    cases haction
  | leaf _ _ hpm hom =>
    exact ⟨⟨_, hpm⟩, _, hom, fun _ => ⟨⟨full, .updated, none⟩, by simp, hfull⟩⟩
  | unset _ _ hpm hom =>
    exact ⟨⟨_, hpm⟩, _, hom, fun _ => ⟨⟨full, .updated, none⟩, by simp, hfull⟩⟩

theorem ArrayAssigns.heeds (hactions : m.configuration.NoActions) {full : Path} {node : Json}
    {elements : List Element} {fields : Fields} (hid : isIdentityKey name = false)
    (h : m.ArrayAssigns full node elements patch original name s fields s') {path : List String}
    (hfull : full = ⟨path ++ [name]⟩) :
    m.Heeds s'.report.changes patch.type original.type path name := by
  cases h with
  | identity htrue =>
    rw [hid] at htrue
    cases htrue
  | emptied _ _ hpm hom =>
    exact ⟨⟨_, hpm⟩, _, hom, fun _ => ⟨⟨full, .cleared, none⟩, by simp, hfull⟩⟩
  | assigned _ _ _ _ _ hassign => exact hassign.heeds hactions hid hfull
  | reconciled _ hpm hom hkind =>
    refine ⟨⟨_, hpm⟩, _, hom, fun hleaf => ?_⟩
    rw [hkind] at hleaf
    cases hleaf

/-! ## Directives -/

/-- Each directive of an object is a step of the walk over it. -/
theorem Walks.exists_step (hactions : m.configuration.NoActions)
    (hwell : m.catalogue.WellTyped) (hfactories : m.configuration.FactoriesTyped m.catalogue)
    {base : List String} {members : List (String × Json)} {made : Fields}
    (h : m.Walks base patch original members s made s')
    (horiginal : Typed m.catalogue (.object original.type original.fields)) {path : List String}
    {leaf : Json} (hleads : Leads m.options (.object members) path leaf) :
    ∃ fields next t u, Typed m.catalogue (.object original.type fields) ∧
      m.DirectiveStep base patch ⟨original.type, fields⟩
        (.ofValue m.options path leaf) t next u ∧ u.report.changes ⊆ s'.report.changes := by
  have hmem : Directive.ofValue m.options path leaf ∈ Directive.ofMembers m.options members :=
    Directive.mem_ofMembers_iff.2 ⟨path, leaf, hleads, rfl⟩
  obtain ⟨before, after, heq⟩ := List.append_of_mem hmem
  unfold Walks at h
  rw [heq] at h
  obtain ⟨fields, t, hbefore, hrest⟩ := succeeds_runDirectives_append.1 h
  obtain ⟨next, u, hstep, hafter⟩ := succeeds_runDirectives_cons.1 hrest
  exact ⟨fields, next, t, u, runsType hactions hwell hfactories _ horiginal hbefore,
    .of_runDirective hstep, Extends.changes_subset (m.runsExtend _ hafter)⟩

/-! ## Elements -/

/-- Each element of an array is a step of its run. -/
theorem ElementsRun.exists_step (hactions : m.configuration.NoActions)
    (hwell : m.catalogue.WellTyped) (hfactories : m.configuration.FactoriesTyped m.catalogue)
    {r : Reconciliation} {position : Nat} {elements : List Element} {state state' : Reconciled}
    (hstate : Typed m.catalogue (.collection r.type state.items))
    (h : m.ElementsRun r position elements state s state' s') {members : List (String × Json)}
    {directives : List Directive} (he : .mk (.object members) directives ∈ elements) :
    ∃ position before after t u, Typed m.catalogue (.collection r.type before.items) ∧
      m.ElementStep r position members directives before t after u ∧
      u.report.changes ⊆ s'.report.changes := by
  induction h with
  | nil => cases he
  | cons hstep hrest ih =>
    have hmid := hstep.typed hwell hfactories (runsType hactions hwell hfactories _) hstate
    rcases List.mem_cons.1 he with heq | he
    · obtain ⟨⟨rfl⟩, rfl⟩ := Element.mk.inj heq
      exact ⟨_, _, _, _, _, hstate, hstep,
        Extends.changes_subset (hrest.extends fun e _ => m.runsExtend _)⟩
    · exact ih hmid he

/-- An element that updates an item is a walk over it and its counterpart in the patch. -/
theorem ArrayAssigns.exists_walks (hactions : m.configuration.NoActions)
    (hwell : m.catalogue.WellTyped) (hderived : m.catalogue.Derived)
    (hfactories : m.configuration.FactoriesTyped m.catalogue) {full : Path} {node : Json}
    {items : List Json} {fields : Fields} {patchType type : TypeName}
    (hpatch : Typed m.catalogue (.object patch.type patch.fields))
    (horiginal : Typed m.catalogue (.object original.type original.fields))
    (hid : isIdentityKey name = false)
    (hpatchPlace : m.under (.owner patch.type) name = .items patchType)
    (hplace : m.under (.owner original.type) name = .items type)
    (h : m.ArrayAssigns full node (Directive.elements m.options items) patch original name s
      fields s') {members : List (String × Json)} (hitem : .object members ∈ items)
    {full' : Path} {id : Uuid} (hasks : Intent.ofMembers m.options full' members = .ok (.update id)) :
    ∃ patchItem item made t u, patchItem.type = patchType ∧ item.type = type ∧
      Typed m.catalogue (.object patchItem.type patchItem.fields) ∧
      Typed m.catalogue (.object item.type item.fields) ∧
      m.Walks full.segments patchItem item members t made u ∧
      u.report.changes ⊆ s'.report.changes := by
  have he : Element.mk (.object members) (Directive.ofMembers m.options members) ∈
      Directive.elements m.options items := by
    rw [Directive.elements_eq_map]
    exact List.mem_map.2 ⟨_, hitem, rfl⟩
  cases h with
  | identity htrue =>
    rw [hid] at htrue
    cases htrue
  | emptied _ _ _ _ _ helements =>
    rw [helements] at he
    cases he
  | assigned _ _ _ _ _ hassign =>
    exact absurd hplace (hassign.under_ne_items hactions hid horiginal.conforms)
  | reconciled _ hpm hom _ hreconcile =>
    cases hreconcile with
    | ignored _ _ _ _ _ helements =>
      rw [helements] at he
      cases he
    | run hread _ htarget hclears hrun hdrops =>
      have hplace' := under_of_target? horiginal.conforms hom htarget
      obtain rfl := Place.items.inj (hplace.symm.trans hplace')
      obtain ⟨slot, hview, hunder, hslot⟩ := exists_slot_of_read? hderived hpatch hpm hread
      obtain rfl := eq_of_view_collection hview
      obtain rfl := Place.items.inj (hpatchPlace.symm.trans hunder)
      have hcollection := (horiginal.field (Node.target?_eq_some.1 htarget).2).2
      have hfound := hclears.typed hcollection
      obtain ⟨position, before, after, t, u, hbefore, hstep, hsub⟩ :=
        hrun.exists_step hactions hwell hfactories hfound he
      have hdropped := Extends.changes_subset hdrops.extends
      cases hstep with
      | update hintent hindex hitem hfind hrun =>
        obtain ⟨hpatchType, hmem, -⟩ := itemWithId?_eq_some hfind
        refine ⟨_, ⟨_, _⟩, _, _, _, hpatchType, rfl, ?_,
          hbefore.item (List.mem_of_getElem? hitem), hrun, List.Subset.trans hsub hdropped⟩
        rw [hpatchType]
        exact hslot.item hmem
      | add hintent =>
        cases (Intent.ofMembers_eq_ok hintent).symm.trans hasks
      | remove hintent =>
        cases (Intent.ofMembers_eq_ok hintent).symm.trans hasks

/-! ## Walks -/

theorem DirectiveStep.heeds (hactions : m.configuration.NoActions)
    (hwell : m.catalogue.WellTyped) (hderived : m.catalogue.Derived)
    (hkinded : m.catalogue.Kinded) {base pre path : List String} {leaf : Json}
    {patchType type : TypeName} {fields : Fields} (hid : isIdentityKey key = false)
    (hlive : (∃ items, leaf = .array items) ∨
      ((key :: path).getLast?).any isIdentityKey = false)
    (h : m.DirectiveStep base patch original (.ofValue m.options (pre ++ key :: path) leaf) s
      fields s')
    (hpatch : Typed m.catalogue (.object patch.type patch.fields))
    (horiginal : Typed m.catalogue (.object original.type original.fields))
    (hpatchPlace : pre.foldl m.under (.owner patch.type) = .owner patchType)
    (hplace : pre.foldl m.under (.owner original.type) = .owner type) :
    m.Heeds s'.report.changes patchType type (base ++ pre) key := by
  generalize hd : Directive.ofValue m.options (pre ++ key :: path) leaf = d at h
  have hkeys : d.path = pre ++ key :: path := by rw [← hd, Directive.path_ofValue]
  cases h with
  | identity htrue =>
    rcases hlive with ⟨items, rfl⟩ | hlast
    · cases hd
    · obtain rfl : _ = pre ++ key :: path := hkeys
      rw [List.getLast?_append_of_ne_nil _ (by simp), hlast] at htrue
      cases htrue
  | scalar _ hvisit =>
    obtain rfl : _ = pre ++ key :: path := hkeys
    rcases hvisit.through hwell hderived hkinded hpatch horiginal rfl hpatchPlace hplace with
      ⟨-, hpasses⟩ | ⟨rfl, p, o, t, made, rfl, rfl, -, -, hact⟩
    · exact hpasses.heeds _ _
    · exact hact.heeds hactions hid (congrArg Path.mk (List.append_assoc base pre [key]).symm)
  | array hvisit =>
    obtain rfl : _ = pre ++ key :: path := hkeys
    rcases hvisit.through hwell hderived hkinded hpatch horiginal rfl hpatchPlace hplace with
      ⟨-, hpasses⟩ | ⟨rfl, p, o, t, made, rfl, rfl, -, -, hact⟩
    · exact hpasses.heeds _ _
    · exact hact.heeds hactions hid (congrArg Path.mk (List.append_assoc base pre [key]).symm)

/-- Nothing is walked over where no objects are declared. -/
theorem Walked.ne_value {patchPlace place : Place} {payload members : List (String × Json)}
    {path : List String} {patchType type : TypeName}
    (h : m.Walked patchPlace place payload path patchType type members) :
    patchPlace ≠ .value ∧ place ≠ .value := by
  induction h with
  | here => exact ⟨by rintro ⟨⟩, by rintro ⟨⟩⟩
  | key _ _ _ ih =>
    refine ⟨?_, ?_⟩
    · rintro rfl
      exact ih.1 rfl
    · rintro rfl
      exact ih.2 rfl
  | element _ _ _ _ _ _ ih =>
    refine ⟨?_, ?_⟩
    · rintro rfl
      exact ih.1 rfl
    · rintro rfl
      exact ih.2 rfl

/-- A key behind which items are declared is that of an object. -/
theorem eq_owner_of_item_ne_value {place : Place} (h : (m.under place key).item ≠ .value) :
    ∃ owner type, place = .owner owner ∧ m.under place key = .items type := by
  cases place with
  | owner owner =>
    cases hunder : m.under (.owner owner) key with
    | items type => exact ⟨owner, type, rfl, rfl⟩
    | value | owner | entries =>
      rw [hunder] at h
      exact absurd rfl h
  | value | items | entries => exact absurd rfl h

/-- A walk heeds the live keys of all objects that it comes to. -/
theorem Walked.heeds (hactions : m.configuration.NoActions)
    (hwell : m.catalogue.WellTyped) (hderived : m.catalogue.Derived)
    (hkinded : m.catalogue.Kinded) (hfactories : m.configuration.FactoriesTyped m.catalogue)
    {patchPlace place : Place} {payload members : List (String × Json)} {path : List String}
    {patchType type : TypeName} {value : Json}
    (h : m.Walked patchPlace place payload path patchType type members)
    (hmember : (key, value) ∈ members) (hmarker : m.options.isRemoveMarker key = false)
    (hid : isIdentityKey key = false) (hlive : Live m.options key value)
    {base : List String} {top : List (String × Json)} {made : Fields}
    (hwalk : m.Walks base patch original top s made s')
    (hpatch : Typed m.catalogue (.object patch.type patch.fields))
    (horiginal : Typed m.catalogue (.object original.type original.fields)) (pre : List String)
    (hpre : ∀ rest leaf, Leads m.options (.object payload) rest leaf →
      Leads m.options (.object top) (pre ++ rest) leaf)
    (hpatchPlace : pre.foldl m.under (.owner patch.type) = patchPlace)
    (hplace : pre.foldl m.under (.owner original.type) = place) :
    m.Heeds s'.report.changes patchType type (base ++ pre ++ path) key := by
  induction h generalizing base pre top patch original s made s' with
  | here =>
    obtain ⟨rest, leaf, hleads, hrest⟩ := hlive
    obtain ⟨fields, next, t, u, hfields, hstep, hsub⟩ :=
      hwalk.exists_step hactions hwell hfactories horiginal
        (hpre _ _ (.member hmember hmarker hleads))
    have hheeds := hstep.heeds hactions hwell hderived hkinded hid hrest hpatch hfields hpatchPlace
      hplace
    rw [List.append_nil]
    exact hheeds.mono hsub
  | @key _ _ _ _ key path _ _ _ hkey hnext hinner ih =>
    have hheeds := ih hmember hwalk hpatch horiginal (pre ++ [key]) (fun rest leaf hleads => ?_)
      (by rw [List.foldl_append, hpatchPlace]; rfl) (by rw [List.foldl_append, hplace]; rfl)
    · rwa [← List.append_assoc, List.append_assoc _ [key], List.singleton_append] at hheeds
    · rw [List.append_assoc, List.singleton_append]
      exact hpre _ _ (.member hkey hnext hleads)
  | @element _ _ _ _ key path _ inner _ items _ _ hkey hnext hnot hitem hasks hinner ih =>
    obtain ⟨patchOwner, patchItem, rfl, hpatchItem⟩ := eq_owner_of_item_ne_value hinner.ne_value.1
    obtain ⟨owner, item, rfl, hitemType⟩ := eq_owner_of_item_ne_value hinner.ne_value.2
    obtain ⟨fields, next, t, u, hfields, hstep, hsub⟩ :=
      hwalk.exists_step hactions hwell hfactories horiginal
        (hpre [key] _ (.member hkey hnext (.here rfl)))
    cases hstep with
    | array hvisit =>
      rcases hvisit.through hwell hderived hkinded hpatch hfields rfl hpatchPlace hplace with
        ⟨hne, -⟩ | ⟨-, p, o, t, made, rfl, rfl, hp, ho, hact⟩
      · exact absurd rfl hne
      · -- the element is walked over in turn, with the item that it updates
        obtain ⟨p', o', made, t, v, rfl, rfl, hp', ho', hwalk', hsub'⟩ :=
          hact.exists_walks hactions hwell hderived hfactories hp ho hnot hpatchItem hitemType
            hitem hasks
        rw [hpatchItem, hitemType] at ih
        have hheeds := ih hmember hwalk' hp' ho' [] (fun _ _ hleads => hleads) rfl rfl
        rw [List.append_nil, ← List.append_assoc, List.append_assoc _ [key],
          List.singleton_append] at hheeds
        exact (hheeds.mono hsub').mono hsub

/-! ## Keys that name no member -/

/-- A navigation that comes to two objects ends there with a structural mismatch when a key
is next, whether it is on its way to a scalar or to an array. -/
def Mismatches (m : Merger) (patch original : Node) (key : String) : Prop :=
  ∀ (s : Session) (node : Json) (before rest : List String), ∃ typeName,
    m.visit node (m.assignMember ⟨before ++ key :: rest⟩ node) before (key :: rest) patch
        original s = .error (.structuralMismatch ⟨before ++ key :: rest⟩ typeName key) s ∧
      ∀ elements run,
        m.visit node (m.arrayMember ⟨before ++ key :: rest⟩ node elements run) before
          (key :: rest) patch original s =
            .error (.structuralMismatch ⟨before ++ key :: rest⟩ typeName key) s

theorem memberPair_of_missing (full : Path)
    (h : m.member? patch name = none ∨ m.member? original name = none) :
    ∃ typeName, m.memberPair full patch original name =
      .error (.structuralMismatch full typeName name) := by
  unfold memberPair
  cases hpm : m.member? patch name with
  | none => exact ⟨_, rfl⟩
  | some pm =>
    rw [hpm] at h
    rw [h.resolve_left (by simp)]
    exact ⟨_, rfl⟩

/-- A key has to name a member of both objects. -/
theorem visit_of_missing (hactions : m.configuration.NoActions)
    (hid : isIdentityKey key = false)
    (h : m.member? patch key = none ∨ m.member? original key = none) :
    m.Mismatches patch original key := by
  intro s node before rest
  obtain ⟨typeName, hpair⟩ := m.memberPair_of_missing ⟨before ++ key :: rest⟩ h
  refine ⟨typeName, ?_⟩
  cases rest with
  | nil =>
    refine ⟨?_, fun elements run => ?_⟩
    · show m.assignMember _ node patch original key s = _
      unfold assignMember
      rw [hid, hactions.setAction?_eq_none, hpair]
      rfl
    · show m.arrayMember _ node elements run patch original key s = _
      unfold arrayMember
      rw [hid, hpair]
      rfl
  | cons next rest =>
    have hvisit : ∀ onMember, m.visit node onMember before (key :: next :: rest) patch original s =
        .error (.structuralMismatch ⟨before ++ key :: next :: rest⟩ typeName key) s := by
      intro onMember
      unfold visit
      show (Run.ofExcept (m.memberPair ⟨before ++ key :: next :: rest⟩ patch original key) >>= _) s = _
      rw [hpair]
      rfl
    exact ⟨hvisit _, fun _ _ => hvisit _⟩

/-! ## A whole merge -/

/-- A merge that succeeds heeds each live key, save those called `id`, of each object that
it walks over: the key names members of both objects, and where that is a leaf a change is
recorded. Where it names no member, the navigation ends with a structural mismatch. -/
theorem heeds_merge (hactions : m.configuration.NoActions)
    (hwell : m.catalogue.WellTyped) (hderived : m.catalogue.Derived)
    (hkinded : m.catalogue.Kinded) (hfactories : m.configuration.FactoriesTyped m.catalogue)
    (hpatch : Typed m.catalogue (.object patch.type patch.fields))
    (horiginal : Typed m.catalogue (.object original.type original.fields))
    {payload members : List (String × Json)} {path : List String} {patchType type : TypeName}
    {value : Json} {minted : Nat}
    (hwalked : m.Walked (.owner patch.type) (.owner original.type) payload path patchType type
      members)
    (hmember : (key, value) ∈ members) (hmarker : m.options.isRemoveMarker key = false)
    (hid : isIdentityKey key = false) (hlive : Live m.options key value) :
    (∀ report, (m.merge patch original (.object payload) minted).result = .ok report →
      m.Heeds report.changes patchType type path key) ∧
    ∀ p o : Node, p.type = patchType → o.type = type →
      (m.member? p key = none ∨ m.member? o key = none) → m.Mismatches p o key := by
  refine ⟨fun report hok => ?_, fun p o _ _ => visit_of_missing hactions hid⟩
  obtain ⟨payload', made, s, hpayload, hwalk, rfl, -⟩ := Walks.of_merge hok
  obtain rfl := Json.object.inj hpayload
  exact hwalked.heeds hactions hwell hderived hkinded hfactories hmember hmarker hid hlive hwalk
    hpatch horiginal [] (fun _ _ hleads => hleads) rfl rfl

end Merger

/-! ## Racks -/

namespace Sample

/-- A member that plans lay out is of the kind of its plan. -/
theorem exists_plan_of_mem_members {start i : Nat} {plans : List Plan} {member : Member}
    (h : member ∈ Plan.members start plans) (hwrites : member.writes = some i) :
    ∃ plan, start ≤ i ∧ plans[i - start]? = some plan ∧ member.kind = plan.initial.kind := by
  induction plans generalizing start with
  | nil => cases h
  | cons plan plans ih =>
    have hlater (h : member ∈ Plan.members (start + 1) plans) : ∃ p, start ≤ i ∧
        (plan :: plans)[i - start]? = some p ∧ member.kind = p.initial.kind := by
      obtain ⟨p, hle, hp, hkind⟩ := ih h
      have hi : i - start = i - (start + 1) + 1 := by omega
      exact ⟨p, by omega, by rwa [hi, List.getElem?_cons_succ], hkind⟩
    rw [Plan.members] at h
    split at h
    · rcases List.mem_cons.1 h with rfl | h
      · obtain rfl : start = i := Option.some_inj.1 hwrites
        exact ⟨plan, le_rfl, by simp, rfl⟩
      · exact hlater h
    · exact hlater h

/-- In a type that plans lay out, members are of the kinds of their fields. -/
theorem kind_of_plans {schema : Schema} {plans : List Plan}
    (htable : schema.table.members = Plan.members 0 plans)
    (hfields : schema.initialFields = plans.map Plan.initial) {member : Member}
    (hmember : member ∈ schema.table.members) {i : Nat} {form : Form}
    (hwrites : member.writes = some i)
    (hform : (schema.initialFields[i]?).map Slot.form = some form) : member.kind = form.kind := by
  rw [htable] at hmember
  obtain ⟨plan, -, hplan, hkind⟩ := exists_plan_of_mem_members hmember hwrites
  rw [Nat.sub_zero] at hplan
  rw [hfields, List.getElem?_map, hplan] at hform
  obtain rfl := Option.some_inj.1 hform
  rw [hkind]
  exact (Form.kind_form plan.initial).symm

theorem racks_kinded : racks.catalogue.Kinded := by
  intro type member hmember i form hwrites hform
  rcases racks_catalogue type with hdevice | hrack
  · rw [Catalogue.form?, hdevice] at hform
    rw [hdevice] at hmember
    exact kind_of_plans rfl rfl hmember hwrites hform
  · rw [Catalogue.form?, hrack] at hform
    rw [hrack] at hmember
    exact kind_of_plans rfl rfl hmember hwrites hform

/-- An element that names a device, and its name. -/
def deviceElement : List (String × Json) :=
  [("Id", .string "00000000-0000-0000-0000-00000000000a"), ("displayName", .null)]

/-- The members of a payload with that element. -/
def devicesPayload : List (String × Json) := [("devices", .array [.object deviceElement])]

theorem devicesPayload_walked :
    racks.Walked (.owner "Rack") (.owner "Rack") devicesPayload ["devices"] "Device" "Device"
      deviceElement := by
  have hplace : racks.under (.owner "Rack") "devices" = .items "Device" := by decide +kernel
  have hasks : Intent.ofMembers racks.options ⟨["devices"]⟩ deviceElement =
      .ok (.update ⟨10⟩) := by
    decide +kernel
  refine .element (List.mem_singleton.2 rfl) (by decide) (by decide) (List.mem_singleton.2 rfl)
    hasks ?_
  rw [hplace]
  exact .here

end Sample

/-- Keys that lead to nothing are not looked at: a rack has no members `Nope` and `Gone`, and
its member `type` is a leaf, of which no change is recorded. -/
theorem keys_without_values_pass :
    Sample.racks.configuration = .empty ∧
      (Sample.racks.merge (Sample.keyedRack 1 []) (Sample.keyedRack 1 [])
        (.object [("Nope", .object []), ("Gone", .object [("id", .null)]),
          ("type", .object [("remove", .bool true)])]) 0).result = .ok Report.empty ∧
      Sample.racks.member? (Sample.keyedRack 1 []) "Nope" = none ∧
      Sample.racks.member? (Sample.keyedRack 1 []) "Gone" = none ∧
      (Sample.racks.member? (Sample.keyedRack 1 []) "type").map Member.kind = some .leaf :=
  ⟨rfl, by decide +kernel, by decide +kernel, by decide +kernel, by decide +kernel⟩

/-- The name of a device is heeded. -/
theorem heeds_merge_racks :
    (Sample.racks.merge (Sample.rackWithDevice 1 "new") (Sample.rackWithDevice 1 "old")
        (.object Sample.devicesPayload) 0).result =
          .ok ⟨[⟨⟨["devices", "displayName"]⟩, .updated, none⟩]⟩ ∧
      (∀ report, (Sample.racks.merge (Sample.rackWithDevice 1 "new")
          (Sample.rackWithDevice 1 "old") (.object Sample.devicesPayload) 0).result = .ok report →
        Sample.racks.Heeds report.changes "Device" "Device" ["devices"] "displayName") ∧
      ∀ p o : Node, p.type = "Device" → o.type = "Device" →
        (Sample.racks.member? p "displayName" = none ∨
          Sample.racks.member? o "displayName" = none) →
        Sample.racks.Mismatches p o "displayName" :=
  ⟨by decide +kernel,
    Merger.heeds_merge Sample.racks_noActions Sample.racks_wellTyped Sample.racks_derived
      Sample.racks_kinded (Configuration.factoriesTyped_empty _)
      (Sample.rackWithDevice_alike 1 1 "new" "old").patch
      (Sample.rackWithDevice_alike 1 1 "new" "old").original Sample.devicesPayload_walked
      (show ("displayName", Json.null) ∈ Sample.deviceElement by simp [Sample.deviceElement])
      (by decide) (by decide) ⟨[], .null, .here rfl, .inr (by decide)⟩⟩

end SelectiveMerge
