import SelectiveMerge.Proofs.Kept
import SelectiveMerge.Proofs.Step
import SelectiveMerge.Proofs.Table
import SelectiveMerge.Proofs.Typing

/-!
# The frame of a merge

A merge without overrides that run actions of their own leaves alone what its payload
does not mention. A directive is followed from the root of the payload to the value that
it stands for: the navigation takes one hop for each key, and the object behind the key
says what is mentioned behind the hop. Where the patch is of the type of the original, and
so is all that is met on the way, items keep their identities as well.

* `OfOneKind` — an original and a patch between which items keep their identities
* `Visits.kept` — a navigation that keeps the last owner keeps the first one
* `ElementsRun.kept`, `Reconciles.kept` — a collection under its array
* `kept_runDirectives` — a list of directives, each of which the values mention
* `kept_merge` — a whole merge
-/

namespace SelectiveMerge

/-- A value that leads further has a value at the next key, which leads on. -/
theorem Leads.exists_child {options : Options} {a : Addressed} {key : String}
    {rest : List String} {leaf : Json} (h : Leads options a.value (key :: rest) leaf) :
    ∃ c : Addressed, a.Child options key c ∧ Leads options c.value rest leaf := by
  obtain ⟨members, inner, hvalue, hmember, hmarker, hrest⟩ := leads_cons_iff.1 h
  exact ⟨⟨a.path ++ [key], inner⟩, ⟨members, hvalue, hmember, hmarker, rfl⟩, hrest⟩

theorem Addressed.Child.path_eq {options : Options} {a c : Addressed} {key : String}
    (h : a.Child options key c) : c.path = a.path ++ [key] := by
  obtain ⟨-, -, -, -, hpath⟩ := h
  exact hpath

/-- A directive that a value has: it leads to what the directive stands for. -/
def Addressed.Mentions (options : Options) (a : Addressed) (d : Directive) : Prop :=
  ∃ path leaf, Leads options a.value path leaf ∧ d = Directive.ofValue options path leaf

namespace Merger

open Run (Succeeds)

variable {m : Merger} {alike : Prop} {s s' : Session} {ns : Set Addressed}

/-- Nothing has changed in an object of a type but what is mentioned. -/
def KeptObject (m : Merger) (alike : Prop) (ns : Set Addressed) (type : TypeName)
    (old new : Fields) : Prop :=
  Kept m alike ns (.slot (.object type old)) (.slot (.object type new))

/-! ## Graphs of one kind -/

/-- An original and a patch are of one type, and all objects that they hold, or that are
made, are as their types declare. -/
structure OfOneKind (m : Merger) (patch original : Node) : Prop where
  wellTyped : m.catalogue.WellTyped
  factoriesTyped : m.configuration.FactoriesTyped m.catalogue
  alike : m.Alike patch original

/-- A collection of the original and one of the patch are of one kind. -/
structure ItemsOfOneKind (m : Merger) (r : Reconciliation) (items : List Fields) : Prop where
  wellTyped : m.catalogue.WellTyped
  factoriesTyped : m.configuration.FactoriesTyped m.catalogue
  type_eq : r.patchType = r.type
  patch : Typed m.catalogue (.collection r.patchType r.patchItems)
  original : Typed m.catalogue (.collection r.type items)

namespace OfOneKind

variable {patch original : Node}

theorem hop (hderived : m.catalogue.Derived) (h : m.OfOneKind patch original)
    {innerPatch inner : Node} {keys : List String} {put : Fields → Fields}
    (hhop : m.Hop patch original s keys innerPatch inner put s') :
    m.OfOneKind innerPatch inner :=
  ⟨h.wellTyped, h.factoriesTyped, h.alike.hop h.wellTyped hderived hhop⟩

/-- A directive leaves the original of the kind of the patch. -/
theorem directiveStep (hactions : m.configuration.NoActions) (h : m.OfOneKind patch original)
    {base : List String} {directive : Directive} {fields : Fields}
    (hstep : m.DirectiveStep base patch original directive s fields s') :
    m.OfOneKind patch ⟨original.type, fields⟩ := by
  have htyped := hstep.typed hactions h.wellTyped h.factoriesTyped
    (fun _ _ => runsType hactions h.wellTyped h.factoriesTyped _) h.alike.original
  exact ⟨h.wellTyped, h.factoriesTyped, h.alike.type_eq, h.alike.patch, htyped⟩

end OfOneKind

namespace ItemsOfOneKind

variable {r : Reconciliation} {items : List Fields}

/-- So are the items that an element names. -/
theorem item (h : m.ItemsOfOneKind r items) {id : Uuid} {item : Fields} {patchItem : Node}
    (hitem : item ∈ items)
    (hfound : m.catalogue.itemWithId? r.patchType r.patchItems id = some patchItem) :
    m.OfOneKind patchItem ⟨r.type, item⟩ := by
  obtain ⟨hpatchType, hmem, -⟩ := itemWithId?_eq_some hfound
  refine ⟨h.wellTyped, h.factoriesTyped, hpatchType.trans h.type_eq, ?_, h.original.item hitem⟩
  rw [hpatchType]
  exact h.patch.item hmem

/-- An element leaves the collection of the kind of that of the patch. -/
theorem elementStep (hactions : m.configuration.NoActions) {position : Nat}
    {members : List (String × Json)} {directives : List Directive} {state state' : Reconciled}
    (h : m.ItemsOfOneKind r state.items)
    (hstep : m.ElementStep r position members directives state s state' s') :
    m.ItemsOfOneKind r state'.items :=
  { h with
    original := hstep.typed h.wellTyped h.factoriesTyped
      (runsType hactions h.wellTyped h.factoriesTyped _) h.original }

end ItemsOfOneKind

/-! ## Members -/

/-- The value at a key is said of the field that the key denotes. -/
theorem mem_denoting {a c : Addressed} {n : Node} {name : String} {member : Member} {i : Nat}
    {slot : Slot} (ha : a ∈ ns) (hchild : a.Child m.options name c)
    (hmember : m.member? n name = some member) (htarget : n.target? member = some (i, slot)) :
    c ∈ m.denoting n.type i ns :=
  ⟨a, ha, name, member, hchild, hmember, (Node.target?_eq_some.1 htarget).1⟩

/-- The field that a key denotes changes. -/
theorem KeptObject.set {a c : Addressed} {n : Node} {name : String} {member : Member} {i : Nat}
    {slot slot' : Slot} (ha : a ∈ ns) (hchild : a.Child m.options name c)
    (hmember : m.member? n name = some member) (htarget : n.target? member = some (i, slot))
    (h : Kept m alike (m.denoting n.type i ns) (.slot slot) (.slot slot')) :
    m.KeptObject alike ns n.type n.fields (n.fields.set i slot') :=
  Kept.set (Node.target?_eq_some.1 htarget).2 ⟨c, mem_denoting ha hchild hmember htarget⟩ h

theorem Assigns.kept (hactions : m.configuration.NoActions) {full : Path}
    {patch original : Node} {name : String} {fields : Fields} {a : Addressed} {leaf : Json}
    (ha : a ∈ ns) (hleads : Leads m.options a.value [name] leaf)
    (h : m.Assigns full patch original name s fields s') :
    m.KeptObject alike ns original.type original.fields fields := by
  obtain ⟨c, hchild, hrest⟩ := hleads.exists_child
  obtain ⟨hvalue, -⟩ := leads_nil_iff.1 hrest
  cases h with
  | identity => exact .same
  | custom _ haction =>
    rw [hactions.setAction?_eq_none] at haction
    cases haction
  | leaf _ _ _ hom _ _ _ _ htarget =>
    refine .set ha hchild hom htarget (.leaf ⟨c, ?_, hvalue⟩)
    exact mem_denoting ha hchild hom htarget
  | unset _ _ _ hom _ _ _ htarget =>
    refine .set ha hchild hom htarget (.unset ⟨c, ?_, hvalue⟩ fun hnone => ?_)
    · exact mem_denoting ha hchild hom htarget
    · cases hnone

/-! ## Navigation -/

/-- Behind a hop, what leads on is mentioned of the inner object, and the outer one is
kept when the inner one is. -/
theorem Hop.exists_kept {patch original innerPatch inner : Node} {keys rest : List String}
    {put : Fields → Fields} (h : m.Hop patch original s keys innerPatch inner put s')
    (hrest : rest ≠ []) {a : Addressed} {leaf : Json} (ha : a ∈ ns)
    (hleads : Leads m.options a.value (keys ++ rest) leaf) :
    ∃ c, ∃ ns' : Set Addressed, c ∈ ns' ∧ c.path = a.path ++ keys ∧
      Leads m.options c.value rest leaf ∧
      ∀ made, m.KeptObject alike ns' inner.type inner.fields made →
        m.KeptObject alike ns original.type original.fields (put made) := by
  cases h with
  | object _ hom _ htarget =>
    obtain ⟨c, hchild, hinner⟩ := Leads.exists_child hleads
    exact ⟨c, _, mem_denoting ha hchild hom htarget, hchild.path_eq, hinner,
      fun made hmade => .set ha hchild hom htarget hmade⟩
  | optional _ hom _ htarget hensure =>
    obtain ⟨c, hchild, hinner⟩ := Leads.exists_child hleads
    have hc := mem_denoting ha hchild hom htarget
    refine ⟨c, _, hc, hchild.path_eq, hinner,
      fun made hmade => .set ha hchild hom htarget ?_⟩
    cases hensure with
    | found => exact .optional hmade
    | made =>
      obtain ⟨key, rest, rfl⟩ := List.exists_cons_of_ne_nil hrest
      obtain ⟨c', hchild', -⟩ := Leads.exists_child hinner
      exact .made ⟨c, hc, key, c', hchild'⟩
  | @entry name key _ _ _ _ _ _ _ entries _ _ _ hom _ htarget _ hensure =>
    obtain ⟨c, hchild, hdictionary⟩ := Leads.exists_child hleads
    obtain ⟨c', hchild', hinner⟩ := Leads.exists_child hdictionary
    have hc' : c' ∈ under m.options key (m.denoting original.type _ ns) :=
      ⟨c, mem_denoting ha hchild hom htarget, hchild'⟩
    refine ⟨c', _, hc', by simp [hchild'.path_eq, hchild.path_eq], hinner,
      fun made hmade => .set ha hchild hom htarget (.insert ⟨c', hc'⟩ fun f hf => ?_)⟩
    rw [hf] at hensure
    cases hensure with
    | found => exact hmade

/-- A navigation that keeps the owner it ends at keeps the object it started from. -/
theorem Visits.kept (hderived : m.catalogue.Derived) {full : Path}
    {act : Node → Node → String → Session → Fields → Session → Prop} {leaf : Json}
    (hact : ∀ {ns : Set Addressed} {a p o name s f s'}, (alike → m.OfOneKind p o) → a ∈ ns →
      a.path ++ [name] = full.segments → Leads m.options a.value [name] leaf →
      act p o name s f s' → m.KeptObject alike ns o.type o.fields f)
    {rest : List String} {patch original : Node} {fields : Fields} {a : Addressed}
    (hkind : alike → m.OfOneKind patch original) (ha : a ∈ ns)
    (hfull : a.path ++ rest = full.segments) (hleads : Leads m.options a.value rest leaf)
    (h : m.Visits full act rest patch original s fields s') :
    m.KeptObject alike ns original.type original.fields fields := by
  induction h generalizing ns a with
  | member h => exact hact hkind ha hfull hleads h
  | entry _ hom _ htarget hassign =>
    obtain ⟨c, hchild, hdictionary⟩ := hleads.exists_child
    obtain ⟨c', hchild', -⟩ := hdictionary.exists_child
    cases hassign with
    | intro =>
      refine .set ha hchild hom htarget (.insert_leaf ⟨c', c, ?_, hchild'⟩)
      exact mem_denoting ha hchild hom htarget
  | hop hhop hrest _ ih =>
    obtain ⟨c, ns', hc, hpath, hinner, hput⟩ := hhop.exists_kept hrest ha hleads
    exact hput _ (ih (fun halike => (hkind halike).hop hderived hhop) hc
      (by rw [hpath, List.append_assoc, hfull]) hinner)

/-! ## Collections -/

/-- A list of directives, each of which some value of `ns` has, keeps an object. -/
def RunsKeep (m : Merger) (alike : Prop) (directives : List Directive) : Prop :=
  ∀ {ns : Set Addressed} {base : List String} {patch : Node} {type : TypeName}
    {fields made : Fields} {s s' : Session}, (alike → m.OfOneKind patch ⟨type, fields⟩) →
    (∀ d ∈ directives, ∃ a ∈ ns, a.path = base ∧ a.Mentions m.options d) →
    Succeeds (runDirectives m base patch type directives fields) s made s' →
    m.KeptObject alike ns type fields made

variable {r : Reconciliation} {position : Nat} {members : List (String × Json)}
  {elements : List Element} {state state' : Reconciled} {items : List Json}

/-- An update keeps the identity of its item, between graphs of one kind as well as when no
other key than `id` goes to it. -/
theorem identity?_of_update (hactions : m.configuration.NoActions)
    (hderived : m.catalogue.Derived) {base : List String} {id : Uuid} {item fields : Fields}
    {patchItem : Node} (hkind : alike → r.patchType = r.type)
    (hfound : m.catalogue.itemWithId? r.patchType r.patchItems id = some patchItem)
    (hid : m.identity? r.type item = some id)
    (hsame : alike ∨
      m.Protects (Addressed.named m.options ⟨r.full.segments, .object members⟩) r.type)
    (h : Succeeds (runDirectives m base patchItem r.type
      (Directive.ofMembers m.options members) item) s fields s') :
    m.identity? r.type fields = some id := by
  have hsecure : m.Secure (Addressed.named m.options ⟨r.full.segments, .object members⟩)
      patchItem ⟨r.type, item⟩ := by
    rcases hsame with halike | hprotects
    · exact .of_itemWithId? (hkind halike) hfound hid
    · exact .inl hprotects
  refine (identity?_runDirectives hactions hderived hsecure (fun d hd name hname => ?_) h).trans hid
  obtain ⟨path, leaf, hleads, rfl⟩ := Directive.mem_ofMembers_iff.1 hd
  rw [Directive.path_ofValue] at hname
  subst hname
  obtain ⟨c, hchild, -⟩ := Leads.exists_child (a := ⟨r.full.segments, .object members⟩) hleads
  exact ⟨c, hchild⟩

theorem ElementStep.kept (hactions : m.configuration.NoActions) (hderived : m.catalogue.Derived)
    (hkind : alike → m.ItemsOfOneKind r state.items)
    (he : ⟨r.full.segments, .object members⟩ ∈ elementsOf ns)
    (hkeep : m.RunsKeep alike (Directive.ofMembers m.options members))
    (h : m.ElementStep r position members (Directive.ofMembers m.options members) state s
      state' s') :
    Kept m alike ns (.slot (.collection r.type state.items))
      (.slot (.collection r.type state'.items)) := by
  cases h with
  | add hintent => exact .append_item he ⟨members, rfl, hintent⟩
  | update hintent hindex hitem hfound hrun =>
    have hid := identity?_of_position? hindex hitem
    have hpair := fun halike => (hkind halike).item (List.mem_of_getElem? hitem) hfound
    refine .set_item hitem he ⟨members, rfl, hintent⟩ hid (fun hsame => ?_) ?_
    · exact identity?_of_update hactions hderived (fun halike => (hkind halike).type_eq) hfound
        hid hsame hrun
    · exact hkeep hpair (fun d hd => ⟨_, rfl, rfl, Directive.mem_ofMembers_iff.1 hd⟩) hrun
  | @remove id index hintent hindex =>
    obtain ⟨hlt, -⟩ := List.findIdx?_eq_some_iff_getElem.1 hindex
    have hitem := List.getElem?_eq_getElem hlt
    exact .eraseIdx_item hitem he ⟨members, rfl, hintent⟩ (identity?_of_position? hindex hitem)

/-- The elements of an array in `ns` keep the collection that it addresses. -/
theorem ElementsRun.kept (hactions : m.configuration.NoActions) (hderived : m.catalogue.Derived)
    (hkind : alike → m.ItemsOfOneKind r state.items)
    (helements : elements = Directive.elements m.options items)
    (hitems : ∀ item ∈ items, ⟨r.full.segments, item⟩ ∈ elementsOf ns)
    (hkeep : ∀ e ∈ elements, m.RunsKeep alike e.directives)
    (h : m.ElementsRun r position elements state s state' s') :
    Kept m alike ns (.slot (.collection r.type state.items))
      (.slot (.collection r.type state'.items)) := by
  induction h generalizing items with
  | nil => exact .same
  | cons hstep _ ih =>
    rw [Directive.elements_eq_map] at helements
    cases items with
    | nil => cases helements
    | cons item items =>
      obtain ⟨hhead, htail⟩ := List.cons_eq_cons.1 helements
      obtain ⟨rfl, rfl⟩ := Element.mk.inj hhead
      have hfirst := hstep.kept hactions hderived hkind (hitems _ (List.mem_cons_self ..))
        (hkeep _ (List.mem_cons_self ..))
      rw [← Directive.elements_eq_map] at htail
      exact hfirst.trans (ih (fun halike => (hkind halike).elementStep hactions hstep) htail
        (fun item hitem => hitems item (List.mem_cons_of_mem _ hitem))
        fun e he => hkeep e (List.mem_cons_of_mem _ he))

/-- What is mentioned stays so, and so is the identity that an element has updated. -/
theorem ElementStep.mentioned {directives : List Directive}
    (h : m.ElementStep r position members directives state s state' s') :
    state.mentioned ⊆ state'.mentioned ∧
      ∀ id, Intent.ofMembers m.options r.full members = .ok (.update id) →
        id ∈ state'.mentioned := by
  cases h with
  | add hintent =>
    refine ⟨List.subset_append_right .., fun id hasks => ?_⟩
    cases hintent.symm.trans hasks
  | update hintent =>
    refine ⟨List.subset_cons_self .., fun id hasks => ?_⟩
    cases hintent.symm.trans hasks
    exact List.mem_cons_self ..
  | remove hintent =>
    refine ⟨List.Subset.refl _, fun id hasks => ?_⟩
    cases hintent.symm.trans hasks

/-- So it is with all elements. -/
theorem ElementsRun.mem_mentioned (h : m.ElementsRun r position elements state s state' s') :
    state.mentioned ⊆ state'.mentioned ∧
      ∀ members id, .object members ∈ elements.map Element.value →
        Intent.ofMembers m.options r.full members = .ok (.update id) → id ∈ state'.mentioned := by
  induction h with
  | nil => exact ⟨List.Subset.refl _, by simp⟩
  | cons hstep _ ih =>
    obtain ⟨hsub, hlater⟩ := ih
    have hfirst := hstep.mentioned
    refine ⟨fun id hid => hsub (hfirst.1 hid), fun members id hmem hasks => ?_⟩
    rcases List.mem_cons.1 hmem with heq | hmem
    · obtain rfl := Json.object.inj heq
      exact hsub (hfirst.2 id hasks)
    · exact hlater members id hmem hasks

/-- The items that no element mentioned are gone, where an array leaves them out. -/
theorem DropsUnmentioned.keeps {mentioned : List Uuid} {olds left : List Fields}
    (hleaves : ∀ id, id ∉ mentioned → ∃ a ∈ ns, m.LeavesOut id a)
    (h : m.DropsUnmentioned r mentioned olds s left s') :
    Kept m alike ns (.slot (.collection r.type olds)) (.slot (.collection r.type left)) := by
  obtain ⟨after, rfl, hafter⟩ : ∃ after, left = after.reduceOption ∧ List.Forall₂
      (fun x y => Kept m alike ns (.item r.type (some x)) (.item r.type y)) olds after := by
    induction h with
    | nil => exact ⟨[], rfl, .nil⟩
    | @kept item _ _ _ _ _ _ ih =>
      obtain ⟨after, rfl, hafter⟩ := ih
      exact ⟨some item :: after, (List.reduceOption_cons_of_some ..).symm, .cons .same hafter⟩
    | removed hid hmentioned _ _ ih =>
      obtain ⟨after, rfl, hafter⟩ := ih
      exact ⟨none :: after, (List.reduceOption_cons_of_none ..).symm,
        .cons (.dropped hid (hleaves _ hmentioned)) hafter⟩
  exact .of_forall₂ hafter

/-- What was removed beforehand was to be. -/
theorem Clears.keeps {full : Path} {node : Json} {patch original : Node} {member : Member}
    {type : TypeName} {clears : Bool} {olds found : List Fields}
    (hclearing : clears = true → ∃ a ∈ ns, m.Clearing type a)
    (h : m.Clears full node patch original member clears olds s found s') :
    Kept m alike ns (.slot (.collection type olds)) (.slot (.collection type found)) := by
  cases h with
  | kept => exact .same
  | cleared hclears | empty hclears => exact .nil (hclearing hclears)

theorem Reconciles.kept (hactions : m.configuration.NoActions) (hderived : m.catalogue.Derived)
    {full : Path} {node : Json} {patch original : Node} {pm om : Member} {name : String}
    {fields : Fields} {a c : Addressed} (hkind : alike → m.OfOneKind patch original)
    (ha : a ∈ ns) (hchild : a.Child m.options name c) (hfull : c.path = full.segments)
    (hvalue : c.value = .array items) (hpm : m.member? patch name = some pm)
    (hom : m.member? original name = some om)
    (hkeep : ∀ e ∈ Directive.elements m.options items, m.RunsKeep alike e.directives)
    (h : m.Reconciles full node (Directive.elements m.options items) patch original pm om s
      fields s') :
    m.KeptObject alike ns original.type original.fields fields := by
  cases h with
  | ignored => exact .same
  | @run patchType type readType patchItems olds readItems found left i t u v state hpatch hread
      htarget hclears hrun hdrops =>
    have hc := mem_denoting ha hchild hom htarget
    obtain ⟨rfl, rfl⟩ := collection_of_target? hderived hom htarget hread
    have hfirst : Kept m alike (m.denoting original.type i ns) (.slot (.collection type olds))
        (.slot (.collection type found)) := by
      refine hclears.keeps fun hclearing => ?_
      rw [Bool.and_eq_true, Bool.not_eq_true', Bool.or_eq_true, List.isEmpty_iff,
        Directive.elements_eq_map, List.map_eq_nil_iff] at hclearing
      obtain ⟨hidentified, hwhole⟩ := hclearing
      exact ⟨c, hc, hidentified, items, hvalue, by rwa [hfull]⟩
    have hfound : alike → m.ItemsOfOneKind ⟨full, om.name, patchType, patchItems, type⟩ found := by
      intro halike
      obtain ⟨hwell, hfactories, hpair⟩ := hkind halike
      obtain ⟨htype, hpatchItems⟩ := hpair.collection hderived hpm hom hpatch htarget
      exact ⟨hwell, hfactories, htype, hpatchItems,
        hclears.typed (hpair.original.field (Node.target?_eq_some.1 htarget).2).2⟩
    have hsecond := hrun.kept hactions hderived hfound rfl
      (fun item hitem => ⟨c, hc, items, hvalue, hitem, hfull.symm⟩) hkeep
    have hthird : Kept m alike (m.denoting original.type i ns)
        (.slot (.collection type state.items)) (.slot (.collection type left)) := by
      cases hdrops with
      | kept => exact .same
      | dropped hforce hdropped =>
        rw [Bool.and_eq_true] at hforce
        refine hdropped.keeps fun id hid => ⟨c, hc, ?_, items, hvalue, fun item hitem => ?_⟩
        · rw [hfull]
          exact hforce.1
        · rintro ⟨members, rfl, hasks⟩
          rw [hfull] at hasks
          refine hid (hrun.mem_mentioned.2 members id ?_ hasks)
          rwa [Directive.map_value_elements]
    exact .set ha hchild hom htarget ((hfirst.trans hsecond).trans hthird)

theorem ArrayAssigns.kept (hactions : m.configuration.NoActions) (hderived : m.catalogue.Derived)
    {full : Path} {node : Json} {patch original : Node} {name : String} {fields : Fields}
    {a : Addressed} (hkind : alike → m.OfOneKind patch original) (ha : a ∈ ns)
    (hfull : a.path ++ [name] = full.segments)
    (hleads : Leads m.options a.value [name] (.array items))
    (hkeep : ∀ e ∈ Directive.elements m.options items, m.RunsKeep alike e.directives)
    (h : m.ArrayAssigns full node (Directive.elements m.options items) patch original name s
      fields s') :
    m.KeptObject alike ns original.type original.fields fields := by
  obtain ⟨c, hchild, hrest⟩ := hleads.exists_child
  obtain ⟨hvalue, harray⟩ := leads_nil_iff.1 hrest
  cases h with
  | identity => exact .same
  | emptied _ _ _ hom _ _ _ htarget =>
    refine .set ha hchild hom htarget (.leaf ⟨c, ?_, hvalue⟩)
    exact mem_denoting ha hchild hom htarget
  | assigned _ _ _ _ _ hassign => exact hassign.kept hactions ha hleads
  | reconciled _ hpm hom _ hreconcile =>
    exact hreconcile.kept hactions hderived hkind ha hchild (by rw [hchild.path_eq, hfull])
      harray hpm hom hkeep

/-! ## Directives -/

theorem DirectiveStep.kept (hactions : m.configuration.NoActions)
    (hderived : m.catalogue.Derived) {base : List String} {patch original : Node}
    {directive : Directive} {fields : Fields} {a : Addressed}
    (hkind : alike → m.OfOneKind patch original) (ha : a ∈ ns)
    (hbase : a.path = base) (hmentions : a.Mentions m.options directive)
    (hkeep : ∀ e ∈ directive.arrayElements, m.RunsKeep alike e.directives)
    (h : m.DirectiveStep base patch original directive s fields s') :
    m.KeptObject alike ns original.type original.fields fields := by
  obtain ⟨path, leaf, hleads, heq⟩ := hmentions
  cases h with
  | identity => exact .same
  | scalar _ hvisit =>
    obtain rfl : path = _ := by simpa using (congrArg Directive.path heq).symm
    exact hvisit.kept hderived (fun _ ha _ hleads hact => hact.kept hactions ha hleads) hkind ha
      (by rw [hbase]) hleads
  | array hvisit =>
    cases leaf with
    | array items =>
      obtain ⟨rfl, rfl⟩ := Directive.array.inj heq
      refine hvisit.kept hderived (fun hkind ha hfull hleads hact => ?_) hkind ha
        (by rw [hbase]) hleads
      exact hact.kept hactions hderived hkind ha hfull hleads hkeep
    | _ => cases heq

/-- Directives that the values have keep the object that they are run on. -/
theorem runsKeep (hactions : m.configuration.NoActions) (hderived : m.catalogue.Derived)
    (directives : List Directive) : m.RunsKeep alike directives := by
  induction directives using Directive.forall_of_elements with
  | nil =>
    intro ns base patch type fields made s s' _ _ h
    obtain ⟨rfl, -⟩ := succeeds_runDirectives_nil.1 h
    exact .same
  | cons directive directives hdirective ih =>
    intro ns base patch type fields made s s' hkind hns h
    obtain ⟨mid, t, hhead, htail⟩ := succeeds_runDirectives_cons.1 h
    obtain ⟨a, ha, hbase, hmentions⟩ := hns directive (List.mem_cons_self ..)
    have hstep := DirectiveStep.of_runDirective hhead
    have hfirst := hstep.kept hactions hderived hkind ha hbase hmentions hdirective
    exact Kept.trans hfirst (ih (fun halike => (hkind halike).directiveStep hactions hstep)
      (fun d hd => hns d (List.mem_cons_of_mem _ hd)) htail)

/-- A merge changes nothing of its original that the payload does not mention. If the patch is
of the same kind, no element of an array changes the identity of the item it comes to. -/
theorem kept_merge {patch original : Node} {payload : Json} {minted : Nat} {report : Report}
    (hactions : m.configuration.NoActions) (hderived : m.catalogue.Derived)
    (hok : (m.merge patch original payload minted).result = .ok report) :
    (m.merge patch original payload minted).original.type = original.type ∧
      m.KeptObject (m.OfOneKind patch original) {⟨[], payload⟩} original.type original.fields
        (m.merge patch original payload minted).original.fields := by
  rcases m.merge_cases patch original payload minted with
    ⟨e, heq⟩ | ⟨members, e, s, -, -, heq⟩ | ⟨members, fields, s, rfl, hrun, heq⟩
  · rw [heq] at hok
    cases hok
  · rw [heq] at hok
    cases hok
  · rw [heq]
    refine ⟨rfl, runsKeep hactions hderived _ id (fun d hd => ?_) hrun⟩
    exact ⟨_, rfl, rfl, Directive.mem_ofMembers_iff.1 hd⟩

end Merger

/-! ## A grove -/

namespace Sample

/-- A merger of trees, which have trees as children. -/
def grove : Merger := .plain (fun _ => tree "") fun _ => Uuid.nil

/-- A tree without branches. -/
def sapling (id : Nat) (name : String) (children : List Fields) : Fields :=
  [.leaf .uuid (.uuid ⟨id⟩), .leaf .text (.text name), .collection "Tree" children,
    .dictionary "Tree" []]

/-- A root with an oak and an elm. -/
def oakAndElm : Node := ⟨"Tree", sapling 1 "root" [sapling 10 "oak" [], sapling 11 "elm" []]⟩

/-- The same trees under other names. -/
def renamed : Node := ⟨"Tree", sapling 1 "Root" [sapling 11 "Elm" [], sapling 10 "Oak" []]⟩

/-- A payload that mentions the name of the elm. -/
def nameOfElm : Json :=
  .object [("Children", .array [.object
    [("Id", .string "00000000-0000-0000-0000-00000000000b"), ("Name", .null)]])]

theorem grove_noActions : grove.configuration.NoActions := by
  intro e he
  cases he

theorem grove_derived : grove.catalogue.Derived := fun _ => Plan.derived_members 0 _

end Sample

/-- Only the elm is renamed; the oak and the root are kept. -/
theorem kept_merge_grove :
    (Sample.grove.merge Sample.renamed Sample.oakAndElm Sample.nameOfElm 0).result =
        .ok ⟨[⟨⟨["Children", "Name"]⟩, .updated, none⟩]⟩ ∧
      (Sample.grove.merge Sample.renamed Sample.oakAndElm Sample.nameOfElm 0).original.type =
        Sample.oakAndElm.type ∧
      Sample.grove.KeptObject (Sample.grove.OfOneKind Sample.renamed Sample.oakAndElm)
        {⟨[], Sample.nameOfElm⟩} Sample.oakAndElm.type
        Sample.oakAndElm.fields
        (Sample.grove.merge Sample.renamed Sample.oakAndElm Sample.nameOfElm 0).original.fields :=
  ⟨rfl, Merger.kept_merge Sample.grove_noActions Sample.grove_derived rfl⟩

end SelectiveMerge
