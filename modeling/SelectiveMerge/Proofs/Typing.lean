import SelectiveMerge.Proofs.Declared
import SelectiveMerge.Proofs.Payload
import SelectiveMerge.Proofs.Step
import SelectiveMerge.Proofs.Table

/-!
# Typed objects

A field never holds anything but what its type declares: a leaf of some type, an object of
some type, and so on. An object is typed when that is so for all its fields, and for those
of the objects that it holds in turn. A merge of a typed original keeps to the types.

* `Form` — what a field is declared to hold
* `Typed` — a slot holds typed objects only
* `Typed.conforms` — in particular an object conforms to its type
* `DirectiveStep.typed`, `runsType` — a directive, and a list of them, keep to the types
* `Merger.Alike` — two typed objects of one type, which a navigation leads to such objects
-/

namespace SelectiveMerge

/-- What a field is declared to hold. -/
inductive Form where
  | leaf (type : LeafType)
  | object (type : TypeName)
  | optional (type : TypeName)
  | collection (type : TypeName)
  | dictionary (type : TypeName)
  | leafDictionary (type : LeafType)

/-- The declaration that a slot is in accord with, in full. -/
def Slot.form : Slot → Form
  | .leaf type _ => .leaf type
  | .object type _ => .object type
  | .optional type _ => .optional type
  | .collection type _ => .collection type
  | .dictionary type _ => .dictionary type
  | .leafDictionary type _ => .leafDictionary type

namespace Form

/-- What is declared behind a field of a form. -/
def place : Form → Place
  | .leaf _ | .leafDictionary _ => .value
  | .object type | .optional type => .owner type
  | .collection type => .items type
  | .dictionary type => .entries type

/-- The kind of a member that is stored in a field of a form. -/
def kind : Form → MemberKind
  | .leaf _ => .leaf
  | .object _ => .object
  | .optional _ => .optionalObject
  | .collection _ => .collection
  | .dictionary _ => .dictionary
  | .leafDictionary _ => .leafDictionary

@[simp] theorem place_form (s : Slot) : s.form.place = s.place := by
  cases s <;> rfl

@[simp] theorem kind_form (s : Slot) : s.form.kind = s.kind := by
  cases s <;> rfl

end Form

/-- What a type declares for the field with a number, if it has one. -/
def Catalogue.form? (c : Catalogue) (type : TypeName) (i : Nat) : Option Form :=
  ((c type).initialFields[i]?).map Slot.form

/-- All objects that a slot holds have fields of the forms that their types declare. -/
inductive Typed (c : Catalogue) : Slot → Prop where
  | leaf {type : LeafType} {value : Cell} : Typed c (.leaf type value)
  | leafDictionary {type : LeafType} {entries : List (String × Cell)} :
      Typed c (.leafDictionary type entries)
  | object {type : TypeName} {fields : Fields}
      (hforms : ∀ (i : Nat) slot, fields[i]? = some slot → c.form? type i = some slot.form)
      (hfields : ∀ (i : Nat) slot, fields[i]? = some slot → Typed c slot) :
      Typed c (.object type fields)
  | missing {type : TypeName} : Typed c (.optional type none)
  | optional {type : TypeName} {fields : Fields} (hpresent : Typed c (.object type fields)) :
      Typed c (.optional type (some fields))
  | collection {type : TypeName} {items : List Fields}
      (hitems : ∀ item ∈ items, Typed c (.object type item)) :
      Typed c (.collection type items)
  | dictionary {type : TypeName} {entries : List (String × Fields)}
      (hentries : ∀ key fields, Dictionary.find? key entries = some fields →
        Typed c (.object type fields)) :
      Typed c (.dictionary type entries)

/-- What the objects of all types hold at first is typed. -/
def Catalogue.WellTyped (c : Catalogue) : Prop :=
  ∀ type, Typed c (.object type (c type).initialFields)

/-- What factories make is typed. -/
def Configuration.FactoriesTyped (configuration : Configuration) (c : Catalogue) : Prop :=
  ∀ full make patchItem item, configuration.itemFactory? full = some make →
    make patchItem = .ok item → Typed c (.object item.type item.fields)

theorem Configuration.factoriesTyped_empty (c : Catalogue) :
    Configuration.empty.FactoriesTyped c := by
  intro full make patchItem item hmake
  cases hmake

/-- The members of all types have the kinds of the fields that they are written to. -/
def Catalogue.Kinded (c : Catalogue) : Prop :=
  ∀ type, ∀ member ∈ (c type).table.members, ∀ i form, member.writes = some i →
    c.form? type i = some form → member.kind = form.kind

namespace Typed

variable {c : Catalogue}

/-- An object is typed when its fields have the forms of those that objects of its type have
at first. -/
theorem of_forms {type : TypeName} {fields : Fields}
    (hforms : fields.map Slot.form = (c type).initialFields.map Slot.form)
    (hfields : ∀ slot ∈ fields, Typed c slot) : Typed c (.object type fields) := by
  refine .object (fun i slot hslot => ?_) fun i slot hslot => hfields slot (List.mem_of_getElem? hslot)
  rw [Catalogue.form?, ← List.getElem?_map, ← hforms, List.getElem?_map, hslot, Option.map_some]

/-- A field of a typed object is of the form that is declared. -/
theorem field {type : TypeName} {fields : Fields} {i : Nat} {slot : Slot}
    (h : Typed c (.object type fields)) (hslot : fields[i]? = some slot) :
    c.form? type i = some slot.form ∧ Typed c slot := by
  cases h with
  | object hforms hfields => exact ⟨hforms i slot hslot, hfields i slot hslot⟩

theorem present {type : TypeName} {present : Option Fields} (h : Typed c (.optional type present))
    (fields : Fields) (hpresent : present = some fields) : Typed c (.object type fields) := by
  subst hpresent
  cases h with
  | optional hpresent => exact hpresent

theorem entry {type : TypeName} {entries : List (String × Fields)} {key : String}
    {fields : Fields} (h : Typed c (.dictionary type entries))
    (hfind : Dictionary.find? key entries = some fields) : Typed c (.object type fields) := by
  cases h with
  | dictionary hentries => exact hentries key fields hfind

theorem item {type : TypeName} {items : List Fields} {fields : Fields}
    (h : Typed c (.collection type items)) (hitem : fields ∈ items) :
    Typed c (.object type fields) := by
  cases h with
  | collection hitems => exact hitems fields hitem

/-- An object is still typed when a field gets another content of its form. -/
theorem set {type : TypeName} {fields : Fields} {i : Nat} {old new : Slot}
    (h : Typed c (.object type fields)) (hold : fields[i]? = some old)
    (hform : new.form = old.form) (hnew : Typed c new) :
    Typed c (.object type (fields.set i new)) := by
  have hboth : ∀ (j : Nat) slot, (fields.set i new)[j]? = some slot →
      c.form? type j = some slot.form ∧ Typed c slot := by
    intro j slot hslot
    by_cases hj : i = j
    · subst hj
      obtain ⟨hi, -⟩ := List.getElem?_eq_some_iff.1 hold
      rw [List.getElem?_set_self hi] at hslot
      obtain rfl := Option.some_inj.1 hslot
      exact ⟨hform ▸ (h.field hold).1, hnew⟩
    · rw [List.getElem?_set_ne hj] at hslot
      exact h.field hslot
  exact .object (fun j slot hslot => (hboth j slot hslot).1)
    fun j slot hslot => (hboth j slot hslot).2

theorem insert {type : TypeName} {entries : List (String × Fields)} {key : String}
    {made : Fields} (h : Typed c (.dictionary type entries))
    (hmade : Typed c (.object type made)) :
    Typed c (.dictionary type (Dictionary.insert key made entries)) := by
  refine .dictionary fun other fields hfind => ?_
  rw [Dictionary.find?_insert] at hfind
  split at hfind
  · obtain rfl := Option.some_inj.1 hfind
    exact hmade
  · exact h.entry hfind

theorem set_item {type : TypeName} {items : List Fields} {made : Fields}
    (h : Typed c (.collection type items)) (hmade : Typed c (.object type made)) (i : Nat) :
    Typed c (.collection type (items.set i made)) := by
  refine .collection fun item hitem => ?_
  rcases List.mem_or_eq_of_mem_set hitem with hitem | rfl
  · exact h.item hitem
  · exact hmade

/-- What is typed conforms to its declaration. -/
theorem conforms {slot : Slot} (h : Typed c slot) : Conforms c slot := by
  induction h with
  | leaf => exact .leaf
  | leafDictionary => exact .leafDictionary
  | @object type fields hforms _ ih =>
    refine .object (fun i slot hslot => ?_) ih
    have hform := hforms i slot hslot
    obtain ⟨declared, hdeclared, heq⟩ := Option.map_eq_some_iff.1 hform
    rw [Catalogue.place, hdeclared, Option.map_some, Option.getD_some, ← Form.place_form,
      ← Form.place_form, heq]
  | missing => exact .missing
  | optional _ ih => exact .optional ih
  | collection _ ih => exact .collection ih
  | dictionary _ ih => exact .dictionary ih

end Typed

/-- In a catalogue whose objects are typed at first they conform. -/
theorem Catalogue.WellTyped.wellFormed {c : Catalogue} (h : c.WellTyped) : c.WellFormed :=
  fun type => (h type).conforms

namespace Merger

open Run (Succeeds)

variable {m : Merger} {s s' : Session}

/-! ## Members and navigation -/

theorem Makes.typed (hwell : m.catalogue.WellTyped) {type : TypeName} {fields : Fields}
    (h : m.Makes type s fields s') : Typed m.catalogue (.object type fields) := by
  rcases h.eq_or_exists_set with rfl | ⟨i, id, hslot, rfl⟩
  · exact hwell type
  · exact (hwell type).set hslot rfl .leaf

/-- What was found is typed by assumption, what was not is made. -/
theorem Ensures.typed (hwell : m.catalogue.WellTyped) {type : TypeName}
    {found : Option Fields} {fields : Fields} (h : m.Ensures type s found fields s')
    (hfound : ∀ f, found = some f → Typed m.catalogue (.object type f)) :
    Typed m.catalogue (.object type fields) := by
  cases h with
  | found => exact hfound fields rfl
  | made hmade => exact hmade.typed hwell

theorem Assigns.typed (hactions : m.configuration.NoActions) {full : Path}
    {patch original : Node} {name : String} {fields : Fields}
    (horiginal : Typed m.catalogue (.object original.type original.fields))
    (h : m.Assigns full patch original name s fields s') :
    Typed m.catalogue (.object original.type fields) := by
  cases h with
  | identity => exact horiginal
  | custom _ haction =>
    rw [hactions.setAction?_eq_none] at haction
    cases haction
  | leaf _ _ _ _ _ _ _ _ htarget =>
    exact horiginal.set (Node.target?_eq_some.1 htarget).2 rfl .leaf
  | unset _ _ _ _ _ _ _ htarget =>
    exact horiginal.set (Node.target?_eq_some.1 htarget).2 rfl .missing

/-- Behind a hop there is a typed object, and one that is put back in its place leaves the
outer one typed. -/
theorem Hop.typed (hwell : m.catalogue.WellTyped) {patch original innerPatch inner : Node}
    {keys : List String} {put : Fields → Fields}
    (horiginal : Typed m.catalogue (.object original.type original.fields))
    (h : m.Hop patch original s keys innerPatch inner put s') :
    Typed m.catalogue (.object inner.type inner.fields) ∧
      ∀ made, Typed m.catalogue (.object inner.type made) →
        Typed m.catalogue (.object original.type (put made)) := by
  cases h with
  | object _ _ _ htarget =>
    have hslot := (Node.target?_eq_some.1 htarget).2
    exact ⟨(horiginal.field hslot).2, fun made hmade => horiginal.set hslot rfl hmade⟩
  | optional _ _ _ htarget hensure =>
    have hslot := (Node.target?_eq_some.1 htarget).2
    exact ⟨hensure.typed hwell (horiginal.field hslot).2.present,
      fun made hmade => horiginal.set hslot rfl (.optional hmade)⟩
  | entry _ _ _ htarget _ hensure =>
    have hslot := (Node.target?_eq_some.1 htarget).2
    have hentries := (horiginal.field hslot).2
    exact ⟨hensure.typed hwell fun f hf => hentries.entry hf,
      fun made hmade => horiginal.set hslot rfl (hentries.insert hmade)⟩

/-- A navigation keeps to the types when its visitor does. -/
theorem Visits.typed (hwell : m.catalogue.WellTyped) {full : Path}
    {act : Node → Node → String → Session → Fields → Session → Prop}
    (hact : ∀ {p o : Node} {name : String} {s s' : Session} {f : Fields},
      Typed m.catalogue (.object o.type o.fields) → act p o name s f s' →
      Typed m.catalogue (.object o.type f))
    {rest : List String} {patch original : Node} {fields : Fields}
    (horiginal : Typed m.catalogue (.object original.type original.fields))
    (h : m.Visits full act rest patch original s fields s') :
    Typed m.catalogue (.object original.type fields) := by
  induction h with
  | member h => exact hact horiginal h
  | entry _ _ _ htarget =>
    exact horiginal.set (Node.target?_eq_some.1 htarget).2 rfl .leafDictionary
  | hop hhop _ _ ih =>
    obtain ⟨hinner, hput⟩ := hhop.typed hwell horiginal
    exact hput _ (ih hinner)

/-! ## Collections -/

/-- A list of directives keeps to the types. -/
def RunsType (m : Merger) (directives : List Directive) : Prop :=
  ∀ {base : List String} {patch : Node} {type : TypeName} {fields made : Fields}
    {s s' : Session}, Typed m.catalogue (.object type fields) →
    Succeeds (runDirectives m base patch type directives fields) s made s' →
    Typed m.catalogue (.object type made)

theorem MakesItem.typed (hwell : m.catalogue.WellTyped)
    (hfactories : m.configuration.FactoriesTyped m.catalogue) {r : Reconciliation}
    {patchItem item : Node} (h : m.MakesItem r patchItem s item s') :
    Typed m.catalogue (.object item.type item.fields) := by
  cases h with
  | factory hmake hrun => exact hfactories _ _ _ _ hmake hrun
  | construct _ hmade => exact hmade.typed hwell

theorem ElementStep.typed (hwell : m.catalogue.WellTyped)
    (hfactories : m.configuration.FactoriesTyped m.catalogue) {r : Reconciliation}
    {position : Nat} {members : List (String × Json)} {directives : List Directive}
    {state state' : Reconciled} (hdirectives : m.RunsType directives)
    (h : m.ElementStep r position members directives state s state' s')
    (hstate : Typed m.catalogue (.collection r.type state.items)) :
    Typed m.catalogue (.collection r.type state'.items) := by
  cases h with
  | add _ _ hfresh htype hrun =>
    refine .collection fun item hitem => ?_
    rcases List.mem_append.1 hitem with hitem | hitem
    · exact hstate.item hitem
    · obtain rfl := List.mem_singleton.1 hitem
      rw [← htype]
      exact hdirectives (hfresh.typed hwell hfactories) hrun
  | update _ _ hitem _ hrun =>
    exact hstate.set_item (hdirectives (hstate.item (List.mem_of_getElem? hitem)) hrun) _
  | remove =>
    exact .collection fun item hitem => hstate.item (List.mem_of_mem_eraseIdx hitem)

theorem ElementsRun.typed (hwell : m.catalogue.WellTyped)
    (hfactories : m.configuration.FactoriesTyped m.catalogue) {r : Reconciliation}
    {position : Nat} {elements : List Element} {state state' : Reconciled}
    (hdirectives : ∀ e ∈ elements, m.RunsType e.directives)
    (h : m.ElementsRun r position elements state s state' s')
    (hstate : Typed m.catalogue (.collection r.type state.items)) :
    Typed m.catalogue (.collection r.type state'.items) := by
  induction h with
  | nil => exact hstate
  | cons hstep _ ih =>
    have hmid := hstep.typed hwell hfactories (hdirectives _ (List.mem_cons_self ..)) hstate
    exact ih (fun e he => hdirectives e (List.mem_cons_of_mem _ he)) hmid

/-- Of the items only some are kept. -/
theorem DropsUnmentioned.sublist {r : Reconciliation} {mentioned : List Uuid}
    {items left : List Fields} (h : m.DropsUnmentioned r mentioned items s left s') :
    left.Sublist items := by
  induction h with
  | nil => exact .slnil
  | kept _ _ ih => exact ih.cons_cons _
  | removed _ _ _ _ ih => exact ih.cons _

/-- What is left when a collection may have been cleared is typed. -/
theorem Clears.typed {full : Path} {node : Json} {patch original : Node} {member : Member}
    {clears : Bool} {type : TypeName} {items found : List Fields}
    (h : m.Clears full node patch original member clears items s found s')
    (hitems : Typed m.catalogue (.collection type items)) :
    Typed m.catalogue (.collection type found) := by
  cases h with
  | kept => exact hitems
  | cleared | empty => exact .collection (by simp)

theorem Reconciles.typed (hwell : m.catalogue.WellTyped)
    (hfactories : m.configuration.FactoriesTyped m.catalogue) {full : Path} {node : Json}
    {elements : List Element} {patch original : Node} {pm om : Member} {fields : Fields}
    (hdirectives : ∀ e ∈ elements, m.RunsType e.directives)
    (h : m.Reconciles full node elements patch original pm om s fields s')
    (horiginal : Typed m.catalogue (.object original.type original.fields)) :
    Typed m.catalogue (.object original.type fields) := by
  cases h with
  | ignored => exact horiginal
  | @run _ type _ _ items _ found left _ _ _ _ state _ _ htarget hclears hrun hdrops =>
    have hslot := (Node.target?_eq_some.1 htarget).2
    have hstate := hrun.typed hwell hfactories hdirectives
      (hclears.typed (horiginal.field hslot).2)
    refine horiginal.set hslot rfl (.collection fun item hitem => ?_)
    cases hdrops with
    | kept => exact hstate.item hitem
    | dropped _ hdrop => exact hstate.item (hdrop.sublist.subset hitem)

theorem ArrayAssigns.typed (hactions : m.configuration.NoActions)
    (hwell : m.catalogue.WellTyped) (hfactories : m.configuration.FactoriesTyped m.catalogue)
    {full : Path} {node : Json} {elements : List Element} {patch original : Node}
    {name : String} {fields : Fields} (hdirectives : ∀ e ∈ elements, m.RunsType e.directives)
    (horiginal : Typed m.catalogue (.object original.type original.fields))
    (h : m.ArrayAssigns full node elements patch original name s fields s') :
    Typed m.catalogue (.object original.type fields) := by
  cases h with
  | identity => exact horiginal
  | emptied _ _ _ _ _ _ _ htarget =>
    exact horiginal.set (Node.target?_eq_some.1 htarget).2 rfl .leaf
  | assigned _ _ _ _ _ hassign => exact hassign.typed hactions horiginal
  | reconciled _ _ _ _ hreconcile =>
    exact hreconcile.typed hwell hfactories hdirectives horiginal

/-! ## Directives -/

theorem DirectiveStep.typed (hactions : m.configuration.NoActions)
    (hwell : m.catalogue.WellTyped) (hfactories : m.configuration.FactoriesTyped m.catalogue)
    {base : List String} {patch original : Node} {directive : Directive} {fields : Fields}
    (hdirectives : ∀ e ∈ directive.arrayElements, m.RunsType e.directives)
    (horiginal : Typed m.catalogue (.object original.type original.fields))
    (h : m.DirectiveStep base patch original directive s fields s') :
    Typed m.catalogue (.object original.type fields) := by
  cases h with
  | identity => exact horiginal
  | scalar _ hvisit =>
    exact hvisit.typed hwell (fun ho hact => Assigns.typed hactions ho hact) horiginal
  | array hvisit =>
    exact hvisit.typed hwell
      (fun ho hact => ArrayAssigns.typed hactions hwell hfactories hdirectives ho hact) horiginal

/-- Every list of directives keeps to the types. -/
theorem runsType (hactions : m.configuration.NoActions) (hwell : m.catalogue.WellTyped)
    (hfactories : m.configuration.FactoriesTyped m.catalogue) (directives : List Directive) :
    m.RunsType directives := by
  induction directives using Directive.forall_of_elements with
  | nil =>
    intro base patch type fields made s s' hfields h
    obtain ⟨rfl, -⟩ := succeeds_runDirectives_nil.1 h
    exact hfields
  | cons directive directives hdirective ih =>
    intro base patch type fields made s s' hfields h
    obtain ⟨mid, t, hhead, htail⟩ := succeeds_runDirectives_cons.1 h
    have hmid := (DirectiveStep.of_runDirective hhead).typed hactions hwell hfactories hdirective
      hfields
    exact ih hmid htail

/-! ## Two objects of one type -/

/-- Two typed objects of one type. -/
structure Alike (m : Merger) (patch original : Node) : Prop where
  type_eq : patch.type = original.type
  patch : Typed m.catalogue (.object patch.type patch.fields)
  original : Typed m.catalogue (.object original.type original.fields)

namespace Alike

variable {patch original innerPatch inner : Node} {name : String} {pm om : Member}
  {view : View} {i : Nat} {slot : Slot}

/-- A key goes to fields of one form in both objects. -/
theorem exists_slot (hderived : m.catalogue.Derived) (h : m.Alike patch original)
    (hpm : m.member? patch name = some pm) (hom : m.member? original name = some om)
    (hread : patch.read? pm = some view) (htarget : original.target? om = some (i, slot)) :
    ∃ patchSlot : Slot, patchSlot.view = view ∧ patchSlot.form = slot.form ∧
      Typed m.catalogue patchSlot := by
  obtain ⟨hwrites, hslot⟩ := Node.target?_eq_some.1 htarget
  obtain ⟨j, patchSlot, hreads, hpatchSlot, hview⟩ := Node.read?_eq_some.1 hread
  obtain rfl : pm = om := by
    unfold member? at hpm hom
    rw [h.type_eq, hom] at hpm
    exact (Option.some_inj.1 hpm).symm
  obtain ⟨k, hreads', hwrites'⟩ := hderived _ pm (MemberTable.mem_of_find? hom)
  obtain rfl : k = i := Option.some_inj.1 (hwrites'.symm.trans hwrites)
  obtain rfl : k = j := Option.some_inj.1 (hreads'.symm.trans hreads)
  have hform := (h.patch.field hpatchSlot).1
  rw [h.type_eq, (h.original.field hslot).1] at hform
  exact ⟨patchSlot, hview, (Option.some_inj.1 hform).symm, (h.patch.field hpatchSlot).2⟩

/-- So do all keys of a navigation. -/
theorem hop (hwell : m.catalogue.WellTyped) (hderived : m.catalogue.Derived)
    (halike : m.Alike patch original) {keys : List String} {put : Fields → Fields}
    (h : m.Hop patch original s keys innerPatch inner put s') : m.Alike innerPatch inner := by
  obtain ⟨hinner, -⟩ := h.typed hwell halike.original
  cases h with
  | object hpm hom hread htarget =>
    obtain ⟨patchSlot, hview, hform, htyped⟩ := halike.exists_slot hderived hpm hom hread htarget
    cases patchSlot <;> simp only [Slot.form, Form.object.injEq, reduceCtorEq] at hform
    subst hform
    simp only [Slot.view, View.object.injEq, Option.some_inj] at hview
    subst hview
    exact ⟨rfl, htyped, hinner⟩
  | optional hpm hom hread htarget =>
    obtain ⟨patchSlot, hview, hform, htyped⟩ := halike.exists_slot hderived hpm hom hread htarget
    cases patchSlot <;> simp only [Slot.form, Form.optional.injEq, reduceCtorEq] at hform
    subst hform
    simp only [Slot.view, View.object.injEq] at hview
    obtain ⟨present, rfl, rfl⟩ := Option.map_eq_some_iff.1 hview
    exact ⟨rfl, htyped.present present rfl, hinner⟩
  | entry hpm hom hread htarget hpatch =>
    obtain ⟨patchSlot, hview, hform, htyped⟩ := halike.exists_slot hderived hpm hom hread htarget
    cases patchSlot <;> simp only [Slot.form, Form.dictionary.injEq, reduceCtorEq] at hform
    subst hform
    simp only [Slot.view, View.dictionary.injEq] at hview
    obtain ⟨rfl, rfl⟩ := hview
    exact ⟨rfl, htyped.entry hpatch, hinner⟩

/-- The items of a collection are of one type in both objects. -/
theorem collection (hderived : m.catalogue.Derived) (h : m.Alike patch original)
    (hpm : m.member? patch name = some pm) (hom : m.member? original name = some om)
    {patchType type : TypeName} {patchItems items : List Fields}
    (hread : patch.read? pm = some (.collection patchType patchItems))
    (htarget : original.target? om = some (i, .collection type items)) :
    patchType = type ∧ Typed m.catalogue (.collection patchType patchItems) := by
  obtain ⟨patchSlot, hview, hform, htyped⟩ := h.exists_slot hderived hpm hom hread htarget
  cases patchSlot <;> simp only [Slot.form, Form.collection.injEq, reduceCtorEq] at hform
  subst hform
  simp only [Slot.view, View.collection.injEq] at hview
  obtain ⟨rfl, rfl⟩ := hview
  exact ⟨rfl, htyped⟩

end Alike

end Merger

end SelectiveMerge
