import SelectiveMerge.Proofs.Lookup
import SelectiveMerge.Proofs.Typing

/-!
# Complete objects

An object is complete when it has all the fields that its type declares, each of the form
that is declared, and when the objects that it holds are complete in turn. Unlike objects
that are only typed, complete ones have something at each of their members. A merge of
complete objects keeps them complete, overrides included, as long as these do.

* `Complete` — a slot holds complete objects only
* `Merger.KeepsComplete` — what overrides make of complete objects is complete
* `Hop.complete` — a navigation leads from complete objects to complete objects
* `runsComplete` — a list of directives keeps objects complete
-/

namespace SelectiveMerge

/-- All objects that a slot holds have the fields that their types declare. -/
inductive Complete (c : Catalogue) : Slot → Prop where
  | leaf {type : LeafType} {value : Cell} : Complete c (.leaf type value)
  | leafDictionary {type : LeafType} {entries : List (String × Cell)} :
      Complete c (.leafDictionary type entries)
  | object {type : TypeName} {fields : Fields}
      (hforms : fields.map Slot.form = (c type).initialFields.map Slot.form)
      (hfields : ∀ (i : Nat) slot, fields[i]? = some slot → Complete c slot) :
      Complete c (.object type fields)
  | missing {type : TypeName} : Complete c (.optional type none)
  | optional {type : TypeName} {fields : Fields} (hpresent : Complete c (.object type fields)) :
      Complete c (.optional type (some fields))
  | collection {type : TypeName} {items : List Fields}
      (hitems : ∀ item ∈ items, Complete c (.object type item)) :
      Complete c (.collection type items)
  | dictionary {type : TypeName} {entries : List (String × Fields)}
      (hentries : ∀ key fields, Dictionary.find? key entries = some fields →
        Complete c (.object type fields)) :
      Complete c (.dictionary type entries)

/-- An object with all its fields. -/
def Node.Complete (n : Node) (c : Catalogue) : Prop :=
  SelectiveMerge.Complete c (.object n.type n.fields)

namespace Complete

variable {c : Catalogue}

theorem form? {type : TypeName} {fields : Fields} (h : Complete c (.object type fields))
    (i : Nat) : c.form? type i = (fields[i]?).map Slot.form := by
  cases h with
  | object hforms =>
    rw [Catalogue.form?, ← List.getElem?_map, ← hforms, List.getElem?_map]

theorem field {type : TypeName} {fields : Fields} {i : Nat} {slot : Slot}
    (h : Complete c (.object type fields)) (hslot : fields[i]? = some slot) : Complete c slot := by
  cases h with
  | object _ hfields => exact hfields i slot hslot

theorem present {type : TypeName} {present : Option Fields}
    (h : Complete c (.optional type present)) (fields : Fields) (hpresent : present = some fields) :
    Complete c (.object type fields) := by
  subst hpresent
  cases h with
  | optional hpresent => exact hpresent

theorem entry {type : TypeName} {entries : List (String × Fields)} {key : String}
    {fields : Fields} (h : Complete c (.dictionary type entries))
    (hfind : Dictionary.find? key entries = some fields) : Complete c (.object type fields) := by
  cases h with
  | dictionary hentries => exact hentries key fields hfind

theorem item {type : TypeName} {items : List Fields} {fields : Fields}
    (h : Complete c (.collection type items)) (hitem : fields ∈ items) :
    Complete c (.object type fields) := by
  cases h with
  | collection hitems => exact hitems fields hitem

/-- An object stays complete when a field gets another content of its form. -/
theorem set {type : TypeName} {fields : Fields} {i : Nat} {old new : Slot}
    (h : Complete c (.object type fields)) (hold : fields[i]? = some old)
    (hform : new.form = old.form) (hnew : Complete c new) :
    Complete c (.object type (fields.set i new)) := by
  cases h with
  | object hforms hfields =>
    refine .object ?_ fun j slot hslot => ?_
    · rw [List.map_set, hform, ← hforms]
      exact set_eq_self (by rw [List.getElem?_map, hold, Option.map_some])
    · rcases List.mem_or_eq_of_mem_set (List.mem_of_getElem? hslot) with hslot | rfl
      · obtain ⟨k, hk⟩ := List.getElem?_of_mem hslot
        exact hfields k slot hk
      · exact hnew

theorem insert {type : TypeName} {entries : List (String × Fields)} {key : String}
    {made : Fields} (h : Complete c (.dictionary type entries))
    (hmade : Complete c (.object type made)) :
    Complete c (.dictionary type (Dictionary.insert key made entries)) := by
  refine .dictionary fun other fields hfind => ?_
  rw [Dictionary.find?_insert] at hfind
  split at hfind
  · obtain rfl := Option.some_inj.1 hfind
    exact hmade
  · exact h.entry hfind

end Complete

namespace Merger

open Run (Succeeds)

/-- What objects of all types hold at first is complete, and what overrides make of complete
objects is complete. -/
structure KeepsComplete (m : Merger) : Prop where
  initial : ∀ type, Complete m.catalogue (.object type (m.catalogue type).initialFields)
  action : ∀ {full : Path} {action : SetAction} {original patch : Node} {fields : Fields},
    m.configuration.setAction? full = some action → patch.Complete m.catalogue →
    original.Complete m.catalogue → action original patch = .ok fields →
    Complete m.catalogue (.object original.type fields)
  factory : ∀ {full : Path} {make : ItemFactory} {patchItem item : Node},
    m.configuration.itemFactory? full = some make → patchItem.Complete m.catalogue →
    make patchItem = .ok item → item.Complete m.catalogue

variable {m : Merger} {s s' : Session}

/-- Without overrides nothing is asked of them. -/
theorem KeepsComplete.of_empty (hempty : m.configuration = .empty)
    (hinitial : ∀ type, Complete m.catalogue (.object type (m.catalogue type).initialFields)) :
    m.KeepsComplete where
  initial := hinitial
  action := by
    intro full action original patch fields haction
    rw [hempty] at haction
    cases haction
  factory := by
    intro full make patchItem item hmake
    rw [hempty] at hmake
    cases hmake

/-! ## Members and navigation -/

/-- What a member of a complete object shows is a complete slot of the declared form. -/
theorem exists_complete_of_read? {n : Node} (hn : n.Complete m.catalogue) {name : String}
    {member : Member} {view : View} (hmember : m.member? n name = some member)
    (hread : n.read? member = some view) :
    ∃ i slot, m.number? Member.reads n.type name = some i ∧
      m.catalogue.form? n.type i = some slot.form ∧ slot.view = view ∧
      Complete m.catalogue slot := by
  obtain ⟨i, slot, hreads, hslot, hview⟩ := Node.read?_eq_some.1 hread
  refine ⟨i, slot, ?_, ?_, hview, hn.field hslot⟩
  · have hmember : (m.catalogue n.type).table.find? name m.options.ignoreCase = some member :=
      hmember
    rw [number?, hmember, Option.bind_some, hreads]
  · rw [hn.form? i, hslot, Option.map_some]

/-- An object that a complete one shows is complete. -/
theorem complete_of_read?_object {n p : Node} (hn : n.Complete m.catalogue) {name : String}
    {member : Member} (hmember : m.member? n name = some member)
    (hread : n.read? member = some (.object (some p))) : p.Complete m.catalogue := by
  obtain ⟨_, slot, -, -, hview, hcomplete⟩ := exists_complete_of_read? hn hmember hread
  cases slot <;> simp only [Slot.view, View.object.injEq, Option.some_inj, reduceCtorEq] at hview
  · obtain rfl := hview
    exact hcomplete
  · obtain ⟨present, rfl, rfl⟩ := Option.map_eq_some_iff.1 hview
    exact hcomplete.present present rfl

/-- So are the items of a collection that it shows. -/
theorem complete_of_read?_collection {n : Node} (hn : n.Complete m.catalogue) {name : String}
    {member : Member} {type : TypeName} {items : List Fields}
    (hmember : m.member? n name = some member)
    (hread : n.read? member = some (.collection type items)) :
    Complete m.catalogue (.collection type items) := by
  obtain ⟨_, slot, -, -, hview, hcomplete⟩ := exists_complete_of_read? hn hmember hread
  cases slot <;> simp only [Slot.view, View.collection.injEq, reduceCtorEq] at hview
  obtain ⟨rfl, rfl⟩ := hview
  exact hcomplete

theorem complete_of_item? {type : TypeName} {items : List Fields} {i : Nat} {n : Node}
    (hitems : Complete m.catalogue (.collection type items))
    (h : Collection.item? type items i = some n) : n.Complete m.catalogue := by
  obtain ⟨fields, hfields, rfl⟩ := Option.map_eq_some_iff.1 h
  exact hitems.item (List.mem_of_getElem? hfields)

theorem complete_of_itemWithId? {type : TypeName} {items : List Fields} {id : Uuid} {n : Node}
    (hitems : Complete m.catalogue (.collection type items))
    (h : m.catalogue.itemWithId? type items id = some n) : n.Complete m.catalogue := by
  obtain ⟨fields, hfields, rfl⟩ := Option.map_eq_some_iff.1 h
  obtain ⟨i, -, hi⟩ := Option.bind_eq_some_iff.1 hfields
  exact hitems.item (List.mem_of_getElem? hi)

section

variable (hm : m.KeepsComplete)

include hm

theorem Makes.complete {type : TypeName} {fields : Fields} (h : m.Makes type s fields s') :
    Complete m.catalogue (.object type fields) := by
  rcases h.eq_or_exists_set with rfl | ⟨i, id, hslot, rfl⟩
  · exact hm.initial type
  · exact (hm.initial type).set hslot rfl .leaf

/-- What was found is complete by assumption, what was not is made. -/
theorem Ensures.complete {type : TypeName} {found : Option Fields} {fields : Fields}
    (h : m.Ensures type s found fields s')
    (hfound : ∀ f, found = some f → Complete m.catalogue (.object type f)) :
    Complete m.catalogue (.object type fields) := by
  cases h with
  | found => exact hfound fields rfl
  | made hmade => exact hmade.complete hm

theorem Assigns.complete {full : Path} {patch original : Node} {name : String} {fields : Fields}
    (hpatch : patch.Complete m.catalogue) (horiginal : original.Complete m.catalogue)
    (h : m.Assigns full patch original name s fields s') :
    Complete m.catalogue (.object original.type fields) := by
  cases h with
  | identity => exact horiginal
  | custom _ haction hrun => exact hm.action haction hpatch horiginal hrun
  | leaf _ _ _ _ _ _ _ _ htarget =>
    exact horiginal.set (Node.target?_eq_some.1 htarget).2 rfl .leaf
  | unset _ _ _ _ _ _ _ htarget =>
    exact horiginal.set (Node.target?_eq_some.1 htarget).2 rfl .missing

/-- Behind a hop there are complete objects, and one that is put back in its place leaves the
outer one complete. -/
theorem Hop.complete {patch original innerPatch inner : Node} {keys : List String}
    {put : Fields → Fields} (hpatch : patch.Complete m.catalogue)
    (horiginal : original.Complete m.catalogue)
    (h : m.Hop patch original s keys innerPatch inner put s') :
    innerPatch.Complete m.catalogue ∧ inner.Complete m.catalogue ∧
      ∀ made, Complete m.catalogue (.object inner.type made) →
        Complete m.catalogue (.object original.type (put made)) := by
  cases h with
  | object hpm _ hread htarget =>
    have hslot := (Node.target?_eq_some.1 htarget).2
    exact ⟨complete_of_read?_object hpatch hpm hread, horiginal.field hslot,
      fun made hmade => horiginal.set hslot rfl hmade⟩
  | optional hpm _ hread htarget hensure =>
    have hslot := (Node.target?_eq_some.1 htarget).2
    exact ⟨complete_of_read?_object hpatch hpm hread,
      hensure.complete hm (horiginal.field hslot).present,
      fun made hmade => horiginal.set hslot rfl (.optional hmade)⟩
  | entry hpm _ hread htarget hfind hensure =>
    have hslot := (Node.target?_eq_some.1 htarget).2
    have hentries := horiginal.field hslot
    obtain ⟨_, slot, -, -, hview, hcomplete⟩ := exists_complete_of_read? hpatch hpm hread
    refine ⟨?_, hensure.complete hm fun f hf => hentries.entry hf,
      fun made hmade => horiginal.set hslot rfl (hentries.insert hmade)⟩
    cases slot <;> simp only [Slot.view, View.dictionary.injEq, reduceCtorEq] at hview
    obtain ⟨rfl, rfl⟩ := hview
    exact hcomplete.entry hfind

/-- A navigation keeps objects complete when its visitor does. -/
theorem Visits.complete {full : Path}
    {act : Node → Node → String → Session → Fields → Session → Prop}
    (hact : ∀ {p o : Node} {name : String} {s s' : Session} {f : Fields},
      p.Complete m.catalogue → o.Complete m.catalogue → act p o name s f s' →
      Complete m.catalogue (.object o.type f))
    {rest : List String} {patch original : Node} {fields : Fields}
    (hpatch : patch.Complete m.catalogue) (horiginal : original.Complete m.catalogue)
    (h : m.Visits full act rest patch original s fields s') :
    Complete m.catalogue (.object original.type fields) := by
  induction h with
  | member h => exact hact hpatch horiginal h
  | entry _ _ _ htarget =>
    exact horiginal.set (Node.target?_eq_some.1 htarget).2 rfl .leafDictionary
  | hop hhop _ _ ih =>
    obtain ⟨hinnerPatch, hinner, hput⟩ := hhop.complete hm hpatch horiginal
    exact hput _ (ih hinnerPatch hinner)

end

/-! ## Collections -/

/-- A list of directives keeps objects complete. -/
def RunsComplete (m : Merger) (directives : List Directive) : Prop :=
  ∀ {base : List String} {patch : Node} {type : TypeName} {fields made : Fields}
    {s s' : Session}, patch.Complete m.catalogue → Complete m.catalogue (.object type fields) →
    Succeeds (runDirectives m base patch type directives fields) s made s' →
    Complete m.catalogue (.object type made)

section

variable (hm : m.KeepsComplete)

include hm

theorem MakesItem.complete {r : Reconciliation} {patchItem item : Node}
    (hpatchItem : patchItem.Complete m.catalogue) (h : m.MakesItem r patchItem s item s') :
    item.Complete m.catalogue := by
  cases h with
  | factory hmake hrun => exact hm.factory hmake hpatchItem hrun
  | construct _ hmade => exact hmade.complete hm

theorem ElementStep.complete {r : Reconciliation} {position : Nat}
    {members : List (String × Json)} {directives : List Directive} {state state' : Reconciled}
    (hdirectives : m.RunsComplete directives)
    (hpatch : Complete m.catalogue (.collection r.patchType r.patchItems))
    (h : m.ElementStep r position members directives state s state' s')
    (hstate : Complete m.catalogue (.collection r.type state.items)) :
    Complete m.catalogue (.collection r.type state'.items) := by
  cases h with
  | add _ hitem hfresh htype hrun =>
    have hpatchItem := complete_of_item? hpatch hitem
    refine .collection fun item hitem => ?_
    rcases List.mem_append.1 hitem with hitem | hitem
    · exact hstate.item hitem
    · obtain rfl := List.mem_singleton.1 hitem
      rw [← htype]
      exact hdirectives hpatchItem (hfresh.complete hm hpatchItem) hrun
  | update _ _ hitem hfind hrun =>
    have hnew := hdirectives (complete_of_itemWithId? hpatch hfind)
      (hstate.item (List.mem_of_getElem? hitem)) hrun
    refine .collection fun item hitem => ?_
    rcases List.mem_or_eq_of_mem_set hitem with hitem | rfl
    · exact hstate.item hitem
    · exact hnew
  | remove =>
    exact .collection fun item hitem => hstate.item (List.mem_of_mem_eraseIdx hitem)

theorem ElementsRun.complete {r : Reconciliation} {position : Nat} {elements : List Element}
    {state state' : Reconciled} (hdirectives : ∀ e ∈ elements, m.RunsComplete e.directives)
    (hpatch : Complete m.catalogue (.collection r.patchType r.patchItems))
    (h : m.ElementsRun r position elements state s state' s')
    (hstate : Complete m.catalogue (.collection r.type state.items)) :
    Complete m.catalogue (.collection r.type state'.items) := by
  induction h with
  | nil => exact hstate
  | cons hstep _ ih =>
    have hmid := hstep.complete hm (hdirectives _ (List.mem_cons_self ..)) hpatch hstate
    exact ih (fun e he => hdirectives e (List.mem_cons_of_mem _ he)) hmid

theorem Reconciles.complete {full : Path} {node : Json} {elements : List Element}
    {patch original : Node} {pm om : Member} {fields : Fields} {name : String}
    (hdirectives : ∀ e ∈ elements, m.RunsComplete e.directives)
    (hpm : m.member? patch name = some pm) (hpatch : patch.Complete m.catalogue)
    (horiginal : original.Complete m.catalogue)
    (h : m.Reconciles full node elements patch original pm om s fields s') :
    Complete m.catalogue (.object original.type fields) := by
  cases h with
  | ignored => exact horiginal
  | @run _ type _ _ items _ found left _ _ _ _ state hread _ htarget hclears hrun hdrops =>
    have hslot := (Node.target?_eq_some.1 htarget).2
    have hitems := horiginal.field hslot
    have hpatchItems := complete_of_read?_collection hpatch hpm hread
    have hfound : Complete m.catalogue (.collection type found) := by
      cases hclears with
      | kept => exact hitems
      | cleared | empty => exact .collection (by simp)
    have hstate := hrun.complete hm hdirectives hpatchItems hfound
    refine horiginal.set hslot rfl (.collection fun item hitem => ?_)
    cases hdrops with
    | kept => exact hstate.item hitem
    | dropped _ hdrop => exact hstate.item (hdrop.sublist.subset hitem)

theorem ArrayAssigns.complete {full : Path} {node : Json} {elements : List Element}
    {patch original : Node} {name : String} {fields : Fields}
    (hdirectives : ∀ e ∈ elements, m.RunsComplete e.directives)
    (hpatch : patch.Complete m.catalogue) (horiginal : original.Complete m.catalogue)
    (h : m.ArrayAssigns full node elements patch original name s fields s') :
    Complete m.catalogue (.object original.type fields) := by
  cases h with
  | identity => exact horiginal
  | emptied _ _ _ _ _ _ _ htarget =>
    exact horiginal.set (Node.target?_eq_some.1 htarget).2 rfl .leaf
  | assigned _ _ _ _ _ hassign => exact hassign.complete hm hpatch horiginal
  | reconciled _ hpm _ _ hreconcile =>
    exact hreconcile.complete hm hdirectives hpm hpatch horiginal

/-! ## Directives -/

theorem DirectiveStep.complete {base : List String} {patch original : Node}
    {directive : Directive} {fields : Fields}
    (hdirectives : ∀ e ∈ directive.arrayElements, m.RunsComplete e.directives)
    (hpatch : patch.Complete m.catalogue) (horiginal : original.Complete m.catalogue)
    (h : m.DirectiveStep base patch original directive s fields s') :
    Complete m.catalogue (.object original.type fields) := by
  cases h with
  | identity => exact horiginal
  | scalar _ hvisit =>
    exact hvisit.complete hm (fun hp ho hact => Assigns.complete hm hp ho hact) hpatch horiginal
  | array hvisit =>
    exact hvisit.complete hm
      (fun hp ho hact => ArrayAssigns.complete hm hdirectives hp ho hact) hpatch horiginal

/-- Every list of directives keeps objects complete. -/
theorem runsComplete (directives : List Directive) : m.RunsComplete directives := by
  induction directives using Directive.forall_of_elements with
  | nil =>
    intro base patch type fields made s s' _ hfields h
    obtain ⟨rfl, -⟩ := succeeds_runDirectives_nil.1 h
    exact hfields
  | cons directive directives hdirective ih =>
    intro base patch type fields made s s' hpatch hfields h
    obtain ⟨mid, t, hhead, htail⟩ := succeeds_runDirectives_cons.1 h
    have horiginal : Node.Complete ⟨type, fields⟩ m.catalogue := hfields
    have hmid := (DirectiveStep.of_runDirective hhead).complete hm hdirective hpatch horiginal
    exact ih hpatch hmid htail

end

end Merger

end SelectiveMerge
