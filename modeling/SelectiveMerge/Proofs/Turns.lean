import SelectiveMerge.Proofs.Completeness
import SelectiveMerge.Proofs.Stops

/-!
# The turns of directives

A merge takes the directives of its payload in turn, and where an array comes to a
collection, those of its elements. This module says which turns a merge comes to, whether
it succeeds in the end or not: the turn of a directive is come to when all directives before
it have succeeded, and so have all elements before the ones that it is inside of.

* `Outset`, `Turn` — a walk at its start, and the turn of a directive in it
* `Merger.Proceeds` — how far a navigation gets, as the number of segments that it passed
* `Turn.AtElement`, `Turn.Enters` — an element of an array, and the walk over it
* `Merger.ComesTo` — the turns that a walk comes to, at any depth
* `Terminal`, `Merger.ComesTo.terminal` — each turn is about a terminal of the payload
* `Merger.ComesTo.complete` — the objects of all turns are complete
-/

namespace SelectiveMerge

open Run (Succeeds)

/-! ## Terminals -/

/-- The terminals of an object of a payload are the values that are no objects. Their path
is made of the keys that lead to them; inside an element of an array it goes on from the
path of the array. -/
inductive Terminal (options : Options) :
    List (String × Json) → (path : List String) → (value : Json) → Prop where
  | key {members : List (String × Json)} {path : List String} {value : Json}
      (hleads : Leads options (.object members) path value) : Terminal options members path value
  | element {members inner : List (String × Json)} {path rest : List String} {items : List Json}
      {value : Json} (hleads : Leads options (.object members) path (.array items))
      (hitem : .object inner ∈ items) (hinner : Terminal options inner rest value) :
      Terminal options members (path ++ rest) value

/-- No keys lead from an object to a value that is no object but some. -/
theorem Leads.path_ne_nil {options : Options} {members : List (String × Json)}
    {path : List String} {value : Json} (h : Leads options (.object members) path value) :
    path ≠ [] := by
  rintro rfl
  cases h with
  | here hvalue => cases hvalue

/-- The elements of the array that a directive stands for are those of its items that are
objects. -/
theorem Directive.of_getElem?_elements {options : Options} {items : List Json} {position : Nat}
    {members : List (String × Json)} {directives : List Directive}
    (h : (Directive.elements options items)[position]? = some (.mk (.object members) directives)) :
    .object members ∈ items ∧ directives = Directive.ofMembers options members := by
  rw [Directive.elements_eq_map, List.getElem?_map] at h
  obtain ⟨item, hitem, heq⟩ := Option.map_eq_some_iff.1 h
  obtain ⟨rfl, rfl⟩ := Element.mk.inj heq
  exact ⟨List.mem_of_getElem? hitem, rfl⟩

/-! ## Walks and turns -/

/-- A walk over directives at its start: the path in front of their keys, the two objects that
they are about, and the record. -/
structure Outset where
  base : List String
  patch : Node
  original : Node
  directives : List Directive
  session : Session

/-- The turn of a directive in a walk, with the original and the record as they are by
then. -/
structure Turn where
  base : List String
  patch : Node
  original : Node
  directive : Directive
  session : Session

/-- The walk of a whole merge. -/
def Merger.outset (m : Merger) (patch original : Node) (payload : Json) (minted : Nat) : Outset :=
  ⟨[], patch, original, Directive.ofItem m.options payload, Session.start minted⟩

/-- The walk ends well, with new fields for its original. -/
def Outset.Ends (w : Outset) (m : Merger) (made : Fields) (s : Session) : Prop :=
  Succeeds (m.runDirectives w.base w.patch w.original.type w.directives w.original.fields)
    w.session made s

/-- The full path of the terminal that a turn is about. -/
def Turn.full (turn : Turn) : Path := ⟨turn.base ++ turn.directive.path⟩

/-- The turns of the directives of a walk: those before have succeeded. -/
inductive Outset.HasTurn (w : Outset) (m : Merger) : Turn → Prop where
  | intro {earlier later : List Directive} {directive : Directive} {fields : Fields}
      {s : Session} (hsplit : w.directives = earlier ++ directive :: later)
      (hearlier : Succeeds
        (m.runDirectives w.base w.patch w.original.type earlier w.original.fields) w.session
        fields s) :
      HasTurn w m ⟨w.base, w.patch, ⟨w.original.type, fields⟩, directive, s⟩

namespace Merger

variable {m : Merger} {s s' t : Session} {patch original p o : Node} {path : List String}
  {index : Nat}

/-! ## How far a navigation gets -/

/-- A navigation along a path gets as far as to two objects, with so many segments passed. It
goes on as long as there are segments left behind the hop. -/
inductive Proceeds (m : Merger) : (path : List String) → (patch original : Node) → Session →
    (index : Nat) → (p o : Node) → Session → Prop where
  | start {path : List String} {patch original : Node} {s : Session} :
      Proceeds m path patch original s 0 patch original s
  | hop {keys rest : List String} {patch original innerPatch inner p o : Node} {s t u : Session}
      {put : Fields → Fields} {index : Nat}
      (hhop : m.Hop patch original s keys innerPatch inner put t) (hrest : rest ≠ [])
      (hproceeds : Proceeds m rest innerPatch inner t index p o u) :
      Proceeds m (keys ++ rest) patch original s (keys.length + index) p o u

/-- There is always a segment left where a navigation gets to. -/
theorem Proceeds.lt_length (h : m.Proceeds path patch original s index p o s')
    (hpath : path ≠ []) : index < path.length := by
  induction h with
  | start => exact List.length_pos_iff.2 hpath
  | hop _ hrest _ ih =>
    have hlt := ih hrest
    rw [List.length_append]
    omega

/-- A navigation that arrives at the owners of a member has got there. -/
theorem Arrives.proceeds {last : List String} {put : Fields → Fields}
    (h : m.Arrives path patch original s p o last put s') :
    ∃ index, m.Proceeds path patch original s index p o s' ∧ path.drop index = last := by
  induction h with
  | member => exact ⟨0, .start, rfl⟩
  | entry => exact ⟨0, .start, rfl⟩
  | @hop keys rest _ _ _ _ _ _ _ _ _ _ _ _ hhop hrest _ ih =>
    obtain ⟨index, hproceeds, hdrop⟩ := ih
    refine ⟨keys.length + index, .hop hhop hrest hproceeds, ?_⟩
    rw [← hdrop, ← List.drop_drop, List.drop_left]

/-- A navigation takes nothing but identities. -/
theorem Proceeds.eq_minted (h : m.Proceeds path patch original s index p o s') :
    ∃ minted, s' = { s with minted } := by
  induction h with
  | start => exact ⟨_, rfl⟩
  | hop hhop _ _ ih =>
    obtain ⟨minted, rfl⟩ := hhop.eq_minted
    obtain ⟨minted', rfl⟩ := ih
    exact ⟨minted', rfl⟩

theorem Proceeds.complete (hm : m.KeepsComplete) (hpatch : patch.Complete m.catalogue)
    (horiginal : original.Complete m.catalogue)
    (h : m.Proceeds path patch original s index p o s') :
    p.Complete m.catalogue ∧ o.Complete m.catalogue := by
  induction h with
  | start => exact ⟨hpatch, horiginal⟩
  | hop hhop _ _ ih =>
    obtain ⟨hinnerPatch, hinner, -⟩ := hhop.complete hm hpatch horiginal
    exact ih hinnerPatch hinner

/-- The items that a collection holds when its first element is run are complete. -/
theorem Clears.complete {full : Path} {node : Json} {om : Member} {clears : Bool}
    {type : TypeName} {items found : List Fields}
    (hitems : Complete m.catalogue (.collection type items))
    (h : m.Clears full node p o om clears items s found s') :
    Complete m.catalogue (.collection type found) := by
  cases h with
  | kept => exact hitems
  | cleared | empty => exact .collection (by simp)

/-- How many segments it takes to go from what a member shows into what another one is written
to: the names of dictionaries are followed by a key. -/
def stride : Option View → Option (Nat × Slot) → Nat
  | some (.dictionary ..), some (_, .dictionary ..) => 2
  | some (.leafDictionary ..), some (_, .leafDictionary ..) => 2
  | _, _ => 1

theorem stride_none_left (slot : Option (Nat × Slot)) : stride none slot = 1 := rfl

theorem stride_none_right (view : Option View) : stride view none = 1 := by
  cases view with
  | none => rfl
  | some view => cases view <;> rfl

theorem stride_pos (view : Option View) (slot : Option (Nat × Slot)) : 0 < stride view slot := by
  unfold stride
  split <;> omega

theorem stride_le_two (view : Option View) (slot : Option (Nat × Slot)) : stride view slot ≤ 2 := by
  unfold stride
  split <;> omega

/-- Only two dictionaries take two segments. -/
theorem stride_eq_one {view : View} {i : Nat} {slot : Slot}
    (hdictionary : ∀ patchType patchEntries type entries,
      view = .dictionary patchType patchEntries → slot = .dictionary type entries → False)
    (hleaves : ∀ patchType patchEntries type entries,
      view = .leafDictionary patchType patchEntries → slot = .leafDictionary type entries → False) :
    stride (some view) (some (i, slot)) = 1 := by
  unfold stride
  split
  · rename_i hview hslot
    cases hview
    cases hslot
    exact (hdictionary _ _ _ _ rfl rfl).elim
  · rename_i hview hslot
    cases hview
    cases hslot
    exact (hleaves _ _ _ _ rfl rfl).elim
  · rfl

/-- How many segments it takes to go through the members with a name. -/
def span (m : Merger) (p o : Node) (name : String) : Nat :=
  stride ((m.member? p name).bind p.read?) ((m.member? o name).bind o.target?)

theorem span_pos (m : Merger) (p o : Node) (name : String) : 0 < m.span p o name := stride_pos _ _

theorem span_le_two (m : Merger) (p o : Node) (name : String) : m.span p o name ≤ 2 :=
  stride_le_two _ _

/-- There is no hop along the segments that are left which leads on. -/
def Stuck (m : Merger) (p o : Node) (s : Session) (rest : List String) : Prop :=
  ∀ keys later innerPatch inner put t, rest = keys ++ later → later ≠ [] →
    ¬ m.Hop p o s keys innerPatch inner put t

end Merger

/-! ## Elements -/

namespace Turn

variable {m : Merger} {turn : Turn} {w : Outset}

/-- The turn of an array comes to one of its elements, an object with these members: the array
is about a collection, which is cleared if need be, and the elements before this one have
succeeded. -/
inductive AtElement (m : Merger) (turn : Turn) : Reconciliation → (position : Nat) →
    (members : List (String × Json)) → (directives : List Directive) → Reconciled → Session →
    Prop where
  | intro {path : List String} {elements : List Element} {p o : Node} {index position i : Nat}
      {s t u : Session} {name : String} {pm om : Member} {patchType type readType : TypeName}
      {patchItems items readItems found : List Fields} {state : Reconciled}
      {members : List (String × Json)} {directives : List Directive}
      (hdirective : turn.directive = .array path elements)
      (hproceeds : m.Proceeds path turn.patch turn.original turn.session index p o s)
      (hlast : path.drop index = [name]) (hid : isIdentityKey name = false)
      (hpm : m.member? p name = some pm) (hom : m.member? o name = some om)
      (hkind : om.kind = .collection)
      (hpatch : p.read? pm = some (.collection patchType patchItems))
      (hread : o.read? om = some (.collection readType readItems))
      (htarget : o.target? om = some (i, .collection type items))
      (hclears : m.Clears turn.full (.array (elements.map Element.value)) p o om
        (!(m.catalogue readType).identified &&
          (elements.isEmpty || m.configuration.forcesReplace turn.full)) items s found t)
      (hearlier : m.ElementsRun ⟨turn.full, om.name, patchType, patchItems, type⟩ 0
        (elements.take position) ⟨found, []⟩ t state u)
      (helement : elements[position]? = some (.mk (.object members) directives)) :
      AtElement m turn ⟨turn.full, om.name, patchType, patchItems, type⟩ position members
        directives state u

/-- The turn of an array enters the walk over one of its elements: one that updates an item,
or one that adds an item, which is made and then populated. -/
inductive Enters (m : Merger) (turn : Turn) : Outset → Prop where
  | update {r : Reconciliation} {position index : Nat} {members : List (String × Json)}
      {directives : List Directive} {state : Reconciled} {s : Session} {id : Uuid}
      {item : Fields} {patchItem : Node}
      (hat : turn.AtElement m r position members directives state s)
      (hintent : Intent.ofMembers m.options r.full members = .ok (.update id))
      (hindex : m.catalogue.position? r.type state.items id = some index)
      (hitem : state.items[index]? = some item)
      (hpatch : m.catalogue.itemWithId? r.patchType r.patchItems id = some patchItem) :
      Enters m turn ⟨r.full.segments, patchItem, ⟨r.type, item⟩, directives, s⟩
  | add {r : Reconciliation} {position : Nat} {members : List (String × Json)}
      {directives : List Directive} {state : Reconciled} {s t : Session}
      {patchItem fresh : Node} (hat : turn.AtElement m r position members directives state s)
      (hintent : Intent.ofMembers m.options r.full members = .ok .add)
      (hpatch : Collection.item? r.patchType r.patchItems position = some patchItem)
      (hfresh : m.MakesItem r patchItem s fresh t) :
      Enters m turn ⟨r.full.segments, patchItem, fresh, directives,
        { t with populating := t.populating + 1 }⟩

theorem AtElement.full_eq {r : Reconciliation} {position : Nat} {members : List (String × Json)}
    {directives : List Directive} {state : Reconciled} {s : Session}
    (h : turn.AtElement m r position members directives state s) : r.full = turn.full := by
  cases h with
  | intro => rfl

/-- The directives of an element are among those of the array. -/
theorem AtElement.exists_element {r : Reconciliation} {position : Nat}
    {members : List (String × Json)} {directives : List Directive} {state : Reconciled}
    {s : Session} (h : turn.AtElement m r position members directives state s) :
    turn.directive.arrayElements[position]? = some (.mk (.object members) directives) := by
  cases h with
  | intro hdirective _ _ _ _ _ _ _ _ _ _ _ helement =>
    rw [hdirective]
    exact helement

/-- The walk over an element starts from the path of the array. -/
theorem Enters.exists_element (h : turn.Enters m w) :
    w.base = turn.full.segments ∧ ∃ (position : Nat) (members : List (String × Json)),
      turn.directive.arrayElements[position]? =
        some (Element.mk (.object members) w.directives) := by
  cases h with
  | update hat | add hat => exact ⟨congrArg Path.segments hat.full_eq, _, _, hat.exists_element⟩

section

variable (hm : m.KeepsComplete) (hpatch : turn.patch.Complete m.catalogue)
  (horiginal : turn.original.Complete m.catalogue)

include hm hpatch horiginal

theorem AtElement.complete {r : Reconciliation} {position : Nat}
    {members : List (String × Json)} {directives : List Directive} {state : Reconciled}
    {s : Session} (h : turn.AtElement m r position members directives state s) :
    Complete m.catalogue (.collection r.patchType r.patchItems) ∧
      Complete m.catalogue (.collection r.type state.items) := by
  cases h with
  | intro _ hproceeds _ _ hpm _ _ hread _ htarget hclears hearlier =>
    obtain ⟨hp, ho⟩ := hproceeds.complete hm hpatch horiginal
    have hpatchItems := Merger.complete_of_read?_collection hp hpm hread
    have hitems := ho.field (Node.target?_eq_some.1 htarget).2
    exact ⟨hpatchItems, hearlier.complete hm (fun e _ => Merger.runsComplete hm e.directives)
      hpatchItems (hclears.complete hitems)⟩

theorem Enters.complete (h : turn.Enters m w) :
    w.patch.Complete m.catalogue ∧ w.original.Complete m.catalogue := by
  cases h with
  | update hat _ _ hitem hfind =>
    obtain ⟨hpatchItems, hitems⟩ := hat.complete hm hpatch horiginal
    exact ⟨Merger.complete_of_itemWithId? hpatchItems hfind,
      hitems.item (List.mem_of_getElem? hitem)⟩
  | add hat _ hfind hfresh =>
    obtain ⟨hpatchItems, -⟩ := hat.complete hm hpatch horiginal
    have hpatchItem := Merger.complete_of_item? hpatchItems hfind
    exact ⟨hpatchItem, hfresh.complete hm hpatchItem⟩

end

end Turn

/-! ## The turns that a walk comes to -/

namespace Merger

variable {m : Merger} {w w' : Outset} {turn : Turn}

/-- The turns that a walk comes to: its own, and those of the walks that they enter. -/
inductive ComesTo (m : Merger) : Outset → Turn → Prop where
  | own {w : Outset} {turn : Turn} (hturn : w.HasTurn m turn) : ComesTo m w turn
  | inner {w w' : Outset} {turn turn' : Turn} (hturn : w.HasTurn m turn)
      (henters : turn.Enters m w') (hinner : ComesTo m w' turn') : ComesTo m w turn'

/-- The turn of the first directive of a walk. -/
theorem hasTurn_head {base : List String} {patch original : Node} {directive : Directive}
    {directives : List Directive} {s : Session} :
    Outset.HasTurn ⟨base, patch, original, directive :: directives, s⟩ m
      ⟨base, patch, original, directive, s⟩ :=
  @Outset.HasTurn.intro _ _ [] _ _ _ _ rfl (succeeds_runDirectives_nil.2 ⟨rfl, rfl⟩)

/-- The turns after the first directive are turns of the whole. -/
theorem hasTurn_tail {base : List String} {patch : Node} {type : TypeName}
    {directive : Directive} {directives : List Directive} {fields mid : Fields} {s t : Session}
    (hhead : Succeeds (m.runDirective base patch ⟨type, fields⟩ directive) s mid t)
    (h : Outset.HasTurn ⟨base, patch, ⟨type, mid⟩, directives, t⟩ m turn) :
    Outset.HasTurn ⟨base, patch, ⟨type, fields⟩, directive :: directives, s⟩ m turn := by
  cases h with
  | @intro earlier later next made u hsplit hearlier =>
    have hwhole : directive :: directives = (directive :: earlier) ++ next :: later := by
      rw [List.cons_append]
      exact congrArg (directive :: ·) hsplit
    exact .intro hwhole (succeeds_runDirectives_cons.2 ⟨mid, t, hhead, hearlier⟩)

theorem ComesTo.tail {base : List String} {patch : Node} {type : TypeName}
    {directive : Directive} {directives : List Directive} {fields mid : Fields} {s t : Session}
    (hhead : Succeeds (m.runDirective base patch ⟨type, fields⟩ directive) s mid t)
    (h : m.ComesTo ⟨base, patch, ⟨type, mid⟩, directives, t⟩ turn) :
    m.ComesTo ⟨base, patch, ⟨type, fields⟩, directive :: directives, s⟩ turn := by
  cases h with
  | own hturn => exact .own (hasTurn_tail hhead hturn)
  | inner hturn henters hinner => exact .inner (hasTurn_tail hhead hturn) henters hinner

/-- The turns of a walk over an object of a payload are about the values that keys of the object
lead to. -/
theorem hasTurn_leads {members : List (String × Json)} (h : w.HasTurn m turn)
    (hdirectives : w.directives = Directive.ofMembers m.options members) :
    turn.base = w.base ∧ ∃ path value, Leads m.options (.object members) path value ∧
      turn.directive = Directive.ofValue m.options path value := by
  cases h with
  | @intro earlier later directive fields s hsplit hearlier =>
    refine ⟨rfl, Directive.mem_ofMembers_iff.1 ?_⟩
    rw [← hdirectives, hsplit]
    exact List.mem_append_right _ (List.mem_cons_self ..)

/-- A turn of such a walk that enters another one is about an array, of which the other walk
takes an object. -/
theorem enters_leads {members : List (String × Json)} (hturn : w.HasTurn m turn)
    (henters : turn.Enters m w')
    (hdirectives : w.directives = Directive.ofMembers m.options members) :
    ∃ path items inner, Leads m.options (.object members) path (.array items) ∧
      .object inner ∈ items ∧ w'.base = w.base ++ path ∧
      w'.directives = Directive.ofMembers m.options inner := by
  obtain ⟨hbase, path, value, hleads, hdirective⟩ := hasTurn_leads hturn hdirectives
  obtain ⟨hfull, position, inner, helement⟩ := henters.exists_element
  rw [hdirective] at helement
  cases value with
  | array items =>
    obtain ⟨hitem, hinner⟩ := Directive.of_getElem?_elements helement
    refine ⟨path, items, inner, hleads, hitem, ?_, hinner⟩
    rw [hfull, Turn.full, hbase, hdirective, Directive.path_ofValue]
  | _ => cases helement

/-- Each turn that a walk over an object of a payload comes to is about a terminal of the object,
and its path is that of the terminal, behind the path of the walk. -/
theorem ComesTo.terminal (h : m.ComesTo w turn) :
    ∀ {members : List (String × Json)}, w.directives = Directive.ofMembers m.options members →
    ∃ path, turn.full.segments = w.base ++ path ∧
      Terminal m.options members path turn.directive.node := by
  induction h with
  | own hturn =>
    intro members hdirectives
    obtain ⟨hbase, path, value, hleads, hdirective⟩ := hasTurn_leads hturn hdirectives
    refine ⟨path, ?_, ?_⟩
    · rw [Turn.full, hbase, hdirective, Directive.path_ofValue]
    · rw [hdirective, Directive.node_ofValue]
      exact .key hleads
  | inner hturn henters _ ih =>
    intro members hdirectives
    obtain ⟨path, items, inner, hleads, hitem, hbase, hinner⟩ :=
      enters_leads hturn henters hdirectives
    obtain ⟨rest, hrest, hterminal⟩ := ih hinner
    refine ⟨path ++ rest, ?_, .element hleads hitem hterminal⟩
    rw [hrest, hbase, List.append_assoc]

/-- The path of its directive has a segment at least. -/
theorem ComesTo.path_ne_nil (h : m.ComesTo w turn) :
    ∀ {members : List (String × Json)}, w.directives = Directive.ofMembers m.options members →
    turn.directive.path ≠ [] := by
  induction h with
  | own hturn =>
    intro members hdirectives
    obtain ⟨-, path, value, hleads, hdirective⟩ := hasTurn_leads hturn hdirectives
    rw [hdirective, Directive.path_ofValue]
    exact hleads.path_ne_nil
  | inner hturn henters _ ih =>
    intro members hdirectives
    obtain ⟨path, items, inner, -, -, -, hinner⟩ := enters_leads hturn henters hdirectives
    exact ih hinner

/-- A merge comes to turns only if its payload is an object. -/
theorem ComesTo.isObject {payload : Json} {minted : Nat} {patch original : Node}
    (h : m.ComesTo (m.outset patch original payload minted) turn) :
    ∃ members, payload = .object members ∧
      (m.outset patch original payload minted).directives =
        Directive.ofMembers m.options members := by
  cases payload with
  | object members => exact ⟨members, rfl, rfl⟩
  | _ =>
    cases h with
    | own hturn | inner hturn =>
      cases hturn with
      | intro hsplit =>
        have hsplit : [] = _ ++ _ :: _ := hsplit
        simp at hsplit

theorem hasTurn_complete (hm : m.KeepsComplete) (hpatch : w.patch.Complete m.catalogue)
    (horiginal : w.original.Complete m.catalogue) (h : w.HasTurn m turn) :
    turn.patch.Complete m.catalogue ∧ turn.original.Complete m.catalogue := by
  cases h with
  | intro _ hearlier => exact ⟨hpatch, runsComplete hm _ hpatch horiginal hearlier⟩

/-- The objects of all turns that a walk over complete objects comes to are complete. -/
theorem ComesTo.complete (hm : m.KeepsComplete) (h : m.ComesTo w turn)
    (hpatch : w.patch.Complete m.catalogue) (horiginal : w.original.Complete m.catalogue) :
    turn.patch.Complete m.catalogue ∧ turn.original.Complete m.catalogue := by
  induction h with
  | own hturn => exact hasTurn_complete hm hpatch horiginal hturn
  | inner hturn henters _ ih =>
    obtain ⟨hturnPatch, hturnOriginal⟩ := hasTurn_complete hm hpatch horiginal hturn
    obtain ⟨hinnerPatch, hinner⟩ := henters.complete hm hturnPatch hturnOriginal
    exact ih hinnerPatch hinner

end Merger

end SelectiveMerge
