import Mathlib.Data.List.Infix
import Mathlib.Logic.Relation
import SelectiveMerge.Proofs.Requests

/-!
# The stops of a merge

A merge stops at each value of its payload that is no object: it navigates to the owners of
the member that the value is about, and does there what the value says. An array of elements
encloses further walks, one over each element that updates or adds an item. A merge that
succeeds makes all its stops, and so does each walk that it encloses.

* `Session.Precedes` — a record that another one goes on from
* `Merger.Arrives` — a navigation up to the owners
* `Walk`, `Stop`, `Walk.StopsAt` — a walk, and what it does with one of its values
* `Walk.exists_stop` — a walk stops at each of its values
* `Walk.Inner`, `Walk.Encloses` — the walks over the elements of an array
* `Stop.Acts.exists_inner` — each element that is no removal has its walk
-/

namespace SelectiveMerge

/-! ## Records -/

/-- The second record goes on from the first one. The changes that are made while a new item is
populated are forgotten once it has been added. -/
structure Session.Precedes (s t : Session) : Prop where
  sent : s.sent <+: t.sent
  populating : t.populating ≤ s.populating
  changes : s.populating = t.populating → s.report.changes <+: t.report.changes

namespace Session.Precedes

theorem refl (s : Session) : Precedes s s := ⟨List.prefix_rfl, le_rfl, fun _ => List.prefix_rfl⟩

theorem trans {s t u : Session} (h : Precedes s t) (h' : Precedes t u) : Precedes s u where
  sent := h.sent.trans h'.sent
  populating := h'.populating.trans h.populating
  changes heq := by
    have hle := h.populating
    have hle' := h'.populating
    exact (h.changes (by omega)).trans (h'.changes (by omega))

theorem of_extends {m : Merger} {base : List String} {s t : Session} (h : Extends m base s t) :
    Precedes s t := by
  obtain ⟨⟨hpopulating, -⟩, changes, sent, hchanges, hsent, -⟩ := h
  exact ⟨⟨sent, hsent.symm⟩, hpopulating.le, fun _ => ⟨changes, hchanges.symm⟩⟩

end Session.Precedes

namespace Merger

open Run (Succeeds)

variable {m : Merger} {s s' : Session} {patch original : Node}

/-! ## Navigation -/

/-- A navigation along keys, up to the two owners `p` and `o` at which the keys `last` are left:
the name of a member, or that of a dictionary of leaves and a key of it. The function puts new
fields of the owner back, and objects that were missing have been made on the way. -/
inductive Arrives (m : Merger) : (keys : List String) → (patch original : Node) → Session →
    (p o : Node) → (last : List String) → (Fields → Fields) → Session → Prop where
  | member {name : String} {patch original : Node} {s : Session} :
      Arrives m [name] patch original s patch original [name] id s
  | entry {name key : String} {patch original : Node} {s : Session} {pm om : Member}
      {patchType type : LeafType} {patchEntries entries : List (String × Cell)} {i : Nat}
      (hpm : m.member? patch name = some pm) (hom : m.member? original name = some om)
      (hread : patch.read? pm = some (.leafDictionary patchType patchEntries))
      (htarget : original.target? om = some (i, .leafDictionary type entries)) :
      Arrives m [name, key] patch original s patch original [name, key] id s
  | hop {keys rest last : List String} {patch original innerPatch inner p o : Node}
      {s t u : Session} {put put' : Fields → Fields}
      (hhop : m.Hop patch original s keys innerPatch inner put t) (hrest : rest ≠ [])
      (harrives : Arrives m rest innerPatch inner t p o last put' u) :
      Arrives m (keys ++ rest) patch original s p o last (put ∘ put') u

/-- How an entry of a dictionary of leaves that a member of the owner holds is assigned. -/
inductive EntryAssigns (m : Merger) (full : Path) (patch original : Node) (name key : String)
    (s : Session) : Fields → Session → Prop where
  | intro {pm om : Member} {patchType type : LeafType}
      {patchEntries entries made : List (String × Cell)} {i : Nat} {t : Session}
      (hpm : m.member? patch name = some pm) (hom : m.member? original name = some om)
      (hread : patch.read? pm = some (.leafDictionary patchType patchEntries))
      (htarget : original.target? om = some (i, .leafDictionary type entries))
      (hassign : m.AssignsEntry full patchEntries type entries key s made t) :
      EntryAssigns m full patch original name key s
        (original.fields.set i (.leafDictionary type made)) t

/-- Making an object takes at most an identity. -/
theorem Makes.eq_minted {type : TypeName} {fields : Fields} (h : m.Makes type s fields s') :
    ∃ minted, s' = { s with minted } := by
  cases h with
  | plain => exact ⟨s.minted, rfl⟩
  | fresh => exact ⟨s.minted + 1, rfl⟩

theorem Ensures.eq_minted {type : TypeName} {found : Option Fields} {fields : Fields}
    (h : m.Ensures type s found fields s') : ∃ minted, s' = { s with minted } := by
  cases h with
  | found => exact ⟨s.minted, rfl⟩
  | made hmade => exact hmade.eq_minted

theorem Hop.eq_minted {innerPatch inner : Node} {keys : List String} {put : Fields → Fields}
    (h : m.Hop patch original s keys innerPatch inner put s') : ∃ minted, s' = { s with minted } := by
  cases h with
  | object => exact ⟨s.minted, rfl⟩
  | optional _ _ _ _ hensure | entry _ _ _ _ _ hensure => exact hensure.eq_minted

/-- Nothing but identities is taken on the way to the owners. -/
theorem Arrives.eq_minted {keys last : List String} {p o : Node} {put : Fields → Fields}
    (h : m.Arrives keys patch original s p o last put s') : ∃ minted, s' = { s with minted } := by
  induction h with
  | member => exact ⟨_, rfl⟩
  | entry => exact ⟨_, rfl⟩
  | hop hhop _ _ ih =>
    obtain ⟨minted, rfl⟩ := hhop.eq_minted
    obtain ⟨minted', rfl⟩ := ih
    exact ⟨minted', rfl⟩

/-- A navigation that succeeds arrives at owners, and there the visitor acts, or an entry of a
dictionary of leaves is assigned. -/
theorem Visits.exists_arrives {full : Path}
    {act : Node → Node → String → Session → Fields → Session → Prop} {keys : List String}
    {fields : Fields} (h : m.Visits full act keys patch original s fields s') :
    ∃ p o last put t made, m.Arrives keys patch original s p o last put t ∧ fields = put made ∧
      ((∃ name, last = [name] ∧ act p o name t made s') ∨
        ∃ name key, last = [name, key] ∧ m.EntryAssigns full p o name key t made s') := by
  induction h with
  | member hact => exact ⟨_, _, _, id, _, _, .member, rfl, .inl ⟨_, rfl, hact⟩⟩
  | entry hpm hom hread htarget hassign =>
    exact ⟨_, _, _, id, _, _, .entry hpm hom hread htarget, rfl,
      .inr ⟨_, _, rfl, .intro hpm hom hread htarget hassign⟩⟩
  | hop hhop hrest _ ih =>
    obtain ⟨p, o, last, put', t, made, harrives, rfl, hends⟩ := ih
    exact ⟨p, o, last, _, t, made, .hop hhop hrest harrives, rfl, hends⟩

end Merger

/-! ## Walks and stops -/

/-- A walk over an object of a payload: the path in front of its keys, the two objects that it
is about, the record before and after it, and the new fields of the original. -/
structure Walk where
  base : List String
  patch : Node
  original : Node
  members : List (String × Json)
  before : Session
  made : Fields
  after : Session

/-- What a walk does with a value: the fields of its original and the record when it starts,
the two owners with the keys that are left there and the record when it arrives, and at the end
the new fields of the owner and the record. -/
structure Stop where
  fields : Fields
  started : Session
  patch : Node
  owner : Node
  last : List String
  put : Fields → Fields
  arrived : Session
  made : Fields
  finished : Session

/-- The walk succeeds with the new fields. -/
def Walk.Runs (w : Walk) (m : Merger) : Prop :=
  m.Walks w.base w.patch w.original w.members w.before w.made w.after

open Run (Succeeds)

/-- The walk has a stop for the value that keys lead to: what comes before it leads up to the
stop, and what comes after goes on from there. -/
structure Walk.StopsAt (w : Walk) (m : Merger) (path : List String) (value : Json) (stop : Stop) :
    Prop where
  turn : ∃ earlier later, Directive.ofMembers m.options w.members =
      earlier ++ Directive.ofValue m.options path value :: later ∧
    Succeeds (m.runDirectives w.base w.patch w.original.type earlier w.original.fields) w.before
      stop.fields stop.started ∧
    Succeeds (m.runDirectives w.base w.patch w.original.type later (stop.put stop.made))
      stop.finished w.made w.after
  run : Succeeds (m.runDirective w.base w.patch ⟨w.original.type, stop.fields⟩
    (Directive.ofValue m.options path value)) stop.started (stop.put stop.made) stop.finished
  arrives : m.Arrives path w.patch ⟨w.original.type, stop.fields⟩ stop.started stop.patch
    stop.owner stop.last stop.put stop.arrived

/-- What is done at a stop: a member is assigned, an array is applied to it, or an entry of a
dictionary of leaves is assigned. -/
inductive Stop.Acts (stop : Stop) (m : Merger) (full : Path) : Json → Prop where
  | scalar {name : String} {value : Json} (hvalue : ∀ items, value ≠ .array items)
      (hlast : stop.last = [name])
      (hassigns : m.Assigns full stop.patch stop.owner name stop.arrived stop.made stop.finished) :
      Acts stop m full value
  | array {name : String} {items : List Json} (hlast : stop.last = [name])
      (hassigns : m.ArrayAssigns full (.array items) (Directive.elements m.options items) stop.patch
        stop.owner name stop.arrived stop.made stop.finished) :
      Acts stop m full (.array items)
  | entry {name key : String} {value : Json} (hlast : stop.last = [name, key])
      (hassigns : m.EntryAssigns full stop.patch stop.owner name key stop.arrived stop.made
        stop.finished) :
      Acts stop m full value

namespace Walk

variable {m : Merger} {w : Walk} {path : List String} {value : Json} {stop : Stop}

/-- What is done at a stop is on record after the walk. -/
theorem StopsAt.precedes (h : w.StopsAt m path value stop) : stop.finished.Precedes w.after := by
  obtain ⟨earlier, later, -, -, hlater⟩ := h.turn
  exact .of_extends (m.runsExtend later hlater)

/-- A walk that succeeds stops at each value that its keys lead to, save the scalars called
`id`. -/
theorem exists_stop (h : w.Runs m) (hleads : Leads m.options (.object w.members) path value)
    (hid : (path.getLast?).any isIdentityKey = false) :
    ∃ stop, w.StopsAt m path value stop ∧ stop.Acts m ⟨w.base ++ path⟩ value := by
  have hmem : Directive.ofValue m.options path value ∈ Directive.ofMembers m.options w.members :=
    Directive.mem_ofMembers_iff.2 ⟨path, value, hleads, rfl⟩
  obtain ⟨earlier, later, hsplit⟩ := List.append_of_mem hmem
  unfold Runs Merger.Walks at h
  rw [hsplit] at h
  obtain ⟨fields, t, hearlier, htail⟩ := Merger.succeeds_runDirectives_append.1 h
  obtain ⟨next, u, hrun, hlater⟩ := Merger.succeeds_runDirectives_cons.1 htail
  -- the step of the value, by what it is
  have hstep := Merger.DirectiveStep.of_runDirective hrun
  by_cases harray : ∃ items, value = .array items
  · obtain ⟨items, rfl⟩ := harray
    cases hstep with
    | array hvisit =>
      rw [Directive.map_value_elements] at hvisit
      obtain ⟨p, o, last, put, v, made, harrives, rfl, hends⟩ := hvisit.exists_arrives
      refine ⟨⟨fields, t, p, o, last, put, v, made, u⟩,
        ⟨⟨earlier, later, hsplit, hearlier, hlater⟩, hrun, harrives⟩, ?_⟩
      rcases hends with ⟨name, rfl, hact⟩ | ⟨name, key, rfl, hact⟩
      · exact .array rfl hact
      · exact .entry rfl hact
  · have hvalue : ∀ items, value ≠ .array items := fun items h => harray ⟨items, h⟩
    have hscalar : Directive.ofValue m.options path value = .scalar path value := by
      cases value with
      | array items => exact absurd rfl (hvalue items)
      | _ => rfl
    rw [hscalar] at hstep
    cases hstep with
    | identity htrue =>
      rw [hid] at htrue
      cases htrue
    | scalar _ hvisit =>
      obtain ⟨p, o, last, put, v, made, harrives, rfl, hends⟩ := hvisit.exists_arrives
      refine ⟨⟨fields, t, p, o, last, put, v, made, u⟩,
        ⟨⟨earlier, later, hsplit, hearlier, hlater⟩, hrun, harrives⟩, ?_⟩
      rcases hends with ⟨name, rfl, hact⟩ | ⟨name, key, rfl, hact⟩
      · exact .scalar hvalue rfl hact
      · exact .entry rfl hact

end Walk

/-! ## Elements -/

namespace Merger

variable {m : Merger} {s s' : Session}

/-- The walk over an element that updates an item, or that adds one which was made for it. -/
inductive ElementWalks (m : Merger) (r : Reconciliation) (position : Nat)
    (members : List (String × Json)) (state : Reconciled) (s : Session) : Walk → Prop where
  | update {id : Uuid} {index : Nat} {item made : Fields} {patchItem : Node} {t : Session}
      (hintent : Intent.ofMembers m.options r.full members = .ok (.update id))
      (hindex : m.catalogue.position? r.type state.items id = some index)
      (hitem : state.items[index]? = some item)
      (hpatch : m.catalogue.itemWithId? r.patchType r.patchItems id = some patchItem) :
      ElementWalks m r position members state s
        ⟨r.full.segments, patchItem, ⟨r.type, item⟩, members, s, made, t⟩
  | add {patchItem fresh : Node} {made : Fields} {t u : Session}
      (hintent : Intent.ofMembers m.options r.full members = .ok .add)
      (hpatch : Collection.item? r.patchType r.patchItems position = some patchItem)
      (hfresh : m.MakesItem r patchItem s fresh t) :
      ElementWalks m r position members state s
        ⟨r.full.segments, patchItem, fresh, members, { t with populating := t.populating + 1 },
          made, u⟩

/-- An element that is no removal is walked over. -/
theorem ElementStep.exists_walk {r : Reconciliation} {position : Nat}
    {members : List (String × Json)} {state state' : Reconciled}
    (h : m.ElementStep r position members (Directive.ofMembers m.options members) state s state' s') :
    ∃ intent, Intent.ofMembers m.options r.full members = .ok intent ∧
      ((∃ id, intent = .remove id) ∨
        ∃ w, m.ElementWalks r position members state s w ∧ w.Runs m ∧ w.after.Precedes s') := by
  cases h with
  | remove hintent => exact ⟨_, hintent, .inl ⟨_, rfl⟩⟩
  | update hintent hindex hitem hpatch hrun =>
    exact ⟨_, hintent, .inr ⟨_, .update hintent hindex hitem hpatch, hrun, .refl _⟩⟩
  | @add patchItem fresh fields t u hintent hpatch hfresh htype hrun hgranted =>
    have hpopulating : u.populating = t.populating + 1 := (m.runsExtend _ hrun).counters.1
    refine ⟨_, hintent, .inr ⟨_, .add hintent hpatch hfresh, hrun, List.prefix_append _ _, ?_, ?_⟩⟩
    · show t.populating ≤ u.populating
      omega
    · intro hsame
      have hsame : u.populating = t.populating := hsame
      omega

/-- An array at a collection is reconciled with it. -/
theorem ArrayAssigns.exists_reconciles {full : Path} {node : Json} {elements : List Element}
    {patch original : Node} {name : String} {om : Member} {fields : Fields}
    (h : m.ArrayAssigns full node elements patch original name s fields s')
    (hid : isIdentityKey name = false) (hom : m.member? original name = some om)
    (hkind : om.kind = .collection) :
    ∃ pm, m.member? patch name = some pm ∧
      m.Reconciles full node elements patch original pm om s fields s' := by
  cases h with
  | identity htrue =>
    rw [hid] at htrue
    cases htrue
  | emptied _ _ _ hom' hleaf =>
    obtain rfl := Option.some_inj.1 (hom.symm.trans hom')
    rw [hkind] at hleaf
    cases hleaf
  | assigned _ _ hom' hne =>
    obtain rfl := Option.some_inj.1 (hom.symm.trans hom')
    exact absurd hkind hne
  | reconciled _ hpm hom' _ hreconcile =>
    obtain rfl := Option.some_inj.1 (hom.symm.trans hom')
    exact ⟨_, hpm, hreconcile⟩

/-- The elements of an array that succeeds have each its turn. -/
theorem ElementsRun.exists_turn {r : Reconciliation} {position : Nat} {items : List Json}
    {state state' : Reconciled}
    (h : m.ElementsRun r position (Directive.elements m.options items) state s state' s') {k : Nat}
    {item : Json} (hitem : items[k]? = some item) :
    ∃ members st t st' u, item = .object members ∧
      m.ElementsRun r position (Directive.elements m.options (items.take k)) state s st t ∧
      m.ElementStep r (position + k) members (Directive.ofMembers m.options members) st t st' u ∧
      u.Precedes s' := by
  induction k generalizing items position state s with
  | zero =>
    cases items with
    | nil => cases hitem
    | cons first items =>
      obtain rfl : first = item := by simpa using hitem
      rw [Directive.elements_eq_map, List.map_cons] at h
      cases h with
      | cons hstep hrest =>
        have hprecedes := Session.Precedes.of_extends (hrest.extends fun _ _ => m.runsExtend _)
        exact ⟨_, _, _, _, _, rfl, .nil, hstep, hprecedes⟩
  | succ k ih =>
    cases items with
    | nil => cases hitem
    | cons first items =>
      rw [Directive.elements_eq_map, List.map_cons] at h
      cases h with
      | cons hstep hrest =>
        rw [← Directive.elements_eq_map] at hrest
        obtain ⟨members, st, t, st', u, rfl, hearlier, hturn, hprecedes⟩ :=
          ih hrest (by simpa using hitem)
        rw [Nat.add_right_comm, Nat.add_assoc] at hturn
        refine ⟨members, st, t, st', u, rfl, ?_, hturn, hprecedes⟩
        rw [List.take_succ_cons, Directive.elements_eq_map, List.map_cons,
          ← Directive.elements_eq_map]
        exact .cons hstep hearlier

end Merger

/-- The walk over the element at a position of an array, at a stop that comes to a collection:
the collection is cleared if need be, and the elements before this one are run. -/
inductive Walk.Inner (w : Walk) (m : Merger) (path : List String) (items : List Json) (stop : Stop)
    (position : Nat) (w' : Walk) : Prop where
  | intro {name : String} {pm om : Member} {patchType type readType : TypeName}
      {patchItems olds readItems found : List Fields} {i : Nat} {t u : Session}
      {state : Reconciled} {members : List (String × Json)} (hlast : stop.last = [name])
      (hpm : m.member? stop.patch name = some pm) (hom : m.member? stop.owner name = some om)
      (hpatch : stop.patch.read? pm = some (.collection patchType patchItems))
      (hread : stop.owner.read? om = some (.collection readType readItems))
      (htarget : stop.owner.target? om = some (i, .collection type olds))
      (hclears : m.Clears ⟨w.base ++ path⟩ (.array items) stop.patch stop.owner om
        (!(m.catalogue readType).identified &&
          (items.isEmpty || m.configuration.forcesReplace ⟨w.base ++ path⟩))
        olds stop.arrived found t)
      (hearlier : m.ElementsRun ⟨⟨w.base ++ path⟩, om.name, patchType, patchItems, type⟩ 0
        (Directive.elements m.options (items.take position)) ⟨found, []⟩ t state u)
      (hitem : items[position]? = some (.object members))
      (hwalk : m.ElementWalks ⟨⟨w.base ++ path⟩, om.name, patchType, patchItems, type⟩ position
        members state u w') (hruns : w'.Runs m) (hprecedes : w'.after.Precedes stop.finished)

/-- A walk encloses those over the elements of its arrays. -/
def Walk.Encloses (m : Merger) (w w' : Walk) : Prop :=
  ∃ path items stop position, w.StopsAt m path (.array items) stop ∧
    w.Inner m path items stop position w'

namespace Walk

variable {m : Merger} {w w' : Walk}

theorem Encloses.runs (h : Encloses m w w') : w'.Runs m := by
  obtain ⟨path, items, stop, position, -, ⟨-, -, -, -, -, -, -, -, -, -, hruns, -⟩⟩ := h
  exact hruns

theorem Encloses.precedes (h : Encloses m w w') : w'.after.Precedes w.after := by
  obtain ⟨path, items, stop, position, hstop, ⟨-, -, -, -, -, -, -, -, -, -, -, hprecedes⟩⟩ := h
  exact hprecedes.trans hstop.precedes

/-- All walks that one encloses succeed with it, and what they do is on record after it. -/
theorem runs_of_encloses (hw : w.Runs m) (h : Relation.ReflTransGen (Encloses m) w w') :
    w'.Runs m ∧ w'.after.Precedes w.after := by
  induction h with
  | refl => exact ⟨hw, .refl _⟩
  | tail _ hlast ih => exact ⟨hlast.runs, hlast.precedes.trans ih.2⟩

end Walk

/-- An array that comes to a collection has objects for elements, and each of them that is no
removal has its walk. -/
theorem Stop.Acts.exists_inner {m : Merger} {w : Walk} {path : List String} {items : List Json}
    {stop : Stop} {name : String} {om : Member} (h : stop.Acts m ⟨w.base ++ path⟩ (.array items))
    (hlast : stop.last = [name]) (hid : isIdentityKey name = false)
    (hom : m.member? stop.owner name = some om) (hkind : om.kind = .collection) {position : Nat}
    {item : Json} (hitem : items[position]? = some item) :
    ∃ members intent, item = .object members ∧
      Intent.ofMembers m.options ⟨w.base ++ path⟩ members = .ok intent ∧
      ((∃ id, intent = .remove id) ∨ ∃ w', w.Inner m path items stop position w') := by
  cases h with
  | scalar hvalue => exact absurd rfl (hvalue items)
  | entry hentry =>
    rw [hlast] at hentry
    cases hentry
  | array hname hassigns =>
    obtain rfl := List.singleton_inj.1 (hlast.symm.trans hname)
    obtain ⟨pm, hpm, hreconcile⟩ := hassigns.exists_reconciles hid hom hkind
    obtain ⟨fields, started, p, o, last, put, arrived, made, finished⟩ := stop
    dsimp only at hlast hom hpm hreconcile
    cases hreconcile with
    | ignored _ _ _ _ _ hempty =>
      have hnil : items = [] := by
        rw [Directive.elements_eq_map] at hempty
        exact List.map_eq_nil_iff.1 hempty
      rw [hnil] at hitem
      cases hitem
    | run hpatch hread htarget hclears hrun hdrops =>
      obtain ⟨members, state, u, state', v, rfl, hearlier, hstep, hprecedes⟩ :=
        hrun.exists_turn hitem
      rw [Nat.zero_add] at hstep
      obtain ⟨intent, hintent, hremove | ⟨w', hwalk, hruns, hafter⟩⟩ := hstep.exists_walk
      · exact ⟨members, intent, rfl, hintent, .inl hremove⟩
      · have hends := Session.Precedes.of_extends hdrops.extends
        have hisEmpty : (Directive.elements m.options items).isEmpty = items.isEmpty := by
          rw [Directive.elements_eq_map, List.isEmpty_map]
        rw [hisEmpty] at hclears
        exact ⟨members, intent, rfl, hintent, .inr ⟨w', .intro hlast hpm hom hpatch hread htarget
          hclears hearlier hitem hwalk hruns ((hafter.trans hprecedes).trans hends)⟩⟩

end SelectiveMerge
