import SelectiveMerge.Proofs.Taken

/-!
# Mentioned leaves take the values of the patch

Each directive of a payload writes at the end of its path what is taken over there, and
spares the paths of the others; so after a merge all of them are as their directives say.
The same holds for the elements of an array, each within the item that it comes to. An
item may be come to again by a later element, even if the array names each identity once:
a new item gets its identity from the patch, and that identity may be named afterwards.
What the later element does not lead to is still as the earlier one left it.

* `Visits.enacts`, `DirectiveStep.enacts` — one directive
* `ElementsRun.tracks` — the elements of an array
* `runsTake` — a list of directives
* `takes_merge` — a whole merge
-/

namespace SelectiveMerge

namespace Merger

open Run (Succeeds)

variable {m : Merger} {s s' : Session} {value leaf : Json}

/-! ## Single members -/

theorem Assigns.enacts (hempty : m.configuration = .empty) {full : Path}
    {patch original : Node} {name : String} {fields : Fields}
    (hvalue : ∀ om, m.member? original name = some om → om.kind = .leaf → value ≠ .array [])
    (h : m.Assigns full patch original name s fields s') :
    m.Enacts value [name] (m.shown? patch [name]) (.object original.type original.fields)
      (.object original.type fields) := by
  cases h with
  | identity hid => exact .of_identity (by simpa using hid)
  | custom _ haction =>
    rw [hempty] at haction
    cases haction
  | leaf _ _ hpm hom hread hkind hencode _ htarget hcoerce =>
    obtain ⟨slot, hview, hshown⟩ := shown?_cons_of_read? [] hpm hread
    rw [hshown, spot?]
    cases slot <;> simp only [Slot.view, View.leaf.injEq, reduceCtorEq] at hview
    obtain ⟨rfl, rfl⟩ := hview
    exact .of_target? hom htarget rfl .leaf
      (.leaf (hvalue _ hom hkind) (.of_coerce? hencode hcoerce))
  | unset _ _ hpm hom hread _ _ htarget =>
    obtain ⟨slot, hview, hshown⟩ := shown?_cons_of_read? [] hpm hread
    rw [hshown, spot?]
    cases slot <;> simp only [Slot.view, View.object.injEq, reduceCtorEq] at hview
    rw [Option.map_eq_none_iff] at hview
    subst hview
    exact .of_target? hom htarget rfl .missing .unset

/-- A navigation takes over at the end of its path what the visitor does there. -/
theorem Visits.enacts (hwell : m.catalogue.WellFormed) {full : Path}
    {act : Node → Node → String → Session → Fields → Session → Prop}
    (hact : ∀ {p o : Node} {name : String} {s s' : Session} {f : Fields} {value : Json},
      Conforms m.catalogue (.object o.type o.fields) → m.Unambiguous (.owner o.type) value →
      Leads m.options value [name] leaf → act p o name s f s' →
      m.Enacts leaf [name] (m.shown? p [name]) (.object o.type o.fields) (.object o.type f))
    {rest : List String} {patch original : Node} {fields : Fields}
    (hconforms : Conforms m.catalogue (.object original.type original.fields))
    (hvalue : m.Unambiguous (.owner original.type) value)
    (hleads : Leads m.options value rest leaf)
    (h : m.Visits full act rest patch original s fields s') :
    m.Enacts leaf rest (m.shown? patch rest) (.object original.type original.fields)
      (.object original.type fields) := by
  induction h generalizing value with
  | member h => exact hact hconforms hvalue hleads h
  | @entry name key _ _ _ _ _ _ _ _ _ _ _ _ hpm hom hread htarget hassign =>
    obtain ⟨hnumber, hslot⟩ := number?_of_target? hom htarget
    obtain ⟨slot, hview, hshown⟩ := shown?_cons_of_read? [key] hpm hread
    cases hassign with
    | intro hsource hencode _ hcoerce =>
      refine ⟨_, _, .member hnumber hslot .cell, ?_, fun _ => ?_⟩
      · rintro _ _ - ⟨⟩
      · rw [hshown]
        cases slot <;> simp only [Slot.view, View.leafDictionary.injEq, reduceCtorEq] at hview
        obtain ⟨rfl, rfl⟩ := hview
        rw [spot?_leafDictionary_cons, if_pos rfl, hsource]
        exact .entry (.of_coerce? hencode hcoerce)
  | @hop keys rest _ _ _ _ _ _ _ _ _ hhop hrest _ ih =>
    obtain ⟨hinner, value', hvalue', hleads'⟩ := hhop.exists_leads hwell hconforms hvalue hleads
    obtain ⟨before, after, hwrites, hfits, htakes⟩ := ih hinner hvalue' hleads'
    refine ⟨before, after, hhop.writes hrest hwrites, hfits, fun hid => ?_⟩
    rw [List.getLast?_append_of_ne_nil _ hrest] at hid
    rw [hhop.shown?_eq hrest]
    exact htakes hid

/-! ## Collections -/

/-- A list of directives, each of which a value has, takes over what they mention, and
spares the paths of the other directives of that value, and all that they do not meet. -/
structure TakesOverAll (m : Merger) (directives : List Directive) (value : Json) (patch : Node)
    (type : TypeName) (fields made : Fields) : Prop where
  conforms : Conforms m.catalogue (.object type made)
  takes : ∀ path leaf, Leads m.options value path leaf →
    Directive.ofValue m.options path leaf ∈ directives →
    (path.getLast?).any isIdentityKey = false →
    m.Takes (m.shown? patch path) (m.begun? (.object type fields) path)
      (m.held? (.object type made) path) leaf
  spares : ∀ path leaf, Leads m.options value path leaf →
    path ∉ directives.map Directive.path → m.Spares path (.object type fields) (.object type made)
  spares_of_not_meets : ∀ path, (∀ d ∈ directives, ¬ m.Meets (.owner type) d.path path) →
    m.Spares path (.object type fields) (.object type made)

/-- So does every run of the list. -/
def RunsTake (m : Merger) (directives : List Directive) : Prop :=
  ∀ {value : Json} {base : List String} {patch : Node} {type : TypeName}
    {fields made : Fields} {s s' : Session},
    Conforms m.catalogue (.object type fields) → m.Unambiguous (.owner type) value →
    (∀ d ∈ directives, ∃ path leaf, Leads m.options value path leaf ∧
      d = .ofValue m.options path leaf) →
    (directives.map Directive.path).Nodup →
    Succeeds (runDirectives m base patch type directives fields) s made s' →
    m.TakesOverAll directives value patch type fields made

/-- An element as it comes to an item: its leaves are taken over, and what it does not lead
to is spared. -/
structure Enters (m : Merger) (type : TypeName) (touch : Touch) : Prop where
  conforms : Conforms m.catalogue (.object type touch.after)
  takes : m.TakesAll touch.element touch.patch (.object type touch.before)
    (.object type touch.after)
  spares : ∀ path, ¬ m.LeadsThere type touch.element path →
    m.Spares path (.object type touch.before) (.object type touch.after)

/-- All directives of an object together take over all that it leads to. -/
theorem RunsTake.enters {members : List (String × Json)} {base : List String} {patch : Node}
    {type : TypeName} {fields made : Fields}
    (htake : m.RunsTake (Directive.ofMembers m.options members))
    (hconforms : Conforms m.catalogue (.object type fields))
    (hmembers : m.Unambiguous (.owner type) (.object members))
    (h : m.Walks base patch ⟨type, fields⟩ members s made s') :
    m.Enters type ⟨patch, fields, made, .object members⟩ := by
  have hall := htake hconforms hmembers (fun d hd => Directive.mem_ofMembers_iff.1 hd)
    (Directive.nodup_paths hmembers) h
  refine ⟨hall.conforms, fun path leaf hleads hid => hall.takes path leaf hleads ?_ hid,
    fun path hnot => hall.spares_of_not_meets path fun d hd hmeets => hnot ?_⟩
  · exact Directive.mem_ofMembers_iff.2 ⟨path, leaf, hleads, rfl⟩
  · obtain ⟨other, leaf, hleads, rfl⟩ := Directive.mem_ofMembers_iff.1 hd
    rw [Directive.path_ofValue] at hmeets
    exact ⟨other, leaf, hleads, hmeets⟩

/-- An item with the elements that came to it: each of them took its leaves over, and what
no later one leads to is as it left it. -/
structure Traces (m : Merger) (type : TypeName) (item : Tracked) : Prop where
  conforms : Conforms m.catalogue (.object type item.fields)
  takes : ∀ touch ∈ item.touches, m.TakesAll touch.element touch.patch
    (.object type touch.before) (.object type touch.after)
  held : ∀ later touch earlier, item.touches = later ++ touch :: earlier →
    ∀ path, (∀ t ∈ later, ¬ m.LeadsThere type t.element path) →
      ∀ spot, m.held? (.object type touch.after) path = some spot →
        m.held? (.object type item.fields) path = some spot

namespace Traces

variable {type : TypeName}

theorem untouched {fields : Fields} (h : Conforms m.catalogue (.object type fields)) :
    m.Traces type (.untouched fields) where
  conforms := h
  takes := by rintro touch ⟨⟩
  held := by
    intro later touch earlier heq
    exact absurd heq.symm (by simp [Tracked.untouched])

/-- Another element comes to the item. -/
theorem enter {item : Tracked} {touch : Touch} (h : m.Traces type item)
    (hbefore : touch.before = item.fields) (henters : m.Enters type touch) :
    m.Traces type ⟨touch.after, touch :: item.touches⟩ where
  conforms := henters.conforms
  takes := List.forall_mem_cons.2 ⟨henters.takes, h.takes⟩
  held := by
    intro later earliest earlier heq path hnot spot hheld
    rcases List.cons_eq_append_iff.1 heq with ⟨-, hfirst⟩ | ⟨rest, rfl, hrest⟩
    · obtain ⟨rfl, -⟩ := List.cons_eq_cons.1 hfirst
      exact hheld
    · have hfields := h.held rest earliest earlier hrest path
        (fun t ht => hnot t (List.mem_cons_of_mem _ ht)) spot hheld
      rw [← hbefore] at hfields
      exact (henters.spares path (hnot touch (List.mem_cons_self ..))).held spot hfields

/-- A new item is entered by the element that adds it. -/
theorem of_enters {touch : Touch} (henters : m.Enters type touch) :
    m.Traces type ⟨touch.after, [touch]⟩ where
  conforms := henters.conforms
  takes := List.forall_mem_singleton.2 henters.takes
  held := by
    intro later earliest earlier heq path _ spot hheld
    obtain ⟨-, heq⟩ | ⟨rest, -, hrest⟩ := List.cons_eq_append_iff.1 heq
    · obtain ⟨rfl, -⟩ := List.cons_eq_cons.1 heq
      exact hheld
    · exact absurd hrest.symm (by simp)

/-- In the end the leaves of an element are taken over where no later one leads. -/
theorem takes_of_later {item : Tracked} (h : m.Traces type item) {later earlier : List Touch}
    {touch : Touch} (heq : item.touches = later ++ touch :: earlier) {path : List String}
    (hleads : Leads m.options touch.element path leaf)
    (hid : (path.getLast?).any isIdentityKey = false)
    (hnot : ∀ t ∈ later, ¬ m.LeadsThere type t.element path) :
    m.Takes (m.shown? touch.patch path) (m.begun? (.object type touch.before) path)
      (m.held? (.object type item.fields) path) leaf := by
  have hmem : touch ∈ item.touches := by simp [heq]
  exact (h.takes touch hmem path leaf hleads hid).congr (fun _ _ hitems => hitems)
    (h.held later touch earlier heq path hnot)

end Traces

/-- The items of a collection with the elements that came to them. -/
structure Tracks (m : Merger) (type : TypeName) (items : List Fields)
    (tracked : List Tracked) : Prop where
  map_fields : tracked.map Tracked.fields = items
  traces : ∀ item ∈ tracked, m.Traces type item

namespace Tracks

variable {type : TypeName} {items : List Fields} {tracked : List Tracked}

theorem conforms (h : m.Tracks type items tracked) :
    Conforms m.catalogue (.collection type items) := by
  refine .collection fun fields hfields => ?_
  rw [← h.map_fields] at hfields
  obtain ⟨item, hitem, rfl⟩ := List.mem_map.1 hfields
  exact (h.traces item hitem).conforms

theorem untouched (h : Conforms m.catalogue (.collection type items)) :
    m.Tracks type items (items.map .untouched) := by
  refine ⟨?_, fun item hitem => ?_⟩
  · rw [List.map_map]
    exact List.map_id' items
  · obtain ⟨fields, hfields, rfl⟩ := List.mem_map.1 hitem
    exact .untouched (h.item hfields)

theorem append {item : Tracked} (h : m.Tracks type items tracked) (hitem : m.Traces type item) :
    m.Tracks type (items ++ [item.fields]) (tracked ++ [item]) := by
  refine ⟨by rw [List.map_append, List.map_singleton, h.map_fields], fun other hother => ?_⟩
  rcases List.mem_append.1 hother with hother | hother
  · exact h.traces other hother
  · obtain rfl := List.mem_singleton.1 hother
    exact hitem

theorem set {item : Tracked} (h : m.Tracks type items tracked) (index : Nat)
    (hitem : m.Traces type item) :
    m.Tracks type (items.set index item.fields) (tracked.set index item) := by
  refine ⟨by rw [List.map_set, h.map_fields], fun other hother => ?_⟩
  rcases List.mem_or_eq_of_mem_set hother with hother | rfl
  · exact h.traces other hother
  · exact hitem

theorem eraseIdx (h : m.Tracks type items tracked) (index : Nat) :
    m.Tracks type (items.eraseIdx index) (tracked.eraseIdx index) := by
  refine ⟨?_, fun item hitem => h.traces item (List.mem_of_mem_eraseIdx hitem)⟩
  rw [← List.eraseIdx_map, h.map_fields]

end Tracks

variable {r : Reconciliation} {elements : List Element}

/-- A collection is as the elements say that came to its items. -/
theorem Takes.of_tracks {items : List Json} {olds start left : List Fields}
    {tracked : List Tracked} (hstart : start = olds ∨ items = [] ∧ start = [])
    (hhandles : m.Handles r 0 items (start.map .untouched) tracked)
    (htracks : m.Tracks r.type left tracked) :
    m.Takes (some (.slot (.collection r.patchType r.patchItems)))
      (some (.slot (.collection r.type olds))) (some (.slot (.collection r.type left)))
      (.array items) := by
  rw [← htracks.map_fields]
  refine .collection hstart hhandles (fun item hitem touch htouch => ?_)
    fun item hitem later touch earlier heq path leaf hleads hid hnot => ?_
  · exact (htracks.traces item hitem).takes touch htouch
  · exact (htracks.traces item hitem).takes_of_later heq hleads hid hnot

/-- An element comes to an item, and leaves it as it says. -/
theorem ElementStep.tracks (hwell : m.catalogue.WellFormed) (hempty : m.configuration = .empty)
    {position : Nat} {members : List (String × Json)} {state state' : Reconciled}
    {tracked : List Tracked} (hmembers : m.Unambiguous (.owner r.type) (.object members))
    (htake : m.RunsTake (Directive.ofMembers m.options members))
    (h : m.ElementStep r position members (Directive.ofMembers m.options members) state s
      state' s') (htracks : m.Tracks r.type state.items tracked) :
    ∃ tracked', m.Tracks r.type state'.items tracked' ∧
      ∀ elements items', m.Handles r (position + 1) elements tracked' items' →
        m.Handles r position (.object members :: elements) tracked items' := by
  cases h with
  | add hintent hpatch hfresh _ hrun =>
    cases hfresh with
    | factory hmake =>
      rw [hempty] at hmake
      cases hmake
    | construct _ hmade =>
      have henters := htake.enters (hmade.conforms hwell) hmembers hrun
      exact ⟨_, htracks.append (.of_enters henters),
        fun _ _ hrest => .add hintent hpatch hmade hrun hrest⟩
  | @update id index item _ _ _ hintent hindex hitem hpatch hrun =>
    rw [← htracks.map_fields] at hindex
    rw [← htracks.map_fields, List.getElem?_map] at hitem
    obtain ⟨old, hold, rfl⟩ := Option.map_eq_some_iff.1 hitem
    have htraces := htracks.traces old (List.mem_of_getElem? hold)
    have henters := htake.enters htraces.conforms hmembers hrun
    exact ⟨_, htracks.set index (htraces.enter rfl henters),
      fun _ _ hrest => .update hintent hindex hold hpatch hrun hrest⟩
  | @remove id index hintent hindex =>
    rw [← htracks.map_fields] at hindex
    exact ⟨_, htracks.eraseIdx index, fun _ _ hrest => .remove hintent hindex hrest⟩

/-- So do the elements of an array, one after another. -/
theorem ElementsRun.tracks (hwell : m.catalogue.WellFormed) (hempty : m.configuration = .empty)
    {position : Nat} {items : List Json} {state state' : Reconciled} {tracked : List Tracked}
    (helements : elements = Directive.elements m.options items)
    (hitems : ∀ item ∈ items, m.Unambiguous (.owner r.type) item)
    (htake : ∀ e ∈ elements, m.RunsTake e.directives)
    (h : m.ElementsRun r position elements state s state' s')
    (htracks : m.Tracks r.type state.items tracked) :
    ∃ tracked', m.Tracks r.type state'.items tracked' ∧
      m.Handles r position items tracked tracked' := by
  induction h generalizing items tracked with
  | nil =>
    cases items with
    | nil => exact ⟨tracked, htracks, .nil⟩
    | cons => rw [Directive.elements_eq_map] at helements; cases helements
  | cons hstep _ ih =>
    rw [Directive.elements_eq_map] at helements
    cases items with
    | nil => cases helements
    | cons item items =>
      obtain ⟨hhead, htail⟩ := List.cons_eq_cons.1 helements
      obtain ⟨rfl, rfl⟩ := Element.mk.inj hhead
      obtain ⟨mid, hmid, hhandles⟩ := hstep.tracks hwell hempty
        (hitems _ (List.mem_cons_self ..)) (htake _ (List.mem_cons_self ..)) htracks
      rw [← Directive.elements_eq_map] at htail
      obtain ⟨tracked', htracks', hrest⟩ := ih htail
        (fun item hitem => hitems item (List.mem_cons_of_mem _ hitem))
        (fun e he => htake e (List.mem_cons_of_mem _ he)) hmid
      exact ⟨tracked', htracks', hhandles items tracked' hrest⟩

/-- Without overrides nothing is replaced as a whole: only an empty array may have the
items removed beforehand. -/
theorem Clears.eq_or_eq_nil {full : Path} {node : Json} {patch original : Node}
    {member : Member} {identified : Bool} {items found : List Fields}
    (hempty : m.configuration = .empty)
    (h : m.Clears full node patch original member (!identified &&
      (elements.isEmpty || m.configuration.forcesReplace full)) items s found s') :
    found = items ∨ elements = [] ∧ found = [] := by
  have hforce : m.configuration.forcesReplace full = false := by
    rw [hempty]
    rfl
  rw [hforce, Bool.or_false] at h
  cases h with
  | kept => exact .inl rfl
  | cleared hclears | empty hclears =>
    rw [Bool.and_eq_true] at hclears
    exact .inr ⟨List.isEmpty_iff.1 hclears.2, rfl⟩

theorem Reconciles.enacts (hwell : m.catalogue.WellFormed) (hempty : m.configuration = .empty)
    {full : Path} {node : Json} {items : List Json} {patch original : Node} {pm om : Member}
    {name : String} {fields : Fields} (hpm : m.member? patch name = some pm)
    (hom : m.member? original name = some om)
    (hconforms : Conforms m.catalogue (.object original.type original.fields))
    (hvalue : m.Unambiguous (.owner original.type) value)
    (hleads : Leads m.options value [name] (.array items))
    (htake : ∀ e ∈ Directive.elements m.options items, m.RunsTake e.directives)
    (h : m.Reconciles full node (Directive.elements m.options items) patch original pm om s
      fields s') :
    m.Enacts (.array items) [name] (m.shown? patch [name])
      (.object original.type original.fields) (.object original.type fields) := by
  obtain ⟨members, inner, rfl, hmember, -, hinner⟩ := leads_cons_iff.1 hleads
  obtain ⟨-, rfl⟩ := leads_nil_iff.1 hinner
  have hnil : Directive.elements m.options items = [] → items = [] := by
    simp [Directive.elements_eq_map]
  cases h with
  | @ignored patchType type _ patchItems olds _ i hpatch _ htarget _ _ helements =>
    obtain ⟨-, hslot⟩ := number?_of_target? hom htarget
    have holds := (hconforms.field hslot).2
    rw [hnil helements, shown?_collection hpm hpatch]
    have htakes : m.Takes (some (.slot (.collection patchType patchItems)))
        (some (.slot (.collection type olds))) (some (.slot (.collection type olds)))
        (.array []) :=
      Takes.of_tracks (r := ⟨full, om.name, patchType, patchItems, type⟩) (.inl rfl) .nil
        (.untouched holds)
    have henacts : m.Enacts (.array []) [name] (some (.slot (.collection patchType patchItems)))
        (.object original.type original.fields)
        (.object original.type (original.fields.set i (.collection type olds))) :=
      .of_target? hom htarget rfl holds htakes
    rwa [set_eq_self hslot] at henacts
  | @run patchType type _ patchItems olds _ found left i t u v state hpatch _ htarget hclears hrun
      hdrops =>
    obtain ⟨hnumber, hslot⟩ := number?_of_target? hom htarget
    have holds := (hconforms.field hslot).2
    have hstart := hclears.eq_or_eq_nil hempty
    have hfound : Conforms m.catalogue (.collection type found) := by
      rcases hstart with rfl | ⟨-, rfl⟩
      · exact holds
      · exact .collection (by simp)
    have hitems : ∀ item ∈ items, m.Unambiguous (.owner type) item :=
      fun item hitem => (hvalue.field hmember hconforms hnumber hslot).item hitem
    obtain ⟨tracked, htracks, hhandles⟩ := hrun.tracks hwell hempty rfl hitems htake
      (.untouched hfound)
    obtain rfl : left = state.items := by
      cases hdrops with
      | kept => rfl
      | dropped hdrops =>
        rw [hempty] at hdrops
        cases hdrops
    rw [shown?_collection hpm hpatch]
    exact .of_target? hom htarget rfl htracks.conforms
      (.of_tracks (hstart.imp_right fun h => ⟨hnil h.1, h.2⟩) hhandles htracks)

theorem ArrayAssigns.enacts (hwell : m.catalogue.WellFormed) (hempty : m.configuration = .empty)
    {full : Path} {node : Json} {items : List Json} {patch original : Node} {name : String}
    {fields : Fields}
    (hconforms : Conforms m.catalogue (.object original.type original.fields))
    (hvalue : m.Unambiguous (.owner original.type) value)
    (hleads : Leads m.options value [name] (.array items))
    (htake : ∀ e ∈ Directive.elements m.options items, m.RunsTake e.directives)
    (h : m.ArrayAssigns full node (Directive.elements m.options items) patch original name s
      fields s') :
    m.Enacts (.array items) [name] (m.shown? patch [name])
      (.object original.type original.fields) (.object original.type fields) := by
  cases h with
  | identity hid => exact .of_identity (by simpa using hid)
  | emptied _ _ _ hom _ helements _ htarget hcell =>
    obtain rfl : items = [] := by simpa [Directive.elements_eq_map] using helements
    exact .of_target? hom htarget rfl .leaf (.emptied (.of_decode? hcell))
  | assigned _ _ hom _ hlist hassign =>
    refine hassign.enacts hempty fun om hom' hkind hnil => ?_
    -- an empty array at a leaf is not assigned but empties it
    obtain rfl := Json.array.inj hnil
    obtain rfl := Option.some_inj.1 (hom.symm.trans hom')
    refine absurd ?_ (hlist hkind rfl)
    rw [hempty]
    rfl
  | reconciled _ hpm hom _ hreconcile =>
    exact hreconcile.enacts hwell hempty hpm hom hconforms hvalue hleads htake

/-! ## Directives -/

theorem DirectiveStep.enacts (hwell : m.catalogue.WellFormed)
    (hempty : m.configuration = .empty) {base path : List String} {patch original : Node}
    {fields : Fields} (hconforms : Conforms m.catalogue (.object original.type original.fields))
    (hvalue : m.Unambiguous (.owner original.type) value)
    (hleads : Leads m.options value path leaf)
    (htake : ∀ e ∈ (Directive.ofValue m.options path leaf).arrayElements, m.RunsTake e.directives)
    (h : m.DirectiveStep base patch original (.ofValue m.options path leaf) s fields s') :
    m.Enacts leaf path (m.shown? patch path) (.object original.type original.fields)
      (.object original.type fields) := by
  cases leaf with
  | array items =>
    cases h with
    | array hvisit =>
      exact hvisit.enacts hwell (fun hconforms hvalue hleads hact =>
        hact.enacts hwell hempty hconforms hvalue hleads htake) hconforms hvalue hleads
  | object members => cases hleads.isObject_eq_false
  | _ =>
    cases h with
    | identity hid =>
      cases path with
      | nil => cases hid
      | cons key rest => exact .of_identity hid
    | scalar _ hvisit =>
      exact hvisit.enacts hwell (fun _ _ _ hact => hact.enacts hempty (by simp)) hconforms hvalue
        hleads

/-- What the first directive writes is spared by the others, and the other way round. -/
theorem TakesOverAll.cons (hwell : m.catalogue.WellFormed) {directives : List Directive}
    {patch : Node} {type : TypeName} {fields mid made : Fields} {path : List String}
    (hconforms : Conforms m.catalogue (.object type fields))
    (hvalue : m.Unambiguous (.owner type) value) (hleads : Leads m.options value path leaf)
    (hnot : path ∉ directives.map Directive.path)
    (henacts : m.Enacts leaf path (m.shown? patch path) (.object type fields) (.object type mid))
    (h : m.TakesOverAll directives value patch type mid made) :
    m.TakesOverAll (.ofValue m.options path leaf :: directives) value patch type fields made := by
  have hfirst : ∀ other leaf', Leads m.options value other leaf' → other ≠ path →
      m.Spares other (.object type fields) (.object type mid) :=
    fun other leaf' hother hne => henacts.spares hwell hconforms hvalue hleads hother hne
  refine ⟨h.conforms, fun other leaf' hother hmem hid => ?_, fun other leaf' hother hother' => ?_,
    fun other hother => ?_⟩
  · by_cases hpath : other = path
    · subst hpath
      obtain rfl : leaf' = leaf := by
        rcases List.mem_cons.1 hmem with heq | hmem
        · simpa using congrArg Directive.node heq
        · exact absurd (List.mem_map.2 ⟨_, hmem, Directive.path_ofValue ..⟩) hnot
      exact (henacts.takes hid).congr (fun _ _ hitems => hitems)
        (h.spares other leaf' hother hnot).held
    · have hmem : Directive.ofValue m.options other leaf' ∈ directives := by
        rcases List.mem_cons.1 hmem with heq | hmem
        · have heq := congrArg Directive.path heq
          rw [Directive.path_ofValue, Directive.path_ofValue] at heq
          exact absurd heq hpath
        · exact hmem
      exact (h.takes other leaf' hother hmem hid).congr
        (hfirst other leaf' hother hpath).begun fun _ hspot => hspot
  · rw [List.map_cons, List.mem_cons, not_or, Directive.path_ofValue] at hother'
    exact (hfirst other leaf' hother hother'.1).trans (h.spares other leaf' hother hother'.2)
  · have hmeets := hother _ (List.mem_cons_self ..)
    rw [Directive.path_ofValue] at hmeets
    exact (henacts.spares_of_not_meets hwell hconforms hmeets).trans
      (h.spares_of_not_meets other fun d hd => hother d (List.mem_cons_of_mem _ hd))

/-- Directives that a value has take over what they mention, and no later one undoes it. -/
theorem runsTake (hwell : m.catalogue.WellFormed) (hempty : m.configuration = .empty)
    (directives : List Directive) : m.RunsTake directives := by
  induction directives using Directive.forall_of_elements with
  | nil =>
    intro value base patch type fields made s s' hconforms _ _ _ h
    obtain ⟨rfl, -⟩ := succeeds_runDirectives_nil.1 h
    exact ⟨hconforms, by simp, fun path _ _ _ => .refl m path _, fun path _ => .refl m path _⟩
  | cons directive directives hdirective ih =>
    intro value base patch type fields made s s' hconforms hvalue hmentions hnodup h
    obtain ⟨mid, t, hhead, htail⟩ := succeeds_runDirectives_cons.1 h
    obtain ⟨path, leaf, hleads, rfl⟩ := hmentions directive (List.mem_cons_self ..)
    rw [List.map_cons, List.nodup_cons, Directive.path_ofValue] at hnodup
    have henacts := (DirectiveStep.of_runDirective hhead).enacts hwell hempty hconforms hvalue
      hleads hdirective
    have hlater := ih (henacts.conforms hwell hconforms) hvalue
      (fun d hd => hmentions d (List.mem_cons_of_mem _ hd)) hnodup.2 htail
    exact hlater.cons hwell hconforms hvalue hleads hnodup.1 henacts

/-- After a merge without overrides each leaf of the payload has been taken over from the
patch. -/
theorem takes_merge {patch original : Node} {payload : Json} {minted : Nat} {report : Report}
    (hwell : m.catalogue.WellFormed) (hempty : m.configuration = .empty)
    (hconforms : Conforms m.catalogue (.object original.type original.fields))
    (hpayload : m.Unambiguous (.owner original.type) payload)
    (hok : (m.merge patch original payload minted).result = .ok report) :
    m.TakesAll payload patch (.object original.type original.fields)
      (.object original.type (m.merge patch original payload minted).original.fields) := by
  obtain ⟨members, made, s, rfl, hwalk, -, heq⟩ := Walks.of_merge hok
  rw [heq]
  exact (RunsTake.enters (runsTake hwell hempty _) hconforms hpayload hwalk).takes

end Merger

/-! ## A device that is named again -/

namespace Sample

/-- A merger of racks, which hold devices. -/
def racks : Merger :=
  .plain (fun name => if name = "Device" then device "" else rack "") fun _ => Uuid.nil

/-- A device with an identity and a name. -/
def deviceCalled (id : Nat) (name : String) : Fields :=
  [.leaf .uuid (.uuid ⟨id⟩), .leaf .text (.text name)]

/-- A rack with a key and some devices. -/
def keyedRack (key : Nat) (devices : List Fields) : Node :=
  ⟨"Rack", [.leaf .uuid (.uuid ⟨key⟩), .leaf .text (.text ""), .collection "Device" devices,
    .optional "Device" none]⟩

/-- A rack with some devices. -/
def rackOf (devices : List Fields) : Node :=
  ⟨"Rack", [.leaf .uuid (.uuid Uuid.nil), .leaf .text (.text ""), .collection "Device" devices,
    .optional "Device" none]⟩

/-- The names of the devices of a rack. -/
def deviceNames (n : Node) : List String :=
  match n.fields.drop 2 with
  | .collection _ devices :: _ => devices.filterMap fun device =>
      match device.drop 1 with
      | .leaf _ (.text name) :: _ => some name
      | _ => none
  | _ => []

/-- A rack with one device. -/
def oldRack : Node := rackOf [deviceCalled 10 "old"]

/-- A rack in which two devices have one identity. -/
def newRack : Node :=
  rackOf [deviceCalled 255 "first", deviceCalled 255 "second", deviceCalled 10 "other"]

/-- Elements that name the device of the old rack, add a device with its identity and its
name, and name the device that was added. -/
def deviceElements : List (List (String × Json)) :=
  [[("Id", .string "00000000-0000-0000-0000-00000000000a")],
    [("serialKey", .null), ("displayName", .null)],
    [("Id", .string "00000000-0000-0000-0000-0000000000ff"), ("displayName", .null)]]

/-- A payload with these elements. -/
def namesOfDevices : Json := .object [("devices", .array (deviceElements.map Json.object))]

/-- The report of what it changes. -/
def reportOfDevices : Report :=
  ⟨[⟨⟨["devices"]⟩, .added, some ⟨255⟩⟩, ⟨⟨["devices", "displayName"]⟩, .updated, none⟩]⟩

/-- Racks hold devices, and nothing else has a type of its own. -/
theorem racks_catalogue (type : TypeName) :
    racks.catalogue type = device "" ∨ racks.catalogue type = rack "" := by
  by_cases htype : type = "Device"
  · exact .inl (if_pos htype)
  · exact .inr (if_neg htype)

theorem racks_wellTyped : racks.catalogue.WellTyped := by
  intro type
  refine .of_forms rfl fun slot hslot => ?_
  rcases racks_catalogue type with hdevice | hrack
  · rw [hdevice] at hslot
    rcases List.mem_pair.1 hslot with rfl | rfl <;> exact .leaf
  · rw [hrack] at hslot
    simp only [Schema.initialFields, rack, Plan.identifiedSchema, Plan.schema, Plan.fields,
      List.map_cons, List.map_nil, List.mem_cons, List.not_mem_nil, or_false] at hslot
    rcases hslot with rfl | rfl | rfl | rfl
    · exact .leaf
    · exact .leaf
    · exact .collection (by simp)
    · exact .missing

theorem deviceCalled_typed (id : Nat) (name : String) :
    Typed racks.catalogue (.object "Device" (deviceCalled id name)) := by
  refine .of_forms rfl fun slot hslot => ?_
  rcases List.mem_pair.1 hslot with rfl | rfl <;> exact .leaf

theorem racks_wellFormed : racks.catalogue.WellFormed :=
  racks_wellTyped.wellFormed

theorem keyedRack_typed (key : Nat) {devices : List Fields}
    (h : ∀ device ∈ devices, Typed racks.catalogue (.object "Device" device)) :
    Typed racks.catalogue (.object "Rack" (keyedRack key devices).fields) := by
  refine .of_forms rfl fun slot hslot => ?_
  simp only [keyedRack, List.mem_cons, List.not_mem_nil, or_false] at hslot
  rcases hslot with rfl | rfl | rfl | rfl
  · exact .leaf
  · exact .leaf
  · exact .collection h
  · exact .missing

theorem oldRack_conforms : Conforms racks.catalogue (.object oldRack.type oldRack.fields) :=
  (keyedRack_typed 0 (by simp [deviceCalled_typed])).conforms

theorem namesOfDevices_unambiguous : racks.Unambiguous (.owner "Rack") namesOfDevices := by
  refine .of_owner (by decide) (by decide +kernel) fun a ha => ?_
  obtain rfl := List.mem_singleton.1 ha
  have hplace : racks.under (.owner "Rack") "devices" = .items "Device" := by decide +kernel
  rw [hplace]
  refine .array fun item hitem => ?_
  obtain ⟨members, hmembers, rfl⟩ := List.mem_map.1 hitem
  have hchecked : ∀ members ∈ deviceElements, (members.map (·.1)).Nodup ∧
      ∀ a ∈ members, ∀ b ∈ members, (racks.number? Member.writes "Device" a.1).isSome →
        racks.number? Member.writes "Device" a.1 = racks.number? Member.writes "Device" b.1 →
        a.1 = b.1 := by
    decide +kernel
  have hscalar : ∀ members ∈ deviceElements, ∀ a ∈ members, ∀ place,
      racks.Unambiguous place a.2 := by
    simp [deviceElements, -Prod.forall, Merger.Unambiguous.null, Merger.Unambiguous.string]
  obtain ⟨hkeys, hdenotes⟩ := hchecked members hmembers
  exact .of_owner hkeys hdenotes fun a ha => hscalar members hmembers a ha _

/-- It adds one device, and renames it afterwards. -/
theorem merge_namesOfDevices :
    (racks.merge newRack oldRack namesOfDevices 0).result = .ok reportOfDevices := by
  decide +kernel

end Sample

/-- The array names two identities, each of them once, and adds a device in between. The
device that it adds has the second identity, so it is named by the last element, and gets
the name of the first device with that identity and not of the one at its position. -/
theorem added_device_named_again :
    Sample.racks.Unambiguous (.owner "Rack") Sample.namesOfDevices ∧
      Sample.deviceElements.map (fun members =>
        (Intent.ofMembers Sample.racks.options ⟨["devices"]⟩ members).toOption) =
          [some (.update ⟨10⟩), some .add, some (.update ⟨255⟩)] ∧
      (Sample.racks.merge Sample.newRack Sample.oldRack Sample.namesOfDevices 0).result =
        .ok Sample.reportOfDevices ∧
      Sample.deviceNames Sample.newRack = ["first", "second", "other"] ∧
      Sample.deviceNames (Sample.racks.merge Sample.newRack Sample.oldRack
        Sample.namesOfDevices 0).original = ["old", "first"] ∧
      ¬ TakesOver (.text "second") .text (.text "first") := by
  refine ⟨Sample.namesOfDevices_unambiguous, by decide +kernel, Sample.merge_namesOfDevices,
    by decide +kernel, by decide +kernel, fun h => ?_⟩
  have hsame := h.same (.string "second") rfl rfl
  exact absurd hsame (by simp)

/-- Each element of that payload has its leaves taken over, save the name that the last one
gives to the added device again. -/
theorem takes_merge_racks :
    Sample.racks.catalogue.WellFormed ∧
      Conforms Sample.racks.catalogue (.object Sample.oldRack.type Sample.oldRack.fields) ∧
      Sample.racks.Unambiguous (.owner "Rack") Sample.namesOfDevices ∧
      (Sample.racks.merge Sample.newRack Sample.oldRack Sample.namesOfDevices 0).result =
        .ok Sample.reportOfDevices ∧
      Sample.racks.TakesAll Sample.namesOfDevices Sample.newRack
        (.object Sample.oldRack.type Sample.oldRack.fields)
        (.object Sample.oldRack.type (Sample.racks.merge Sample.newRack Sample.oldRack
          Sample.namesOfDevices 0).original.fields) :=
  ⟨Sample.racks_wellFormed, Sample.oldRack_conforms, Sample.namesOfDevices_unambiguous,
    Sample.merge_namesOfDevices,
    Merger.takes_merge Sample.racks_wellFormed rfl Sample.oldRack_conforms
      Sample.namesOfDevices_unambiguous Sample.merge_namesOfDevices⟩

end SelectiveMerge
