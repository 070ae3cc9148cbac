import SelectiveMerge.Proofs.Requests
import SelectiveMerge.Proofs.Typing
import SelectiveMerge.Proofs.Writes

/-!
# Collections that one key addresses

An array of a payload settles the collection that it leads to, whatever else the payload
says: the other values lead elsewhere. What was in the collection to begin with is there
when the array is run, what the array leaves is there in the end, and nothing else is asked
for, or recorded, at the path of the collection.

* `Merger.Meets` — two lists of keys do not lead past each other
* `Writes.spares_of_not_meets`, `runDirectives_spares` — what is written elsewhere
* `Elsewhere` — nothing was asked for and nothing was recorded at a path
* `Settles` — what an array does to a collection
* `Merger.Addresses`, `Walks.exists_settlesAlone` — one array of a payload settles a
  collection
-/

namespace SelectiveMerge

namespace Merger

open Run (Succeeds)

/-- Two keys denote the same field of an object, or the same entry of a dictionary. -/
def SameKey (m : Merger) : Place → String → String → Prop
  | .owner type, key, other =>
      m.number? Member.writes type key = m.number? Member.writes type other
  | .value, key, other | .items _, key, other | .entries _, key, other => key = other

/-- One of two lists of keys leads through what the other one leads to, or both lead to the
same. -/
def Meets (m : Merger) : Place → List String → List String → Prop
  | place, key :: rest, other :: rest' =>
      m.SameKey place key other ∧ Meets m (m.under place key) rest rest'
  | _, [], _ => True
  | _, _ :: _, [] => True

variable {m : Merger} {s t u s' : Session} {patch original : Node} {base path : List String}

theorem sameKey_refl (place : Place) (key : String) : m.SameKey place key key := by
  cases place <;> rfl

@[simp] theorem meets_nil_left (place : Place) (other : List String) :
    m.Meets place [] other := by
  rw [Meets]
  trivial

@[simp] theorem meets_nil_right (place : Place) (keys : List String) :
    m.Meets place keys [] := by
  cases keys <;> rw [Meets] <;> trivial

theorem meets_cons_iff {place : Place} {key other : String} {rest rest' : List String} :
    m.Meets place (key :: rest) (other :: rest') ↔
      m.SameKey place key other ∧ m.Meets (m.under place key) rest rest' := by
  rw [Meets]

/-- Keys meet all keys that begin with them. -/
theorem meets_of_beginsWith {place : Place} {keys other : List String} (h : keys <+: other) :
    m.Meets place keys other := by
  induction keys generalizing place other with
  | nil => exact meets_nil_left ..
  | cons key rest ih =>
    obtain ⟨later, rfl⟩ := h
    exact meets_cons_iff.2 ⟨sameKey_refl .., ih (List.prefix_append ..)⟩

/-! ## Writing elsewhere -/

/-- A write spares all that its keys do not meet. -/
theorem Writes.spares_of_not_meets (hwell : m.catalogue.WellFormed)
    {before after : Option Spot} {old new : Slot} (h : m.Writes path before after old new)
    (hold : Conforms m.catalogue old) {other : List String}
    (hmeets : ¬ m.Meets old.place path other) : m.Spares other old new := by
  induction h generalizing other with
  | here => exact absurd (meets_nil_left ..) hmeets
  | idle => exact .refl m other _
  | @member name rest _ _ type fields i old new hnumber hslot hrest ih =>
    cases other with
    | nil => exact absurd (meets_nil_right ..) hmeets
    | cons key other =>
      -- keys of the same member part further on, others part here
      by_cases hkey : m.number? Member.writes type key = some i
      · refine .set hkey hslot (ih (hold.field hslot).2 fun hinner => hmeets ?_)
        have hunder : m.under (.owner type) name = old.place :=
          under_of_number? hold hnumber hslot
        exact meets_cons_iff.2 ⟨hnumber.trans hkey.symm, hunder ▸ hinner⟩
      · exact .set_of_ne hkey
  | @optional key rest _ _ type present fields made s t hensures hinner ih =>
    cases other with
    | nil => exact absurd (meets_nil_right ..) hmeets
    | cons key' other => exact .optional hensures (ih (hensures.conforms hwell hold.present) hmeets)
  | @entry key rest _ _ type entries fields made s t hensures hinner ih =>
    cases other with
    | nil => exact absurd (meets_nil_right ..) hmeets
    | cons key' other =>
      by_cases hkey : key' = key
      · subst hkey
        refine .insert hensures (ih (hensures.conforms hwell fun _ => hold.entry) fun hinner =>
          hmeets (meets_cons_iff.2 ⟨rfl, hinner⟩))
      · exact .insert_of_ne hkey
  | @cell key type entries cell =>
    cases other with
    | nil => exact absurd (meets_nil_right ..) hmeets
    | cons key' other =>
      refine .insert_leaf_of_ne ?_
      rintro rfl
      exact hmeets (meets_cons_iff.2 ⟨rfl, meets_nil_left ..⟩)

variable {name : String} {pm om : Member} {fields : Fields}

/-- A member that gets another content is written to. -/
theorem writes_of_target? {i : Nat} {old : Slot} (new : Slot)
    (hom : m.member? original name = some om) (htarget : original.target? om = some (i, old)) :
    m.Writes [name] (some (.slot old)) (some (.slot new))
      (.object original.type original.fields)
      (.object original.type (original.fields.set i new)) := by
  obtain ⟨hnumber, hslot⟩ := number?_of_target? hom htarget
  exact .member hnumber hslot .here

theorem Assigns.writes (hactions : m.configuration.NoActions) {full : Path}
    (h : m.Assigns full patch original name s fields s') :
    ∃ before after, m.Writes [name] before after (.object original.type original.fields)
      (.object original.type fields) := by
  cases h with
  | identity => exact ⟨_, _, .idle⟩
  | custom _ haction =>
    rw [hactions.setAction?_eq_none] at haction
    cases haction
  | leaf _ _ _ hom _ _ _ _ htarget => exact ⟨_, _, writes_of_target? _ hom htarget⟩
  | unset _ _ _ hom _ _ _ htarget => exact ⟨_, _, writes_of_target? _ hom htarget⟩

theorem ArrayAssigns.writes (hactions : m.configuration.NoActions) {full : Path} {node : Json}
    {elements : List Element}
    (h : m.ArrayAssigns full node elements patch original name s fields s') :
    ∃ before after, m.Writes [name] before after (.object original.type original.fields)
      (.object original.type fields) := by
  cases h with
  | identity => exact ⟨_, _, .idle⟩
  | emptied _ _ _ hom _ _ _ htarget => exact ⟨_, _, writes_of_target? _ hom htarget⟩
  | assigned _ _ _ _ _ hassign => exact hassign.writes hactions
  | reconciled _ _ hom _ hreconcile =>
    cases hreconcile with
    | ignored => exact ⟨_, _, .idle⟩
    | run _ _ htarget => exact ⟨_, _, writes_of_target? _ hom htarget⟩

theorem Visits.writes {full : Path}
    {act : Node → Node → String → Session → Fields → Session → Prop}
    (hact : ∀ {p o : Node} {name : String} {s s' : Session} {f : Fields}, act p o name s f s' →
      ∃ before after, m.Writes [name] before after (.object o.type o.fields) (.object o.type f))
    (h : m.Visits full act path patch original s fields s') :
    ∃ before after, m.Writes path before after (.object original.type original.fields)
      (.object original.type fields) := by
  induction h with
  | member h => exact hact h
  | entry _ hom _ htarget hassign =>
    obtain ⟨hnumber, hslot⟩ := number?_of_target? hom htarget
    cases hassign with
    | intro => exact ⟨_, _, .member hnumber hslot .cell⟩
  | hop hhop hrest _ ih =>
    obtain ⟨before, after, hwrites⟩ := ih
    exact ⟨before, after, hhop.writes hrest hwrites⟩

/-- A directive writes at the end of its keys. -/
theorem DirectiveStep.writes (hactions : m.configuration.NoActions) {directive : Directive}
    (h : m.DirectiveStep base patch original directive s fields s') :
    ∃ before after, m.Writes directive.path before after
      (.object original.type original.fields) (.object original.type fields) := by
  cases h with
  | @identity path _ _ hid =>
    cases path with
    | nil => cases hid
    | cons key rest => exact ⟨_, _, .idle⟩
  | scalar _ hvisit => exact hvisit.writes (Assigns.writes hactions)
  | array hvisit => exact hvisit.writes (ArrayAssigns.writes hactions)

/-- Directives spare what none of them meets. -/
theorem runDirectives_spares (hactions : m.configuration.NoActions)
    (hwell : m.catalogue.WellTyped) (hfactories : m.configuration.FactoriesTyped m.catalogue)
    {type : TypeName} {directives : List Directive} {made : Fields}
    (hfields : Typed m.catalogue (.object type fields))
    (hmeets : ∀ d ∈ directives, ¬ m.Meets (.owner type) d.path path)
    (h : Succeeds (runDirectives m base patch type directives fields) s made s') :
    m.Spares path (.object type fields) (.object type made) := by
  induction directives generalizing fields s with
  | nil =>
    obtain ⟨rfl, -⟩ := succeeds_runDirectives_nil.1 h
    exact .refl ..
  | cons directive directives ih =>
    obtain ⟨mid, t, hhead, htail⟩ := succeeds_runDirectives_cons.1 h
    have hstep := DirectiveStep.of_runDirective hhead
    obtain ⟨before, after, hwrites⟩ := hstep.writes hactions
    have hmid := hstep.typed hactions hwell hfactories
      (fun e _ => runsType hactions hwell hfactories _) hfields
    have hfirst := hwrites.spares_of_not_meets hwell.wellFormed hfields.conforms
      (hmeets directive (List.mem_cons_self ..))
    exact hfirst.trans (ih hmid (fun d hd => hmeets d (List.mem_cons_of_mem _ hd)) htail)

end Merger

/-! ## The record at a path -/

/-- The changes that were recorded at a path. -/
def Session.changesAt (s : Session) (full : Path) : List Change :=
  s.report.changes.filter fun c => c.path = full

/-- The requests that were sent about a path. -/
def Session.requestsAt (s : Session) (full : Path) : List Request :=
  s.requests.filter fun r => r.path = full

theorem Session.changesAt_noting {full : Path} {c : Change} (hpath : c.path = full)
    (s : Session) (request : Request) :
    ((s.asking request).noting c).changesAt full = s.changesAt full ++ [c] := by
  simp [Session.changesAt, hpath]

theorem Session.requestsAt_noting {full : Path} {request : Request} (hpath : request.path = full)
    (s : Session) (c : Change) :
    ((s.asking request).noting c).requestsAt full = s.requestsAt full ++ [request] := by
  simp [Session.requestsAt, hpath]

/-- Nothing was asked for and nothing was recorded at a path. -/
structure Elsewhere (full : Path) (s s' : Session) : Prop where
  changesAt_eq : s'.changesAt full = s.changesAt full
  requestsAt_eq : s'.requestsAt full = s.requestsAt full
  minted_le : s.minted ≤ s'.minted

namespace Elsewhere

variable {full : Path} {s t s' : Session}

theorem refl (full : Path) (s : Session) : Elsewhere full s s := ⟨rfl, rfl, le_rfl⟩

theorem trans (h : Elsewhere full s t) (h' : Elsewhere full t s') : Elsewhere full s s' :=
  ⟨h'.changesAt_eq.trans h.changesAt_eq, h'.requestsAt_eq.trans h.requestsAt_eq,
    h.minted_le.trans h'.minted_le⟩

/-- What is inside of some place is elsewhere than at a path that is not inside of it. -/
theorem of_extends {m : Merger} (hactions : m.configuration.NoActions) {base : List String}
    (h : Extends m base s s') (hbase : ¬ base <+: full.segments) : Elsewhere full s s' := by
  obtain ⟨⟨-, hminted⟩, changes, sent, hchanges, hsent, hstretch⟩ := h
  have hnot : ∀ path : Path, base <+: path.segments → path ≠ full := by
    rintro path hinside rfl
    exact hbase hinside
  have hnone : changes.filter (fun c => c.path = full) = [] :=
    List.filter_eq_nil_iff.2 fun c hc => by
      simpa using hnot c.path (hstretch.changes_inside hactions c hc)
  have hunasked : (sent.map SentRequest.request).filter (fun r => r.path = full) = [] := by
    refine List.filter_eq_nil_iff.2 fun r hr => ?_
    obtain ⟨x, hx, rfl⟩ := List.mem_map.1 hr
    simpa using hnot x.request.path (hstretch.inside x hx)
  refine ⟨?_, ?_, hminted⟩
  · rw [Session.changesAt, hchanges, List.filter_append, hnone, List.append_nil]
    rfl
  · rw [Session.requestsAt, Session.requests, hsent, List.map_append, List.filter_append,
      hunasked, List.append_nil]
    rfl

end Elsewhere

namespace Merger

open Run (Succeeds)

variable {m : Merger} {s t u s' : Session} {patch original : Node} {base path : List String}
  {name : String} {fields : Fields} {full : Path} {innerPatch inner : Node}
  {keys : List String} {put : Fields → Fields}

theorem Makes.elsewhere {type : TypeName} (h : m.Makes type s fields s') (full : Path) :
    Elsewhere full s s' := by
  cases h with
  | plain => exact .refl full s
  | fresh => exact ⟨rfl, rfl, Nat.le_succ _⟩

theorem Ensures.elsewhere {type : TypeName} {found : Option Fields}
    (h : m.Ensures type s found fields s') (full : Path) : Elsewhere full s s' := by
  cases h with
  | found => exact .refl full s
  | made hmade => exact hmade.elsewhere full

theorem Hop.elsewhere (h : m.Hop patch original s keys innerPatch inner put s') (full : Path) :
    Elsewhere full s s' := by
  cases h with
  | object => exact .refl full s
  | optional _ _ _ _ hensure | entry _ _ _ _ _ hensure => exact hensure.elsewhere full

/-- Directives are elsewhere than at a path that is not inside of where they lead. -/
theorem runDirectives_elsewhere (hactions : m.configuration.NoActions) {type : TypeName}
    {directives : List Directive} {made : Fields}
    (hpaths : ∀ d ∈ directives, ¬ base ++ d.path <+: full.segments)
    (h : Succeeds (runDirectives m base patch type directives fields) s made s') :
    Elsewhere full s s' := by
  induction directives generalizing fields s with
  | nil =>
    obtain ⟨-, rfl⟩ := succeeds_runDirectives_nil.1 h
    exact .refl ..
  | cons directive directives ih =>
    obtain ⟨mid, t, hhead, htail⟩ := succeeds_runDirectives_cons.1 h
    have hstep := (DirectiveStep.of_runDirective hhead).extends_path fun e _ => m.runsExtend _
    have hfirst := Elsewhere.of_extends hactions hstep (hpaths _ (List.mem_cons_self ..))
    exact hfirst.trans (ih (fun d hd => hpaths d (List.mem_cons_of_mem _ hd)) htail)

/-- Keys that do not meet a path do not lead to what it is inside of. -/
theorem not_prefix_of_not_meets {place : Place} {keys : List String}
    (h : ¬ m.Meets place keys path) : ¬ base ++ keys <+: base ++ path := by
  rw [List.prefix_append_right_inj]
  exact fun hprefix => h (meets_of_beginsWith hprefix)

/-! ## What an array does to a collection -/

/-- What an array does to the items of a collection, and what it leaves of them. -/
inductive Settles (m : Merger) (r : Reconciliation) (elements : List Element)
    (items : List Fields) (s : Session) : List Fields → Session → Prop where
  /-- An empty array says nothing about a collection of items with identities. -/
  | ignored (hidentified : (m.catalogue r.type).identified = true)
      (hforce : m.configuration.forcesReplace r.full = false) (helements : elements = []) :
      Settles m r elements items s items s
  | run {node : Json} {patch original : Node} {member : Member} {found left : List Fields}
      {t u v : Session} {state : Reconciled}
      (hclears : m.Clears r.full node patch original member
        (!(m.catalogue r.type).identified &&
          (elements.isEmpty || m.configuration.forcesReplace r.full)) items s found t)
      (hrun : m.ElementsRun r 0 elements ⟨found, []⟩ t state u)
      (hdrops : m.Drops r (m.configuration.forcesReplace r.full &&
        (m.catalogue r.type).identified) state u left v) :
      Settles m r elements items s left v

/-- At the end of a path, which leads to a collection in the patch as well, an array settles
a collection. -/
structure SettlesAt (m : Merger) (r : Reconciliation) (elements : List Element) (patch : Node)
    (path : List String) (items left : List Fields) (old new : Slot) (s s' : Session) : Prop where
  shown : m.shown? patch path = some (.slot (.collection r.patchType r.patchItems))
  typed : Typed m.catalogue (.collection r.type items)
  settles : m.Settles r elements items s left s'
  writes : m.Writes path (some (.slot (.collection r.type items)))
    (some (.slot (.collection r.type left))) old new

variable {elements : List Element} {type : TypeName} {pm om : Member}

/-- Where keys lead to a collection, one is declared. -/
theorem place_of_begun? (hwell : m.catalogue.WellTyped) {items : List Fields} {slot : Slot}
    (hslot : Typed m.catalogue slot)
    (hbegun : m.begun? slot path = some (.slot (.collection type items))) :
    path.foldl m.under slot.place = .items type := by
  induction path generalizing slot with
  | nil =>
    rw [begun?, spot?] at hbegun
    obtain rfl := Spot.slot.inj (Option.some_inj.1 hbegun)
    rfl
  | cons key rest ih =>
    -- an optional object is read like an object, with what its type holds at first if missing
    have hobject : ∀ {owner : TypeName} {fields : Fields},
        Typed m.catalogue (.object owner fields) →
        m.begun? (.object owner fields) (key :: rest) = some (.slot (.collection type items)) →
        (key :: rest).foldl m.under (.owner owner) = .items type := by
      intro owner fields hfields hbegun
      rw [begun?, spot?_object_cons] at hbegun
      obtain ⟨content, hcontent, hrest⟩ := Option.bind_eq_some_iff.1 hbegun
      obtain ⟨i, hnumber, hfield⟩ := Option.bind_eq_some_iff.1 hcontent
      rw [List.foldl_cons, under_of_number? hfields.conforms hnumber hfield]
      exact ih (hfields.field hfield).2 hrest
    cases slot with
    | object => exact hobject hslot hbegun
    | optional owner present =>
      rw [begun?, spot?_optional_cons] at hbegun
      obtain ⟨fields, hfields, hrest⟩ := Option.bind_eq_some_iff.1 hbegun
      refine hobject ?_ hrest
      cases present with
      | none =>
        obtain rfl := Option.some_inj.1 hfields
        exact hwell owner
      | some => exact hslot.present fields hfields
    | dictionary owner entries =>
      rw [begun?, spot?_dictionary_cons] at hbegun
      obtain ⟨fields, hfields, hrest⟩ := Option.bind_eq_some_iff.1 hbegun
      have htyped : Typed m.catalogue (.object owner fields) := by
        cases hfind : Dictionary.find? key entries with
        | none =>
          rw [hfind] at hfields
          obtain rfl := Option.some_inj.1 hfields
          exact hwell owner
        | some =>
          rw [hfind] at hfields
          obtain rfl := Option.some_inj.1 hfields
          exact hslot.entry hfind
      exact ih htyped hrest
    | leafDictionary =>
      rw [begun?, spot?_leafDictionary_cons] at hbegun
      split at hbegun
      · obtain ⟨cell, -, hentry⟩ := Option.map_eq_some_iff.1 hbegun
        cases hentry
      · cases hbegun
    | leaf | collection =>
      rw [begun?, spot?] at hbegun
      cases hbegun

/-- A reconciliation settles the collection in the field that its member goes to. -/
theorem Reconciles.settles (hderived : m.catalogue.Derived) {node : Json}
    (hom : m.member? original name = some om)
    (h : m.Reconciles full node elements patch original pm om s fields s') :
    ∃ (r : Reconciliation) (items left : List Fields) (i : Nat), r.full = full ∧
      patch.read? pm = some (.collection r.patchType r.patchItems) ∧
      original.target? om = some (i, .collection r.type items) ∧
      m.Settles r elements items s left s' ∧
      fields = original.fields.set i (.collection r.type left) := by
  cases h with
  | @ignored patchType type _ patchItems items _ i hpatch hread htarget hidentified hforce
      helements =>
    obtain ⟨rfl, -⟩ := collection_of_target? hderived hom htarget hread
    exact ⟨⟨full, om.name, patchType, patchItems, type⟩, items, items, i, rfl, hpatch, htarget,
      .ignored hidentified hforce helements, (set_eq_self (Node.target?_eq_some.1 htarget).2).symm⟩
  | @run patchType type _ patchItems items _ _ left i _ _ _ _ hpatch hread htarget hclears hrun
      hdrops =>
    obtain ⟨rfl, -⟩ := collection_of_target? hderived hom htarget hread
    exact ⟨⟨full, om.name, patchType, patchItems, type⟩, items, left, i, rfl, hpatch, htarget,
      .run hclears hrun hdrops, rfl⟩

/-- An array that comes to a collection settles it. -/
theorem ArrayAssigns.settles (hactions : m.configuration.NoActions)
    (hderived : m.catalogue.Derived) {node : Json} (hid : isIdentityKey name = false)
    (horiginal : Typed m.catalogue (.object original.type original.fields))
    (hplace : m.under (.owner original.type) name = .items type)
    (h : m.ArrayAssigns full node elements patch original name s fields s') :
    ∃ r items left, r.full = full ∧ r.type = type ∧
      m.SettlesAt r elements patch [name] items left (.object original.type original.fields)
        (.object original.type fields) s s' := by
  cases h with
  | identity htrue =>
    rw [hid] at htrue
    cases htrue
  | emptied _ _ _ hom _ _ _ htarget =>
    rw [under_of_target? horiginal.conforms hom htarget] at hplace
    cases hplace
  | assigned _ _ _ _ _ hassign =>
    exact absurd hplace (hassign.under_ne_items hactions hid horiginal.conforms)
  | reconciled _ hpm hom _ hreconcile =>
    obtain ⟨r, items, left, i, hfull, hpatch, htarget, hsettles, rfl⟩ :=
      hreconcile.settles hderived hom
    rw [under_of_target? horiginal.conforms hom htarget] at hplace
    obtain ⟨-, hslot⟩ := Node.target?_eq_some.1 htarget
    exact ⟨r, items, left, hfull, Place.items.inj hplace, shown?_collection hpm hpatch,
      (horiginal.field hslot).2, hsettles, writes_of_target? _ hom htarget⟩

/-- What is declared behind the keys of a hop is declared for the object that it leads to. -/
theorem Hop.foldl_under (h : m.Hop patch original s keys innerPatch inner put s')
    (hconforms : Conforms m.catalogue (.object original.type original.fields))
    (rest : List String) :
    (keys ++ rest).foldl m.under (.owner original.type) =
      rest.foldl m.under (.owner inner.type) := by
  cases h with
  | object _ hom _ htarget | optional _ hom _ htarget | entry _ hom _ htarget =>
    rw [List.foldl_append, List.foldl_cons, under_of_target? hconforms hom htarget]
    rfl

/-- So does one at the end of a navigation. -/
theorem Visits.settles (hactions : m.configuration.NoActions)
    (hwell : m.catalogue.WellTyped) (hderived : m.catalogue.Derived) {node : Json}
    (h : m.Visits full (m.ArrayAssigns full node elements) path patch original s fields s')
    (hid : (path.getLast?).any isIdentityKey = false)
    (horiginal : Typed m.catalogue (.object original.type original.fields))
    (hplace : path.foldl m.under (.owner original.type) = .items type) :
    ∃ r items left t, r.full = full ∧ r.type = type ∧ Elsewhere full s t ∧
      m.SettlesAt r elements patch path items left (.object original.type original.fields)
        (.object original.type fields) t s' := by
  induction h with
  | member h =>
    obtain ⟨r, items, left, hfull, htype, hsettles⟩ := h.settles hactions hderived
      (by simpa using hid) horiginal hplace
    exact ⟨r, items, left, _, hfull, htype, .refl full _, hsettles⟩
  | entry _ hom _ htarget =>
    rw [List.foldl_cons, under_of_target? horiginal.conforms hom htarget] at hplace
    cases hplace
  | hop hhop hrest _ ih =>
    rw [List.getLast?_append_of_ne_nil _ hrest] at hid
    rw [hhop.foldl_under horiginal.conforms] at hplace
    obtain ⟨r, items, left, t, hfull, htype, helse, hsettles⟩ :=
      ih hid (hhop.typed hwell horiginal).1 hplace
    exact ⟨r, items, left, t, hfull, htype, (hhop.elsewhere full).trans helse,
      (hhop.shown?_eq hrest).trans hsettles.shown, hsettles.typed, hsettles.settles,
      hhop.writes hrest hsettles.writes⟩

/-! ## One array of a payload -/

/-- A payload for an object of a type has an array at a path, and no other value of it leads
there, through there, or to what is on the way. The last key is not called `id`: such a key
stands for the identity of an object and leads to no member, so its value is skipped. -/
structure Addresses (m : Merger) (type : TypeName) (members : List (String × Json))
    (path : List String) (items : List Json) : Prop where
  not_identity : (path.getLast?).any isIdentityKey = false
  alone : ∃ before after, Directive.ofMembers m.options members =
      before ++ .array path (Directive.elements m.options items) :: after ∧
    ∀ d ∈ before ++ after, ¬ m.Meets (.owner type) d.path path

/-- A walk over a payload with an array that alone leads to a collection: the array settles
the collection that was there to begin with, what it leaves is there in the end, and before
and after it the walk was elsewhere. -/
structure SettlesAlone (m : Merger) (r : Reconciliation) (elements : List Element)
    (patch original : Node) (path : List String) (items left : List Fields) (made : Fields)
    (s t u s' : Session) : Prop where
  shown : m.shown? patch path = some (.slot (.collection r.patchType r.patchItems))
  begun : m.begun? (.object original.type original.fields) path =
    some (.slot (.collection r.type items))
  typed : Typed m.catalogue (.collection r.type items)
  before : Elsewhere r.full s t
  settles : m.Settles r elements items t left u
  after : Elsewhere r.full u s'
  held : m.held? (.object original.type made) path = some (.slot (.collection r.type left))

/-- One array of a payload settles the collection that it alone leads to. -/
theorem Walks.exists_settlesAlone (hactions : m.configuration.NoActions)
    (hwell : m.catalogue.WellTyped) (hderived : m.catalogue.Derived)
    (hfactories : m.configuration.FactoriesTyped m.catalogue)
    {members : List (String × Json)} {items : List Json} {made : Fields} {olds : List Fields}
    (horiginal : Typed m.catalogue (.object original.type original.fields))
    (haddresses : m.Addresses original.type members path items)
    (hbegun : m.begun? (.object original.type original.fields) path =
      some (.slot (.collection type olds)))
    (h : m.Walks base patch original members s made s') :
    ∃ r left t u, r.full = ⟨base ++ path⟩ ∧ r.type = type ∧
      m.SettlesAlone r (Directive.elements m.options items) patch original path olds left made
        s t u s' := by
  obtain ⟨before, after, heq, halone⟩ := haddresses.alone
  unfold Walks at h
  rw [heq] at h
  obtain ⟨mid, t, hbefore, hrest⟩ := succeeds_runDirectives_append.1 h
  obtain ⟨next, u, hhead, hafter⟩ := succeeds_runDirectives_cons.1 hrest
  have hnotBefore := fun d hd => halone d (List.mem_append_left after hd)
  have hnotAfter := fun d hd => halone d (List.mem_append_right before hd)
  have hmid := runsType hactions hwell hfactories _ horiginal hbefore
  have hstep := DirectiveStep.of_runDirective hhead
  have hnext := hstep.typed hactions hwell hfactories
    (fun e _ => runsType hactions hwell hfactories _) hmid
  cases hstep with
  | array hvisit =>
    obtain ⟨r, found, left, v, hfull, htype, helse, hsettles⟩ := hvisit.settles hactions hwell
      hderived haddresses.not_identity hmid (place_of_begun? hwell horiginal hbegun)
    subst htype
    -- what the array finds was there to begin with, since the values before it lead elsewhere
    have hfound := (runDirectives_spares hactions hwell hfactories horiginal hnotBefore
      hbefore).begun _ _ (hsettles.writes.begun?_eq rfl)
    obtain ⟨-, rfl⟩ := Slot.collection.inj
      (Spot.slot.inj (Option.some_inj.1 (hfound.symm.trans hbegun)))
    have hheld := (runDirectives_spares hactions hwell hfactories hnext hnotAfter hafter).held _
      (hsettles.writes.held?_eq rfl)
    rw [← hfull] at helse
    refine ⟨r, left, v, u, hfull, rfl, hsettles.shown, hbegun, hsettles.typed, ?_,
      hsettles.settles, ?_, hheld⟩
    · refine (runDirectives_elsewhere hactions (fun d hd => ?_) hbefore).trans helse
      rw [hfull]
      exact not_prefix_of_not_meets (hnotBefore d hd)
    · refine runDirectives_elsewhere hactions (fun d hd => ?_) hafter
      rw [hfull]
      exact not_prefix_of_not_meets (hnotAfter d hd)

end Merger

end SelectiveMerge
