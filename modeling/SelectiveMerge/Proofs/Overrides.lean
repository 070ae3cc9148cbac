import SelectiveMerge.Proofs.Frame
import SelectiveMerge.Proofs.Stops
import SelectiveMerge.Sample.Override

/-!
# Overrides of assignments

An override that sets what is at a path replaces the assignment of a leaf there: the action of
the first such override is run with the two owners, the validator is not asked, and the change
that is recorded is the override's own. This holds for scalars and for arrays, at every depth
and inside items that are updated or added. An entry of a dictionary of leaves is no member of
an owner. It is assigned as if there were no override.

* `Configuration.Sets`, `Configuration.SetsFirst` — overrides that cover a path
* `Stop.Overridden` — an override replaces what would be done at a stop
* `Merger.Heeded`, `Merger.HeedsOverrides` — overrides in a whole merge
* `Merger.heedsOverrides_merge` — a merge that succeeds heeds its overrides
* `entry_ignores_override` — an override for an entry of a dictionary of leaves
-/

namespace SelectiveMerge

/-! ## Which override holds -/

namespace Configuration

/-- Some override sets what is at the path, which it covers by its exact path or by a range. -/
def Sets (c : Configuration) (full : Path) : Prop :=
  ∃ e ∈ c.entries, ∃ action, e.override = .set action ∧ e.matcher.covers full = true

/-- The action is that of the first override that sets what is at the path. -/
def SetsFirst (c : Configuration) (full : Path) (action : SetAction) : Prop :=
  ∃ earlier e later, c.entries = earlier ++ e :: later ∧ e.override = .set action ∧
    e.matcher.covers full = true ∧
    ∀ e' ∈ earlier, ∀ action', e'.override = .set action' → e'.matcher.covers full = false

theorem actionAt?_eq_some_iff {full : Path} {e : ConfigurationEntry} {action : SetAction} :
    actionAt? full e = some action ↔ e.override = .set action ∧ e.matcher.covers full = true := by
  unfold actionAt?
  cases e.override with
  | set action' =>
    dsimp only
    by_cases hcovers : e.matcher.covers full = true
    · rw [if_pos hcovers, Option.some_inj, Override.set.injEq]
      exact ⟨fun h => ⟨h, hcovers⟩, fun h => h.1⟩
    · rw [if_neg hcovers]
      exact ⟨(nomatch ·), fun h => (hcovers h.2).elim⟩
  | factory | forceReplace => exact ⟨(nomatch ·), fun h => nomatch h.1⟩

theorem setAction?_eq_some_iff {c : Configuration} {full : Path} {action : SetAction} :
    c.setAction? full = some action ↔ c.SetsFirst full action := by
  have hnone (e : ConfigurationEntry) : actionAt? full e = none ↔
      ∀ action', e.override = .set action' → e.matcher.covers full = false := by
    rw [Option.eq_none_iff_forall_ne_some]
    refine forall_congr' fun action' => ?_
    rw [Ne, actionAt?_eq_some_iff, not_and, Bool.not_eq_true]
  unfold setAction?
  rw [List.findSome?_eq_some_iff]
  constructor
  · rintro ⟨earlier, e, later, hsplit, hat, hbefore⟩
    obtain ⟨hset, hcovers⟩ := actionAt?_eq_some_iff.1 hat
    exact ⟨earlier, e, later, hsplit, hset, hcovers, fun e' he' => (hnone e').1 (hbefore e' he')⟩
  · rintro ⟨earlier, e, later, hsplit, hset, hcovers, hbefore⟩
    exact ⟨earlier, e, later, hsplit, actionAt?_eq_some_iff.2 ⟨hset, hcovers⟩,
      fun e' he' => (hnone e').2 (hbefore e' he')⟩

/-- Where something is set there is a first override that does so. -/
theorem Sets.exists_first {c : Configuration} {full : Path} (h : c.Sets full) :
    ∃ action, c.SetsFirst full action := by
  obtain ⟨e, he, action, hset, hcovers⟩ := h
  have hsome : (c.setAction? full).isSome = true := by
    unfold setAction?
    rw [List.findSome?_isSome_iff]
    exact ⟨e, he, by rw [actionAt?_eq_some_iff.2 ⟨hset, hcovers⟩]; rfl⟩
  obtain ⟨first, hfirst⟩ := Option.isSome_iff_exists.1 hsome
  exact ⟨first, setAction?_eq_some_iff.1 hfirst⟩

end Configuration

/-! ## An override at a stop -/

/-- The action replaces what would be done at a stop: the owner gets the fields that the action
makes of the two owners, nothing is asked, and one change is recorded, the override's own. -/
structure Stop.Overridden (stop : Stop) (full : Path) (action : SetAction) : Prop where
  made : action stop.owner stop.patch = .ok stop.made
  sent : stop.finished.sent = stop.started.sent
  changes : stop.finished.report.changes = stop.started.report.changes ++ [⟨full, .custom, none⟩]

namespace Merger

variable {m : Merger} {s s' : Session} {patch original : Node} {name : String} {fields : Fields}
  {full : Path} {action : SetAction}

/-- The owners have the last keys of the path that led to them. -/
theorem Arrives.exists_append {keys last : List String} {p o : Node} {put : Fields → Fields}
    (h : m.Arrives keys patch original s p o last put s') : ∃ before, keys = before ++ last := by
  induction h with
  | member => exact ⟨[], rfl⟩
  | entry => exact ⟨[], rfl⟩
  | @hop keys _ _ _ _ _ _ _ _ _ _ _ _ _ _ _ _ ih =>
    obtain ⟨before, rfl⟩ := ih
    exact ⟨keys ++ before, (List.append_assoc ..).symm⟩

theorem Assigns.of_setAction (hid : isIdentityKey name = false)
    (haction : m.configuration.setAction? full = some action)
    (h : m.Assigns full patch original name s fields s') :
    action original patch = .ok fields ∧ s' = s.noting ⟨full, .custom, none⟩ := by
  cases h with
  | identity htrue =>
    rw [hid] at htrue
    cases htrue
  | custom _ haction' hrun =>
    obtain rfl := Option.some_inj.1 (haction.symm.trans haction')
    exact ⟨hrun, rfl⟩
  | leaf _ hnone | unset _ hnone =>
    rw [haction] at hnone
    cases hnone

/-- An override holds for arrays too, also for the empty one, unless it is a collection that
they come to. -/
theorem ArrayAssigns.of_setAction {node : Json} {elements : List Element} {om : Member}
    (hid : isIdentityKey name = false) (haction : m.configuration.setAction? full = some action)
    (hom : m.member? original name = some om) (hkind : om.kind ≠ .collection)
    (h : m.ArrayAssigns full node elements patch original name s fields s') :
    action original patch = .ok fields ∧ s' = s.noting ⟨full, .custom, none⟩ := by
  cases h with
  | identity htrue =>
    rw [hid] at htrue
    cases htrue
  | emptied _ hnone =>
    rw [haction] at hnone
    cases hnone
  | assigned _ _ _ _ _ hassigns => exact hassigns.of_setAction hid haction
  | reconciled _ _ hom' hcollection =>
    obtain rfl := Option.some_inj.1 (hom.symm.trans hom')
    exact absurd hcollection hkind

/-- What overrides do at the stop for a value. A leaf that is a member of the owner is left to
the first override that covers the full path. An entry of a dictionary of leaves is assigned in
any case. If the value is an array that comes to a collection, all elements but removals have
walks of their own. -/
structure Heeded (m : Merger) (w : Walk) (path : List String) (value : Json) (stop : Stop) :
    Prop where
  last : (∃ name, stop.last = [name]) ∨ ∃ name key, stop.last = [name, key]
  leaf : ∀ name om, stop.last = [name] → m.member? stop.owner name = some om → om.kind = .leaf →
    m.configuration.Sets ⟨w.base ++ path⟩ →
    ∃ action, m.configuration.SetsFirst ⟨w.base ++ path⟩ action ∧
      stop.Overridden ⟨w.base ++ path⟩ action
  entry : ∀ name key, stop.last = [name, key] →
    m.EntryAssigns ⟨w.base ++ path⟩ stop.patch stop.owner name key stop.arrived stop.made
      stop.finished
  elements : ∀ items name om, value = .array items → stop.last = [name] →
    m.member? stop.owner name = some om → om.kind = .collection →
    ∀ position item, items[position]? = some item → ∃ members intent, item = .object members ∧
      Intent.ofMembers m.options ⟨w.base ++ path⟩ members = .ok intent ∧
      ((∃ id, intent = .remove id) ∨ ∃ w', w.Inner m path items stop position w')

end Merger

namespace Walk

variable {m : Merger} {w : Walk} {path : List String} {value : Json} {stop : Stop}

/-- A leaf at which a walk stops is left to an override that covers its path. -/
theorem StopsAt.overridden (h : w.StopsAt m path value stop)
    (hacts : stop.Acts m ⟨w.base ++ path⟩ value) {name : String} {om : Member}
    (hlast : stop.last = [name]) (hid : isIdentityKey name = false)
    (hom : m.member? stop.owner name = some om) (hkind : om.kind = .leaf) {action : SetAction}
    (haction : m.configuration.setAction? ⟨w.base ++ path⟩ = some action) :
    stop.Overridden ⟨w.base ++ path⟩ action := by
  obtain ⟨minted, harrived⟩ := h.arrives.eq_minted
  have hcustom : action stop.owner stop.patch = .ok stop.made ∧
      stop.finished = stop.arrived.noting ⟨⟨w.base ++ path⟩, .custom, none⟩ := by
    cases hacts with
    | scalar _ hname hassigns =>
      obtain rfl := List.singleton_inj.1 (hlast.symm.trans hname)
      exact hassigns.of_setAction hid haction
    | array hname hassigns =>
      obtain rfl := List.singleton_inj.1 (hlast.symm.trans hname)
      exact hassigns.of_setAction hid haction hom (by rw [hkind]; simp)
    | entry hentry =>
      rw [hlast] at hentry
      cases hentry
  refine ⟨hcustom.1, ?_, ?_⟩
  · rw [hcustom.2, harrived]
    rfl
  · rw [hcustom.2, harrived]
    rfl

/-- A walk heeds overrides at each value that its keys lead to, save those called `id`. -/
theorem exists_heeded (hw : w.Runs m) (hleads : Leads m.options (.object w.members) path value)
    (hid : (path.getLast?).any isIdentityKey = false) :
    ∃ stop, w.StopsAt m path value stop ∧ m.Heeded w path value stop := by
  obtain ⟨stop, hstop, hacts⟩ := exists_stop hw hleads hid
  obtain ⟨before, hpath⟩ := hstop.arrives.exists_append
  have hname {name : String} (hlast : stop.last = [name]) : isIdentityKey name = false := by
    rw [hpath, hlast, List.getLast?_concat] at hid
    exact hid
  refine ⟨stop, hstop, ?_, fun name om hlast hom hkind hsets => ?_, fun name key hlast => ?_,
    fun items name om hvalue hlast hom hkind position item hitem => ?_⟩
  · cases hacts with
    | scalar _ hlast | array hlast => exact .inl ⟨_, hlast⟩
    | entry hlast => exact .inr ⟨_, _, hlast⟩
  · obtain ⟨action, hfirst⟩ := hsets.exists_first
    exact ⟨action, hfirst, hstop.overridden hacts hlast (hname hlast) hom hkind
      (Configuration.setAction?_eq_some_iff.2 hfirst)⟩
  · cases hacts with
    | scalar _ hmember | array hmember =>
      rw [hlast] at hmember
      cases hmember
    | entry hentry hassigns =>
      obtain ⟨rfl, hkey⟩ := List.cons_eq_cons.1 (hlast.symm.trans hentry)
      obtain rfl := List.singleton_inj.1 hkey
      exact hassigns
  · subst hvalue
    exact hacts.exists_inner hlast (hname hlast) hom hkind hitem

end Walk

/-! ## A whole merge -/

/-- The walk over the payload of a merge that succeeds. -/
structure Walk.OfMerge (w : Walk) (m : Merger) (patch original : Node) (payload : Json)
    (minted : Nat) : Prop where
  base_eq : w.base = []
  patch_eq : w.patch = patch
  original_eq : w.original = original
  payload_eq : payload = .object w.members
  before_eq : w.before = Session.start minted
  merge_eq : m.merge patch original payload minted =
    ⟨.ok w.after.report, ⟨original.type, w.made⟩, w.after.sent, w.after.minted⟩

namespace Merger

/-- In the walk over the payload and in all walks that it encloses, overrides are heeded at each
value that keys lead to, save those called `id`. What is done there is on record at the end:
the requests, and the changes as well unless it is inside of an item that is being added. -/
def HeedsOverrides (m : Merger) (patch original : Node) (payload : Json) (minted : Nat) : Prop :=
  ∃ top : Walk, top.OfMerge m patch original payload minted ∧ top.after.populating = 0 ∧
    ∀ w, Relation.ReflTransGen (Walk.Encloses m) top w →
      ∀ path value, Leads m.options (.object w.members) path value →
        (path.getLast?).any isIdentityKey = false →
        ∃ stop, w.StopsAt m path value stop ∧ m.Heeded w path value stop ∧
          stop.finished.Precedes top.after

/-- A merge that succeeds heeds its overrides. -/
theorem heedsOverrides_merge {m : Merger} {patch original : Node} {payload : Json} {minted : Nat}
    {report : Report} (hok : (m.merge patch original payload minted).result = .ok report) :
    m.HeedsOverrides patch original payload minted := by
  obtain ⟨members, made, s, rfl, hwalk, -, houtcome⟩ := Walks.of_merge hok
  have hpopulating : s.populating = 0 := (m.runsExtend _ hwalk).counters.1
  have htop : Walk.Runs ⟨[], patch, original, members, Session.start minted, made, s⟩ m := hwalk
  refine ⟨⟨[], patch, original, members, Session.start minted, made, s⟩,
    ⟨rfl, rfl, rfl, rfl, rfl, houtcome⟩, hpopulating, fun w hw path value hleads hid => ?_⟩
  obtain ⟨hruns, hprecedes⟩ := Walk.runs_of_encloses htop hw
  obtain ⟨stop, hstop, hheeded⟩ := Walk.exists_heeded hruns hleads hid
  exact ⟨stop, hstop, hheeded, hstop.precedes.trans hprecedes⟩

end Merger

/-! ## Names in capital letters, and tallies -/

namespace Sample

/-- A merger of trees that writes the names of children in capital letters. -/
def capitalGrove : Merger :=
  { grove with configuration := ⟨[⟨.range ⟨["Children"]⟩ ⟨["Name"]⟩, .set fun original patch =>
      .ok (setTextAt 1 (Text.upper (textAt 1 patch.fields)) original.fields)⟩]⟩ }

/-- A merger of dictionaries of numbers with an override for the entry `a`, which is to stay. -/
def tallies : Merger :=
  { Merger.plain (fun _ => Plan.schema "" "KLeafMap"
      [Plan.leafDictionary "m" (LeafType.signed 64) .ordered]) fun _ => Uuid.nil with
    configuration := ⟨[⟨.exact ⟨["m", "a"]⟩, .set keepOwner⟩]⟩ }

/-- A dictionary of numbers with one entry. -/
def tally (n : Int) : Node := ⟨"KLeafMap", [.leafDictionary (LeafType.signed 64) [("a", .int n)]]⟩

/-- The number at the entry. -/
def tallied? (n : Node) : Option Int :=
  match n.fields with
  | [.leafDictionary _ [("a", .int n)]] => some n
  | _ => none

/-- A payload that names the entry. -/
def entryOfTally : Json := .object [("m", .object [("a", .null)])]

end Sample

/-- The name of the elm is left to the override. -/
theorem heedsOverrides_merge_capitalGrove :
    (Sample.capitalGrove.merge Sample.renamed Sample.oakAndElm Sample.nameOfElm 0).result =
        .ok ⟨[⟨⟨["Children", "Name"]⟩, .custom, none⟩]⟩ ∧
      Sample.capitalGrove.HeedsOverrides Sample.renamed Sample.oakAndElm Sample.nameOfElm 0 := by
  have hok : (Sample.capitalGrove.merge Sample.renamed Sample.oakAndElm Sample.nameOfElm
      0).result = .ok ⟨[⟨⟨["Children", "Name"]⟩, .custom, none⟩]⟩ := by
    decide +kernel
  exact ⟨hok, Merger.heedsOverrides_merge hok⟩

/-- The entry is covered by an override that leaves it as it is, but it is asked for and
assigned. -/
theorem entry_ignores_override :
    Sample.tallies.configuration.Sets ⟨["m", "a"]⟩ ∧
      (Sample.tallies.merge (Sample.tally 2) (Sample.tally 1) Sample.entryOfTally 0).result =
        .ok ⟨[⟨⟨["m", "a"]⟩, .updated, none⟩]⟩ ∧
      (Sample.tallies.merge (Sample.tally 2) (Sample.tally 1) Sample.entryOfTally
        0).requests.length = 1 ∧
      Sample.tallied? (Sample.tallies.merge (Sample.tally 2) (Sample.tally 1) Sample.entryOfTally
        0).original = some 2 :=
  ⟨⟨_, List.mem_singleton.2 rfl, _, rfl, by decide +kernel⟩, by decide +kernel, by decide +kernel,
    by decide +kernel⟩

end SelectiveMerge
