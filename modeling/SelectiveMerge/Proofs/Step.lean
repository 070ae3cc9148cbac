import SelectiveMerge.Merge.Outcome
import SelectiveMerge.Proofs.Run

/-!
# The steps of a successful merge

What each step of a merge does when it succeeds, as relations between the owner and
the record before it and after it, with one constructor for each way to succeed.
Properties of merges that succeed are proved by cases on these relations, not by
opening the definitions of the steps.

* `Assigns`, `AssignsEntry` — an assignment of a member, and of a dictionary entry
* `Hop`, `Visits` — one hop of a navigation, and a whole navigation
* `Reconciles`, `ArrayAssigns` — an array at a collection, and at any member
* `ElementStep`, `ElementsRun` — an element of an array, and a list of them
* `DirectiveStep` — a directive
-/

namespace SelectiveMerge

/-- No override runs an action of its own. -/
def Configuration.NoActions (c : Configuration) : Prop :=
  ∀ e ∈ c.entries, ∀ action, e.override ≠ .set action

theorem Configuration.noActions_empty : Configuration.empty.NoActions := by
  rintro e ⟨⟩

theorem Configuration.NoActions.setAction?_eq_none {c : Configuration} (h : c.NoActions)
    (full : Path) : c.setAction? full = none := by
  unfold Configuration.setAction?
  refine List.findSome?_eq_none_iff.2 fun e he => ?_
  unfold Configuration.actionAt?
  split
  · rename_i action haction
    exact absurd haction (h e he action)
  · rfl

/-- What an element asks for does not depend on where it is. -/
theorem Intent.ofMembers_eq_ok {options : Options} {full full' : Path}
    {members : List (String × Json)} {intent : Intent}
    (h : Intent.ofMembers options full members = .ok intent) :
    Intent.ofMembers options full' members = .ok intent := by
  unfold Intent.ofMembers at h ⊢
  dsimp only at h ⊢
  split at h
  · exact h
  · exact h
  · rename_i text _
    by_cases hblank : Text.isBlankText text = true
    · rw [if_pos hblank] at h ⊢
      exact h
    · rw [if_neg hblank] at h ⊢
      cases hid : Uuid.ofText? (Text.trim text) with
      | some id =>
        rw [hid] at h
        exact h
      | none =>
        rw [hid] at h
        cases h
  · cases h

namespace Merger

open Run (Succeeds)

variable {m : Merger} {s s' : Session}

/-! ## Assignments -/

/-- How an assignment of a member succeeds. -/
inductive Assigns (m : Merger) (full : Path) (patch original : Node) (name : String)
    (s : Session) : Fields → Session → Prop where
  /-- The identity is never assigned. -/
  | identity (hid : isIdentityKey name = true) :
      Assigns m full patch original name s original.fields s
  /-- An override runs instead. -/
  | custom {action : SetAction} {fields : Fields} (hid : isIdentityKey name = false)
      (haction : m.configuration.setAction? full = some action)
      (hrun : action original patch = .ok fields) :
      Assigns m full patch original name s fields (s.noting ⟨full, .custom, none⟩)
  /-- A leaf takes the value of the patch. -/
  | leaf {pm om : Member} {patchType type : LeafType} {source old cell : Cell} {value : Json}
      {i : Nat} (hid : isIdentityKey name = false)
      (haction : m.configuration.setAction? full = none)
      (hpm : m.member? patch name = some pm) (hom : m.member? original name = some om)
      (hread : patch.read? pm = some (.leaf patchType source)) (hkind : om.kind = .leaf)
      (hencode : source.encode = .ok value)
      (hgranted : m.validator.approves s.requests
        ⟨full, om.name, value, .updateProperty, some original, some patch⟩ = true)
      (htarget : original.target? om = some (i, .leaf type old))
      (hcoerce : Coercion.coerce? type value = some cell) :
      Assigns m full patch original name s (original.fields.set i (.leaf type cell))
        ((s.asking ⟨full, om.name, value, .updateProperty, some original, some patch⟩).noting
          ⟨full, .updated, none⟩)
  /-- An optional object that the patch lacks is unset. -/
  | unset {pm om : Member} {type : TypeName} {old : Option Fields} {i : Nat}
      (hid : isIdentityKey name = false) (haction : m.configuration.setAction? full = none)
      (hpm : m.member? patch name = some pm) (hom : m.member? original name = some om)
      (hread : patch.read? pm = some (.object none)) (hkind : om.kind = .optionalObject)
      (hgranted : m.validator.approves s.requests
        ⟨full, om.name, .null, .updateProperty, some original, some patch⟩ = true)
      (htarget : original.target? om = some (i, .optional type old)) :
      Assigns m full patch original name s (original.fields.set i (.optional type none))
        ((s.asking ⟨full, om.name, .null, .updateProperty, some original, some patch⟩).noting
          ⟨full, .updated, none⟩)

/-- A leaf that has a JSON form succeeds in having it, whatever its faults would be
called. -/
theorem encode_mapError_ok {ε : Type} {f : EncodeFault → ε} {source : Cell} {value : Json} :
    source.encode.mapError f = .ok value ↔ source.encode = .ok value := by
  cases source.encode with
  | ok encoded =>
    constructor
    · intro h
      have h : Except.ok encoded = Except.ok value := h
      cases h
      rfl
    · intro h
      cases h
      rfl
  | error fault =>
    constructor
    · intro h
      have h : Except.error (f fault) = Except.ok value := h
      cases h
    · intro h
      cases h

theorem Assigns.of_assignMember {full : Path} {node : Json} {patch original : Node}
    {name : String} {fields : Fields}
    (h : Succeeds (m.assignMember full node patch original name) s fields s') :
    m.Assigns full patch original name s fields s' := by
  unfold assignMember at h
  split at h
  · rename_i hid
    obtain ⟨rfl, rfl⟩ := Succeeds.pure_iff.1 h
    exact .identity hid
  · rename_i hid
    have hid : isIdentityKey name = false := by simpa using hid
    split at h
    · rename_i action haction
      simp only [Succeeds.bind_iff, Succeeds.ofExcept_iff, Succeeds.record_iff,
        Succeeds.pure_iff] at h
      obtain ⟨_, _, ⟨hrun, rfl⟩, _, _, rfl, rfl, rfl⟩ := h
      exact .custom hid haction hrun
    · rename_i haction
      simp only [Succeeds.bind_iff, Succeeds.ofExcept_iff] at h
      obtain ⟨⟨pm, om⟩, _, ⟨hpair, rfl⟩, h⟩ := h
      obtain ⟨hpm, hom⟩ := memberPair_eq_ok.1 hpair
      split at h
      · rename_i patchType source hread hkind
        simp only [assignLeaf, Succeeds.bind_iff, Succeeds.ofExcept_iff, validate_iff,
          encode_mapError_ok] at h
        obtain ⟨value, _, ⟨hencode, rfl⟩, _, _, ⟨hgranted, rfl⟩, h⟩ := h
        split at h
        · rename_i i type old htarget
          split at h
          · rename_i cell hcoerce
            simp only [Succeeds.bind_iff, Succeeds.record_iff, Succeeds.pure_iff] at h
            obtain ⟨_, _, rfl, rfl, rfl⟩ := h
            exact .leaf hid haction hpm hom hread hkind hencode hgranted htarget hcoerce
          · exact (Succeeds.fail_iff.1 h).elim
        · exact (Succeeds.fail_iff.1 h).elim
      · rename_i hread hkind
        simp only [unsetObject, Succeeds.bind_iff, validate_iff] at h
        obtain ⟨_, _, ⟨hgranted, rfl⟩, h⟩ := h
        split at h
        · rename_i i type old htarget
          simp only [Succeeds.bind_iff, Succeeds.record_iff, Succeeds.pure_iff] at h
          obtain ⟨_, _, rfl, rfl, rfl⟩ := h
          exact .unset hid haction hpm hom hread hkind hgranted htarget
        · exact (Succeeds.fail_iff.1 h).elim
      all_goals exact (Succeeds.fail_iff.1 h).elim

/-- How an assignment of an entry of a dictionary of leaves succeeds. -/
inductive AssignsEntry (m : Merger) (full : Path) (patchEntries : List (String × Cell))
    (type : LeafType) (entries : List (String × Cell)) (key : String) (s : Session) :
    List (String × Cell) → Session → Prop where
  | intro {source cell : Cell} {value : Json}
      (hsource : Dictionary.find? key patchEntries = some source)
      (hencode : source.encode = .ok value)
      (hgranted : m.validator.approves s.requests
        ⟨full, key, value, .updateProperty, none, none⟩ = true)
      (hcoerce : Coercion.coerce? type value = some cell) :
      AssignsEntry m full patchEntries type entries key s (Dictionary.insert key cell entries)
        ((s.asking ⟨full, key, value, .updateProperty, none, none⟩).noting
          ⟨full, .updated, none⟩)

theorem AssignsEntry.of_assignEntry {full : Path} {patchType type : LeafType}
    {patchEntries entries made : List (String × Cell)} {key : String}
    (h : Succeeds (m.assignEntry full patchType patchEntries type entries key) s made s') :
    m.AssignsEntry full patchEntries type entries key s made s' := by
  simp only [assignEntry, Succeeds.bind_iff, Succeeds.require_iff, Succeeds.ofExcept_iff,
    validate_iff, encode_mapError_ok] at h
  obtain ⟨source, _, ⟨hsource, rfl⟩, value, _, ⟨hencode, rfl⟩, _, _, ⟨hgranted, rfl⟩, h⟩ := h
  split at h
  · rename_i cell hcoerce
    simp only [Succeeds.bind_iff, Succeeds.record_iff, Succeeds.pure_iff] at h
    obtain ⟨_, _, rfl, rfl, rfl⟩ := h
    exact .intro hsource hencode hgranted hcoerce
  · exact (Succeeds.fail_iff.1 h).elim

/-! ## Navigation -/

/-- A hop of a navigation along the keys `keys`, from a pair of objects to a pair of
objects that they hold. The function puts new fields of the inner object back. -/
inductive Hop (m : Merger) (patch original : Node) (s : Session) :
    (keys : List String) → (innerPatch inner : Node) → (Fields → Fields) → Session → Prop where
  /-- Into an object that is always there. -/
  | object {name : String} {pm om : Member} {p : Node} {type : TypeName} {fields : Fields}
      {i : Nat} (hpm : m.member? patch name = some pm) (hom : m.member? original name = some om)
      (hread : patch.read? pm = some (.object (some p)))
      (htarget : original.target? om = some (i, .object type fields)) :
      Hop m patch original s [name] p ⟨type, fields⟩
        (fun made => original.fields.set i (.object type made)) s
  /-- Into an optional object, which is made when it is not set. -/
  | optional {name : String} {pm om : Member} {p : Node} {type : TypeName}
      {present : Option Fields} {fields : Fields} {i : Nat} {t : Session}
      (hpm : m.member? patch name = some pm) (hom : m.member? original name = some om)
      (hread : patch.read? pm = some (.object (some p)))
      (htarget : original.target? om = some (i, .optional type present))
      (hensure : m.Ensures type s present fields t) :
      Hop m patch original s [name] p ⟨type, fields⟩
        (fun made => original.fields.set i (.optional type (some made))) t
  /-- Into an entry of a dictionary, which is made when it is missing. -/
  | entry {name key : String} {pm om : Member} {patchType type : TypeName} {p fields : Fields}
      {patchEntries entries : List (String × Fields)} {i : Nat} {t : Session}
      (hpm : m.member? patch name = some pm) (hom : m.member? original name = some om)
      (hread : patch.read? pm = some (.dictionary patchType patchEntries))
      (htarget : original.target? om = some (i, .dictionary type entries))
      (hpatch : Dictionary.find? key patchEntries = some p)
      (hensure : m.Ensures type s (Dictionary.find? key entries) fields t) :
      Hop m patch original s [name, key] ⟨patchType, p⟩ ⟨type, fields⟩
        (fun made =>
          original.fields.set i (.dictionary type (Dictionary.insert key made entries))) t

/-- How a navigation along `rest` succeeds, when the visitor does `act`. -/
inductive Visits (m : Merger) (full : Path)
    (act : Node → Node → String → Session → Fields → Session → Prop) :
    (rest : List String) → (patch original : Node) → Session → Fields → Session → Prop where
  /-- The visitor is at the owner of the member named last. -/
  | member {name : String} {patch original : Node} {s s' : Session} {fields : Fields}
      (hact : act patch original name s fields s') :
      Visits m full act [name] patch original s fields s'
  /-- The last two keys name a dictionary of leaves and an entry of it. -/
  | entry {name key : String} {patch original : Node} {s s' : Session} {pm om : Member}
      {patchType type : LeafType} {patchEntries entries made : List (String × Cell)} {i : Nat}
      (hpm : m.member? patch name = some pm) (hom : m.member? original name = some om)
      (hread : patch.read? pm = some (.leafDictionary patchType patchEntries))
      (htarget : original.target? om = some (i, .leafDictionary type entries))
      (hassign : m.AssignsEntry full patchEntries type entries key s made s') :
      Visits m full act [name, key] patch original s
        (original.fields.set i (.leafDictionary type made)) s'
  | hop {keys rest : List String} {patch original innerPatch inner : Node} {s t s' : Session}
      {put : Fields → Fields} {made : Fields}
      (hhop : m.Hop patch original s keys innerPatch inner put t) (hrest : rest ≠ [])
      (hvisit : Visits m full act rest innerPatch inner t made s') :
      Visits m full act (keys ++ rest) patch original s (put made) s'

theorem Visits.of_visit {node : Json} {onMember : Node → Node → String → Run Fields}
    {full : Path} :
    {before rest : List String} → {patch original : Node} → {s s' : Session} → {fields : Fields} →
    full.segments = before ++ rest →
    Succeeds (m.visit node onMember before rest patch original) s fields s' →
    m.Visits full (fun p o name => Succeeds (onMember p o name)) rest patch original s fields s'
  | _, [], _, _, _, _, _, _, h => (Succeeds.fail_iff.1 h).elim
  | _, [_], _, _, _, _, _, _, h => .member h
  | before, name :: key :: rest, patch, original, s, s', fields, hfull, h => by
    unfold visit at h
    simp only [Succeeds.bind_iff, Succeeds.ofExcept_iff] at h
    obtain ⟨⟨pm, om⟩, _, ⟨hpair, rfl⟩, h⟩ := h
    obtain ⟨hpm, hom⟩ := memberPair_eq_ok.1 hpair
    split at h
    · rename_i p i type inner hread htarget
      simp only [Succeeds.bind_iff, Succeeds.pure_iff] at h
      obtain ⟨made, _, hmade, rfl, rfl⟩ := h
      exact .hop (.object hpm hom hread htarget) (by simp) (.of_visit (by simp [hfull]) hmade)
    · rename_i p i type present hread htarget
      simp only [Succeeds.bind_iff, Succeeds.pure_iff] at h
      obtain ⟨inner, t, hinner, made, _, hmade, rfl, rfl⟩ := h
      exact .hop (.optional hpm hom hread htarget (.of_ensure hinner)) (by simp)
        (.of_visit (by simp [hfull]) hmade)
    · exact (Succeeds.fail_iff.1 h).elim
    · exact (Succeeds.fail_iff.1 h).elim
    · rename_i patchType patchEntries i type entries hread htarget
      split at h
      · exact (Succeeds.fail_iff.1 h).elim
      · rename_i next rest
        simp only [Succeeds.bind_iff, Succeeds.require_iff, Succeeds.pure_iff] at h
        obtain ⟨p, _, ⟨hpatch, rfl⟩, inner, t, hinner, made, _, hmade, rfl, rfl⟩ := h
        exact .hop (.entry hpm hom hread htarget hpatch (.of_ensure hinner)) (by simp)
          (.of_visit (by simp [hfull]) hmade)
    · rename_i patchType patchEntries i type entries hread htarget
      split at h
      · simp only [Succeeds.bind_iff, Succeeds.pure_iff] at h
        obtain ⟨made, _, hmade, rfl, rfl⟩ := h
        have hassign := AssignsEntry.of_assignEntry hmade
        rw [← hfull] at hassign
        exact .entry hpm hom hread htarget hassign
      · exact (Succeeds.fail_iff.1 h).elim
    · split at h <;> exact (Succeeds.fail_iff.1 h).elim
    all_goals exact (Succeeds.fail_iff.1 h).elim

/-! ## Elements of an array -/

/-- How the object for a new item is made. -/
inductive MakesItem (m : Merger) (r : Reconciliation) (patchItem : Node) (s : Session) :
    Node → Session → Prop where
  | factory {make : ItemFactory} {item : Node}
      (hmake : m.configuration.itemFactory? r.full = some make)
      (hrun : make patchItem = .ok item) : MakesItem m r patchItem s item s
  | construct {fields : Fields} {t : Session}
      (hmake : m.configuration.itemFactory? r.full = none)
      (hmade : m.Makes r.type s fields t) : MakesItem m r patchItem s ⟨r.type, fields⟩ t

theorem MakesItem.of_freshItem {r : Reconciliation} {patchItem item : Node}
    (h : Succeeds (m.freshItem r patchItem) s item s') : m.MakesItem r patchItem s item s' := by
  unfold freshItem at h
  split at h
  · rename_i make hmake
    obtain ⟨hrun, rfl⟩ := Succeeds.ofExcept_iff.1 h
    exact .factory hmake hrun
  · rename_i hmake
    simp only [Succeeds.bind_iff, Succeeds.pure_iff] at h
    obtain ⟨fields, _, hmade, rfl, rfl⟩ := h
    exact .construct hmake (.of_construct hmade)

/-- How an element that is an object with these members succeeds. -/
inductive ElementStep (m : Merger) (r : Reconciliation) (position : Nat)
    (members : List (String × Json)) (directives : List Directive) (state : Reconciled)
    (s : Session) : Reconciled → Session → Prop where
  /-- A new item is made, populated without a change being recorded, and added. -/
  | add {patchItem fresh : Node} {fields : Fields} {t u : Session}
      (hintent : Intent.ofMembers m.options r.full members = .ok .add)
      (hpatch : Collection.item? r.patchType r.patchItems position = some patchItem)
      (hfresh : m.MakesItem r patchItem s fresh t) (htype : fresh.type = r.type)
      (hrun : Succeeds
        (runDirectives m r.full.segments patchItem fresh.type directives fresh.fields)
        { t with populating := t.populating + 1 } fields u)
      (hgranted : m.validator.approves u.requests ⟨r.full, r.property, .object members, .addItem,
        some ⟨fresh.type, fields⟩, some patchItem⟩ = true) :
      ElementStep m r position members directives state s
        ⟨state.items ++ [fields],
          ((m.catalogue r.type).identity? fields).toList ++ state.mentioned⟩
        ((({ u with report := t.report, populating := t.populating } : Session).asking
            ⟨r.full, r.property, .object members, .addItem, some ⟨fresh.type, fields⟩,
              some patchItem⟩).noting
          ⟨r.full, .added, (m.catalogue r.type).identity? fields⟩)
  /-- The item with the identity of the element is updated. -/
  | update {id : Uuid} {index : Nat} {item fields : Fields} {patchItem : Node} {t : Session}
      (hintent : Intent.ofMembers m.options r.full members = .ok (.update id))
      (hindex : m.catalogue.position? r.type state.items id = some index)
      (hitem : state.items[index]? = some item)
      (hpatch : m.catalogue.itemWithId? r.patchType r.patchItems id = some patchItem)
      (hrun : Succeeds (runDirectives m r.full.segments patchItem r.type directives item)
        s fields t) :
      ElementStep m r position members directives state s
        ⟨state.items.set index fields, id :: state.mentioned⟩ t
  /-- The item with the identity of the element is removed. -/
  | remove {id : Uuid} {index : Nat}
      (hintent : Intent.ofMembers m.options r.full members = .ok (.remove id))
      (hindex : m.catalogue.position? r.type state.items id = some index)
      (hgranted : m.validator.approves s.requests ⟨r.full, r.property, .object members,
        .removeItem, Collection.item? r.type state.items index,
        m.catalogue.itemWithId? r.patchType r.patchItems id⟩ = true) :
      ElementStep m r position members directives state s
        { state with items := state.items.eraseIdx index }
        ((s.asking ⟨r.full, r.property, .object members, .removeItem,
            Collection.item? r.type state.items index,
            m.catalogue.itemWithId? r.patchType r.patchItems id⟩).noting
          ⟨r.full, .removed, some id⟩)

theorem ElementStep.of_runElement {r : Reconciliation} {position : Nat}
    {members : List (String × Json)} {directives : List Directive} {state state' : Reconciled}
    (h : Succeeds (runElement m r position (.mk (.object members) directives) state) s state' s') :
    m.ElementStep r position members directives state s state' s' := by
  unfold runElement at h
  simp only [Succeeds.bind_iff, Succeeds.ofExcept_iff] at h
  obtain ⟨intent, _, ⟨hintent, rfl⟩, h⟩ := h
  cases intent with
  | add =>
    simp only [Succeeds.bind_iff, patchItemAt, Succeeds.require_iff, Succeeds.quietly_iff,
      pushItem, validate_iff] at h
    obtain ⟨patchItem, _, ⟨hpatch, rfl⟩, fresh, t, hfresh, fields, _, ⟨u, hrun, rfl⟩, _, _,
      ⟨hgranted, rfl⟩, h⟩ := h
    split at h
    · rename_i items hpush
      simp only [Succeeds.bind_iff, Succeeds.record_iff, Succeeds.pure_iff] at h
      obtain ⟨_, _, rfl, rfl, rfl⟩ := h
      unfold Collection.push at hpush
      split at hpush
      · rename_i htype
        obtain ⟨⟩ := hpush
        exact .add hintent hpatch (.of_freshItem hfresh) htype hrun hgranted
      · exact absurd hpush (by simp)
    · exact (Succeeds.fail_iff.1 h).elim
  | update id =>
    simp only [Succeeds.bind_iff, itemPair, Succeeds.require_iff, Succeeds.pure_iff] at h
    obtain ⟨_, _, ⟨index, _, ⟨hindex, rfl⟩, patchItem, _, ⟨hpatch, rfl⟩, item, _, ⟨hitem, rfl⟩,
      rfl, rfl⟩, fields, _, hrun, rfl, rfl⟩ := h
    exact .update hintent hindex hitem hpatch hrun
  | remove id =>
    simp only [removeItem, removeAt, Succeeds.bind_iff, Succeeds.require_iff, validate_iff,
      Succeeds.record_iff, Succeeds.pure_iff] at h
    obtain ⟨index, _, ⟨hindex, rfl⟩, _, _, ⟨_, _, ⟨hgranted, rfl⟩, _, _, rfl, rfl, rfl⟩, rfl,
      rfl⟩ := h
    exact .remove hintent hindex hgranted

/-- How a list of elements succeeds, of which `position` elements came before. -/
inductive ElementsRun (m : Merger) (r : Reconciliation) :
    (position : Nat) → List Element → Reconciled → Session → Reconciled → Session → Prop where
  | nil {position : Nat} {state : Reconciled} {s : Session} :
      ElementsRun m r position [] state s state s
  | cons {position : Nat} {members : List (String × Json)} {directives : List Directive}
      {elements : List Element} {state state' state'' : Reconciled} {s t u : Session}
      (hstep : m.ElementStep r position members directives state s state' t)
      (hrest : ElementsRun m r (position + 1) elements state' t state'' u) :
      ElementsRun m r position (.mk (.object members) directives :: elements) state s state'' u

theorem ElementsRun.of_runElements {r : Reconciliation} {position : Nat}
    {elements : List Element} {state state' : Reconciled}
    (hobjects : ∀ e ∈ elements, e.value.isObject = true)
    (h : Succeeds (runElements m r position elements state) s state' s') :
    m.ElementsRun r position elements state s state' s' := by
  induction elements generalizing position state s with
  | nil =>
    obtain ⟨rfl, rfl⟩ := Succeeds.pure_iff.1 h
    exact .nil
  | cons element elements ih =>
    unfold runElements at h
    simp only [Succeeds.bind_iff] at h
    obtain ⟨mid, t, hstep, hrest⟩ := h
    have hrest := ih (fun e he => hobjects e (List.mem_cons_of_mem _ he)) hrest
    have hobject := hobjects element (List.mem_cons_self ..)
    obtain ⟨value, directives⟩ := element
    cases value with
    | object members => exact .cons (.of_runElement hstep) hrest
    | _ => cases hobject

/-- All elements of an array that succeeds are objects. -/
theorem ElementsRun.isObject {r : Reconciliation} {position : Nat} {elements : List Element}
    {state state' : Reconciled} (h : m.ElementsRun r position elements state s state' s') :
    ∀ e ∈ elements, e.value.isObject = true := by
  induction h with
  | nil => simp
  | cons _ _ ih => exact List.forall_mem_cons.2 ⟨rfl, ih⟩

/-! ## Arrays -/

/-- What a collection holds when the first element is run: nothing if it is cleared
first, which is asked for, and recorded if there was something to clear. -/
inductive Clears (m : Merger) (full : Path) (node : Json) (patch original : Node)
    (member : Member) (clears : Bool) (items : List Fields) (s : Session) :
    List Fields → Session → Prop where
  | kept (hclears : clears = false) :
      Clears m full node patch original member clears items s items s
  | cleared (hclears : clears = true) (hitems : items ≠ [])
      (hgranted : m.validator.approves s.requests
        ⟨full, member.name, node, .updateProperty, some original, some patch⟩ = true) :
      Clears m full node patch original member clears items s []
        ((s.asking ⟨full, member.name, node, .updateProperty, some original, some patch⟩).noting
          ⟨full, .cleared, none⟩)
  | empty (hclears : clears = true) (hitems : items = [])
      (hgranted : m.validator.approves s.requests
        ⟨full, member.name, node, .updateProperty, some original, some patch⟩ = true) :
      Clears m full node patch original member clears items s []
        (s.asking ⟨full, member.name, node, .updateProperty, some original, some patch⟩)

/-- The removal of the items with an identity that was not mentioned, one by one. -/
inductive DropsUnmentioned (m : Merger) (r : Reconciliation) (mentioned : List Uuid) :
    List Fields → Session → List Fields → Session → Prop where
  | nil {s : Session} : DropsUnmentioned m r mentioned [] s [] s
  | kept {item : Fields} {items left : List Fields} {s t : Session}
      (hmentioned : ∀ id, (m.catalogue r.type).identity? item = some id → id ∈ mentioned)
      (hrest : DropsUnmentioned m r mentioned items s left t) :
      DropsUnmentioned m r mentioned (item :: items) s (item :: left) t
  | removed {item : Fields} {items left : List Fields} {s t : Session} {id : Uuid}
      (hid : (m.catalogue r.type).identity? item = some id) (hmentioned : id ∉ mentioned)
      (hgranted : m.validator.approves s.requests ⟨r.full, r.property, .null, .removeItem,
        some ⟨r.type, item⟩, m.catalogue.itemWithId? r.patchType r.patchItems id⟩ = true)
      (hrest : DropsUnmentioned m r mentioned items
        ((s.asking ⟨r.full, r.property, .null, .removeItem, some ⟨r.type, item⟩,
            m.catalogue.itemWithId? r.patchType r.patchItems id⟩).noting
          ⟨r.full, .removed, some id⟩) left t) :
      DropsUnmentioned m r mentioned (item :: items) s left t

theorem DropsUnmentioned.of_dropUnmentioned {r : Reconciliation} {mentioned : List Uuid}
    {items left : List Fields}
    (h : Succeeds (m.dropUnmentioned r mentioned items) s left s') :
    m.DropsUnmentioned r mentioned items s left s' := by
  induction items generalizing s left with
  | nil =>
    obtain ⟨rfl, rfl⟩ := Succeeds.pure_iff.1 h
    exact .nil
  | cons item items ih =>
    unfold dropUnmentioned at h
    split at h
    · rename_i id hid
      split at h
      · rename_i hmentioned
        simp only [Succeeds.bind_iff, Succeeds.pure_iff] at h
        obtain ⟨left, _, hrest, rfl, rfl⟩ := h
        refine .kept (fun other hother => ?_) (ih hrest)
        obtain rfl : id = other := by simpa [hid] using hother
        simpa using hmentioned
      · rename_i hmentioned
        simp only [Succeeds.bind_iff, validate_iff, Succeeds.record_iff] at h
        obtain ⟨_, _, ⟨hgranted, rfl⟩, _, _, rfl, hrest⟩ := h
        exact .removed hid (by simpa using hmentioned) hgranted (ih hrest)
    · rename_i hid
      simp only [Succeeds.bind_iff, Succeeds.pure_iff] at h
      obtain ⟨left, _, hrest, rfl, rfl⟩ := h
      exact .kept (fun other hother => by simp [hid] at hother) (ih hrest)

/-- What a collection holds after the last element was run: without the items that no
element mentioned if those are dropped. -/
inductive Drops (m : Merger) (r : Reconciliation) (drops : Bool) (state : Reconciled)
    (s : Session) : List Fields → Session → Prop where
  | kept (hdrops : drops = false) : Drops m r drops state s state.items s
  | dropped {items : List Fields} {t : Session} (hdrops : drops = true)
      (hrun : m.DropsUnmentioned r state.mentioned state.items s items t) :
      Drops m r drops state s items t

theorem Clears.of_clearItems {full : Path} {node : Json} {patch original : Node} {member : Member}
    {clears : Bool} {items found : List Fields} {t : Session} {u : Unit}
    (hask : Succeeds (m.askToClear full node patch original member clears) s u t)
    (h : Succeeds (clearItems full clears items) t found s') :
    m.Clears full node patch original member clears items s found s' := by
  cases clears with
  | false =>
    obtain ⟨-, rfl⟩ := Succeeds.pure_iff.1 hask
    obtain ⟨rfl, rfl⟩ := Succeeds.pure_iff.1 h
    exact .kept rfl
  | true =>
    obtain ⟨hgranted, rfl⟩ := validate_iff.1 hask
    unfold clearItems at h
    rw [if_pos rfl] at h
    split at h
    · rename_i hempty
      obtain ⟨rfl, rfl⟩ := Succeeds.pure_iff.1 h
      exact .empty rfl (by simpa using hempty) hgranted
    · rename_i hitems
      simp only [Succeeds.bind_iff, Succeeds.record_iff, Succeeds.pure_iff] at h
      obtain ⟨_, _, rfl, rfl, rfl⟩ := h
      exact .cleared rfl (by simpa using hitems) hgranted

theorem Drops.of_keepMentioned {r : Reconciliation} {drops : Bool} {state : Reconciled}
    {items : List Fields} (h : Succeeds (m.keepMentioned r drops state) s items s') :
    m.Drops r drops state s items s' := by
  cases drops with
  | false =>
    obtain ⟨rfl, rfl⟩ := Succeeds.pure_iff.1 h
    exact .kept rfl
  | true => exact .dropped rfl (.of_dropUnmentioned h)

theorem patchCollection_iff {full : Path} {patch : Node} {member : Member} {type : TypeName}
    {items : List Fields} :
    Succeeds (m.patchCollection full patch member) s (type, items) s' ↔
      patch.read? member = some (.collection type items) ∧ s = s' := by
  unfold patchCollection
  split
  · rename_i heq
    simp [Succeeds.pure_iff, heq]
  · rename_i hne heq
    rw [Succeeds.fail_iff, heq]
    simpa using fun h => (hne _ _ h).elim
  · rename_i heq
    simp [Succeeds.fail_iff, heq]

theorem itemsIdentified_iff {full : Path} {original : Node} {member : Member}
    {identified : Bool} :
    Succeeds (m.itemsIdentified full original member) s identified s' ↔
      ∃ type items, original.read? member = some (.collection type items) ∧
        (m.catalogue type).identified = identified ∧ s = s' := by
  unfold itemsIdentified
  split
  · rename_i type items heq
    simp [Succeeds.pure_iff, heq]
  · rename_i hne
    rw [Succeeds.fail_iff]
    simpa using fun type items h => (hne type items h).elim

/-- How the reconciliation of a collection succeeds. -/
inductive Reconciles (m : Merger) (full : Path) (node : Json) (elements : List Element)
    (patch original : Node) (pm om : Member) (s : Session) : Fields → Session → Prop where
  /-- An empty array says nothing about a collection of items with identities. -/
  | ignored {patchType type readType : TypeName} {patchItems items readItems : List Fields}
      {i : Nat} (hpatch : patch.read? pm = some (.collection patchType patchItems))
      (hread : original.read? om = some (.collection readType readItems))
      (htarget : original.target? om = some (i, .collection type items))
      (hidentified : (m.catalogue readType).identified = true)
      (hforce : m.configuration.forcesReplace full = false) (helements : elements = []) :
      Reconciles m full node elements patch original pm om s original.fields s
  | run {patchType type readType : TypeName} {patchItems items readItems found left : List Fields}
      {i : Nat} {t u v : Session} {state : Reconciled}
      (hpatch : patch.read? pm = some (.collection patchType patchItems))
      (hread : original.read? om = some (.collection readType readItems))
      (htarget : original.target? om = some (i, .collection type items))
      (hclears : m.Clears full node patch original om (!(m.catalogue readType).identified &&
        (elements.isEmpty || m.configuration.forcesReplace full)) items s found t)
      (hrun : m.ElementsRun ⟨full, om.name, patchType, patchItems, type⟩ 0 elements
        ⟨found, []⟩ t state u)
      (hdrops : m.Drops ⟨full, om.name, patchType, patchItems, type⟩
        (m.configuration.forcesReplace full && (m.catalogue readType).identified) state u left v) :
      Reconciles m full node elements patch original pm om s
        (original.fields.set i (.collection type left)) v

theorem Reconciles.of_reconcile {full : Path} {node : Json} {elements : List Element}
    {patch original : Node} {pm om : Member} {fields : Fields}
    (h : Succeeds (m.reconcile full node elements
      (fun r state => runElements m r 0 elements state) patch original pm om) s fields s') :
    m.Reconciles full node elements patch original pm om s fields s' := by
  unfold reconcile at h
  split at h
  · exact (Succeeds.fail_iff.1 h).elim
  · rename_i hstray
    have hobjects : ∀ e ∈ elements, e.value.isObject = true := by
      simpa using hstray
    simp only [Succeeds.bind_iff] at h
    obtain ⟨⟨patchType, patchItems⟩, _, hshows, identified, _, hasks, _, t, hask, h⟩ := h
    obtain ⟨hpatch, rfl⟩ := patchCollection_iff.1 hshows
    obtain ⟨readType, readItems, hread, rfl, rfl⟩ := itemsIdentified_iff.1 hasks
    split at h
    · rename_i i type items htarget
      split at h
      · rename_i hignored
        simp only [Bool.and_eq_true, List.isEmpty_iff, Bool.not_eq_true'] at hignored
        obtain ⟨⟨helements, hidentified⟩, hforce⟩ := hignored
        obtain ⟨rfl, rfl⟩ := Succeeds.pure_iff.1 h
        rw [hidentified] at hask
        obtain ⟨-, rfl⟩ := Succeeds.pure_iff.1 hask
        exact .ignored hpatch hread htarget hidentified hforce helements
      · simp only [Succeeds.bind_iff, Succeeds.pure_iff] at h
        obtain ⟨found, t, hclears, state, u, hrun, left, _, hdrops, rfl, rfl⟩ := h
        exact .run hpatch hread htarget (.of_clearItems hask hclears)
          (.of_runElements hobjects hrun) (.of_keepMentioned hdrops)
    · exact (Succeeds.fail_iff.1 h).elim

/-- How an array at a member succeeds. -/
inductive ArrayAssigns (m : Merger) (full : Path) (node : Json) (elements : List Element)
    (patch original : Node) (name : String) (s : Session) : Fields → Session → Prop where
  /-- The identity is never assigned. -/
  | identity (hid : isIdentityKey name = true) :
      ArrayAssigns m full node elements patch original name s original.fields s
  /-- The empty array empties a list. -/
  | emptied {pm om : Member} {type : LeafType} {old cell : Cell} {i : Nat}
      (hid : isIdentityKey name = false) (haction : m.configuration.setAction? full = none)
      (hpm : m.member? patch name = some pm) (hom : m.member? original name = some om)
      (hkind : om.kind = .leaf) (helements : elements = [])
      (hgranted : m.validator.approves s.requests
        ⟨full, om.name, node, .updateProperty, some original, some patch⟩ = true)
      (htarget : original.target? om = some (i, .leaf type old))
      (hcell : type.decode? (.array []) = some cell) :
      ArrayAssigns m full node elements patch original name s
        (original.fields.set i (.leaf type cell))
        ((s.asking ⟨full, om.name, node, .updateProperty, some original, some patch⟩).noting
          ⟨full, .cleared, none⟩)
  /-- What is no collection is assigned as a whole. -/
  | assigned {pm om : Member} {fields : Fields} {t : Session} (hid : isIdentityKey name = false)
      (hpm : m.member? patch name = some pm) (hom : m.member? original name = some om)
      (hkind : om.kind ≠ .collection)
      (helements : om.kind = .leaf → elements = [] → m.configuration.setAction? full ≠ none)
      (hassign : m.Assigns full patch original name s fields t) :
      ArrayAssigns m full node elements patch original name s fields t
  | reconciled {pm om : Member} {fields : Fields} {t : Session}
      (hid : isIdentityKey name = false)
      (hpm : m.member? patch name = some pm) (hom : m.member? original name = some om)
      (hkind : om.kind = .collection)
      (hreconcile : m.Reconciles full node elements patch original pm om s fields t) :
      ArrayAssigns m full node elements patch original name s fields t

theorem ArrayAssigns.of_arrayMember {full : Path} {node : Json} {elements : List Element}
    {patch original : Node} {name : String} {fields : Fields}
    (h : Succeeds (m.arrayMember full node elements
      (fun r state => runElements m r 0 elements state) patch original name) s fields s') :
    m.ArrayAssigns full node elements patch original name s fields s' := by
  unfold arrayMember at h
  split at h
  · rename_i hid
    obtain ⟨rfl, rfl⟩ := Succeeds.pure_iff.1 h
    exact .identity hid
  · rename_i hid
    have hid : isIdentityKey name = false := by simpa using hid
    simp only [Succeeds.bind_iff, Succeeds.ofExcept_iff] at h
    obtain ⟨⟨pm, om⟩, _, ⟨hpair, rfl⟩, h⟩ := h
    obtain ⟨hpm, hom⟩ := memberPair_eq_ok.1 hpair
    split at h
    · rename_i hclear
      obtain ⟨hkind, helements, haction⟩ := hclear
      simp only [clearList, Succeeds.bind_iff, validate_iff] at h
      obtain ⟨_, _, ⟨hgranted, rfl⟩, h⟩ := h
      split at h
      · rename_i i type old htarget
        split at h
        · rename_i cell hcell
          simp only [Succeeds.bind_iff, Succeeds.record_iff, Succeeds.pure_iff] at h
          obtain ⟨_, _, rfl, rfl, rfl⟩ := h
          exact .emptied hid (by simpa using haction) hpm hom hkind (by simpa using helements)
            hgranted htarget hcell
        · exact (Succeeds.fail_iff.1 h).elim
      · exact (Succeeds.fail_iff.1 h).elim
    · rename_i hclear
      split at h
      · rename_i hkind
        refine .assigned hid hpm hom hkind (fun hleaf helements haction => hclear ?_)
          (.of_assignMember h)
        exact ⟨hleaf, by simp [helements], by simp [haction]⟩
      · rename_i hkind
        exact .reconciled hid hpm hom (by simpa using hkind) (.of_reconcile h)

/-! ## Directives -/

/-- How a directive succeeds. -/
inductive DirectiveStep (m : Merger) (base : List String) (patch original : Node) :
    Directive → Session → Fields → Session → Prop where
  /-- A scalar at an identity says nothing. -/
  | identity {path : List String} {value : Json} {s : Session}
      (hid : (path.getLast?).any isIdentityKey = true) :
      DirectiveStep m base patch original (.scalar path value) s original.fields s
  | scalar {path : List String} {value : Json} {s t : Session} {fields : Fields}
      (hid : (path.getLast?).any isIdentityKey = false)
      (hvisit : m.Visits ⟨base ++ path⟩ (m.Assigns ⟨base ++ path⟩) path patch original s fields t) :
      DirectiveStep m base patch original (.scalar path value) s fields t
  | array {path : List String} {elements : List Element} {s t : Session} {fields : Fields}
      (hvisit : m.Visits ⟨base ++ path⟩
        (m.ArrayAssigns ⟨base ++ path⟩ (.array (elements.map Element.value)) elements)
        path patch original s fields t) :
      DirectiveStep m base patch original (.array path elements) s fields t

theorem Visits.mono {full : Path} {act act' : Node → Node → String → Session → Fields → Session → Prop}
    {rest : List String} {patch original : Node} {fields : Fields}
    (hact : ∀ {p o name s f s'}, act p o name s f s' → act' p o name s f s')
    (h : m.Visits full act rest patch original s fields s') :
    m.Visits full act' rest patch original s fields s' := by
  induction h with
  | member h => exact .member (hact h)
  | entry hpm hom hread htarget hassign => exact .entry hpm hom hread htarget hassign
  | hop hhop hrest _ ih => exact .hop hhop hrest ih

theorem DirectiveStep.of_runDirective {base : List String} {patch original : Node}
    {directive : Directive} {fields : Fields}
    (h : Succeeds (runDirective m base patch original directive) s fields s') :
    m.DirectiveStep base patch original directive s fields s' := by
  cases directive with
  | scalar path value =>
    unfold runDirective at h
    split at h
    · rename_i hid
      obtain ⟨rfl, rfl⟩ := Succeeds.pure_iff.1 h
      exact .identity hid
    · rename_i hid
      exact .scalar (by simpa using hid) ((Visits.of_visit rfl h).mono Assigns.of_assignMember)
  | array path elements =>
    unfold runDirective at h
    exact .array ((Visits.of_visit rfl h).mono ArrayAssigns.of_arrayMember)

/-- A list of directives succeeds when its head does and then its tail. -/
theorem succeeds_runDirectives_cons {base : List String} {patch : Node} {type : TypeName}
    {directive : Directive} {directives : List Directive} {fields made : Fields} :
    Succeeds (runDirectives m base patch type (directive :: directives) fields) s made s' ↔
      ∃ mid t, Succeeds (runDirective m base patch ⟨type, fields⟩ directive) s mid t ∧
        Succeeds (runDirectives m base patch type directives mid) t made s' := by
  rw [runDirectives, Succeeds.bind_iff]

theorem succeeds_runDirectives_nil {base : List String} {patch : Node} {type : TypeName}
    {fields made : Fields} :
    Succeeds (runDirectives m base patch type [] fields) s made s' ↔ fields = made ∧ s = s' := by
  rw [runDirectives, Succeeds.pure_iff]

/-- Two lists of directives succeed one after the other. -/
theorem succeeds_runDirectives_append {base : List String} {patch : Node} {type : TypeName}
    {directives later : List Directive} {fields made : Fields} :
    Succeeds (runDirectives m base patch type (directives ++ later) fields) s made s' ↔
      ∃ mid t, Succeeds (runDirectives m base patch type directives fields) s mid t ∧
        Succeeds (runDirectives m base patch type later mid) t made s' := by
  induction directives generalizing fields s with
  | nil =>
    constructor
    · exact fun h => ⟨fields, s, succeeds_runDirectives_nil.2 ⟨rfl, rfl⟩, h⟩
    · rintro ⟨mid, t, hnil, h⟩
      obtain ⟨rfl, rfl⟩ := succeeds_runDirectives_nil.1 hnil
      exact h
  | cons directive directives ih =>
    rw [List.cons_append, succeeds_runDirectives_cons]
    constructor
    · rintro ⟨mid, t, hhead, htail⟩
      obtain ⟨mid', t', hrest, hlater⟩ := ih.1 htail
      exact ⟨mid', t', succeeds_runDirectives_cons.2 ⟨mid, t, hhead, hrest⟩, hlater⟩
    · rintro ⟨mid', t', hfirst, hlater⟩
      obtain ⟨mid, t, hhead, hrest⟩ := succeeds_runDirectives_cons.1 hfirst
      exact ⟨mid, t, hhead, ih.2 ⟨mid', t', hrest, hlater⟩⟩

/-! ## A whole merge -/

/-- How a merge ends: on a payload that is no object, with an error of one of its steps, or
well. -/
theorem merge_cases (m : Merger) (patch original : Node) (payload : Json) (minted : Nat) :
    (∃ e, m.merge patch original payload minted = ⟨.error e, original, [], minted⟩) ∨
    (∃ members e s, payload = .object members ∧
      m.applyMembers patch original members (Session.start minted) = .error e s ∧
      m.merge patch original payload minted = ⟨.error e, original, s.sent, s.minted⟩) ∨
    (∃ members fields s, payload = .object members ∧
      Succeeds (m.applyMembers patch original members) (Session.start minted) fields s ∧
      m.merge patch original payload minted =
        ⟨.ok s.report, ⟨original.type, fields⟩, s.sent, s.minted⟩) := by
  cases payload with
  | object members =>
    cases hrun : m.applyMembers patch original members (Session.start minted) with
    | ok fields s =>
      refine .inr (.inr ⟨members, fields, s, rfl, hrun, ?_⟩)
      simp only [merge, Payload.members?, hrun]
    | error e s =>
      refine .inr (.inl ⟨members, e, s, rfl, hrun, ?_⟩)
      simp only [merge, Payload.members?, hrun]
  | _ => exact .inl ⟨_, rfl⟩

/-- A walk over an object of a payload, together with an object of the patch and one of the
original, which ends well with new fields for the latter. A merge is a walk over its payload,
and so is what an element of an array does to the item that it updates or adds. -/
def Walks (m : Merger) (base : List String) (patch original : Node)
    (members : List (String × Json)) (s : Session) (made : Fields) (s' : Session) : Prop :=
  Succeeds (runDirectives m base patch original.type (Directive.ofMembers m.options members)
    original.fields) s made s'

theorem Walks.of_merge {patch original : Node} {payload : Json} {minted : Nat} {report : Report}
    (hok : (m.merge patch original payload minted).result = .ok report) :
    ∃ members made s, payload = .object members ∧
      m.Walks [] patch original members (Session.start minted) made s ∧ s.report = report ∧
      m.merge patch original payload minted =
        ⟨.ok s.report, ⟨original.type, made⟩, s.sent, s.minted⟩ := by
  rcases m.merge_cases patch original payload minted with
    ⟨e, heq⟩ | ⟨members, e, s, -, -, heq⟩ | ⟨members, made, s, rfl, hrun, heq⟩
  · rw [heq] at hok
    cases hok
  · rw [heq] at hok
    cases hok
  · refine ⟨members, made, s, rfl, hrun, ?_, heq⟩
    rw [heq] at hok
    exact Except.ok.inj hok

end Merger

end SelectiveMerge
