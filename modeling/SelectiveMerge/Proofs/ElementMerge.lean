import SelectiveMerge.Proofs.ByIdentity
import SelectiveMerge.Proofs.Comparison

/-!
# An element is merged like a payload of its own

Without overrides and refusals nothing depends on where a merge takes place: with a path put
in front of all paths it runs as it did. An element of an array runs its directives from the
path of its collection, so what it does to its item is what it does as a payload.

* `Session.behind` — a record that goes on with another one, at a path
* `Merger.inStep_visit_behind`, `Merger.inStep_runDirectives_behind` — steps do not depend on the path
* `Merger.Mirrors` — an element that does to one item what a merge does
* `Merger.elements_merge_alike` — each element that updates or adds an item does so
-/

namespace SelectiveMerge

/-! ## Putting a path in front -/

/-- The error, with a path in front of the one that it points at. -/
def MergeError.behind (full : Path) : MergeError → MergeError
  | .malformedInput argument message => .malformedInput argument message
  | .structuralMismatch path typeName member => .structuralMismatch (full.join path) typeName member
  | .typeMismatch path expected found => .typeMismatch (full.join path) expected found
  | .invalidIdentity path raw => .invalidIdentity (full.join path) raw
  | .unknownIdentity path id hint => .unknownIdentity (full.join path) id hint
  | .validationRejected path operation => .validationRejected (full.join path) operation
  | .uninitializable path typeName => .uninitializable (full.join path) typeName
  | .coercion path value sourceType targetType =>
      .coercion (full.join path) value sourceType targetType
  | .configuration path message => .configuration (full.join path) message
  | .serialization fault => .serialization fault

theorem MergeError.path?_behind (full : Path) (e : MergeError) :
    (e.behind full).path? = e.path?.map full.join := by
  cases e <;> rfl

/-- The change, with a path in front of its own. -/
def Change.behind (full : Path) (c : Change) : Change := { c with path := full.join c.path }

/-- The request, with a path in front of its own. -/
def Request.behind (full : Path) (r : Request) : Request := { r with path := full.join r.path }

/-- The collection, with a path in front of its own. -/
def Reconciliation.behind (full : Path) (r : Reconciliation) : Reconciliation :=
  { r with full := full.join r.full }

/-- A request that is sent while `populating` further items are being populated. -/
def SentRequest.behind (full : Path) (populating : Nat) (sent : SentRequest) : SentRequest :=
  ⟨sent.request.behind full, populating + sent.populating⟩

/-- The record that goes on with another one, from the record `base`, at a path. -/
def Session.behind (full : Path) (t base : Session) : Session where
  sent := base.sent ++ t.sent.map (SentRequest.behind full base.populating)
  report := ⟨base.report.changes ++ t.report.changes.map (Change.behind full)⟩
  minted := t.minted
  populating := base.populating + t.populating

/-- Before anything is done the record is the one that there was. -/
theorem Session.behind_start (full : Path) (base : Session) :
    (start base.minted).behind full base = base := by
  simp [behind, start, Report.empty]

/-- A run at a path, on top of the record `base`, beside the run on its own. -/
def Comparison.behind (full : Path) (base : Session) : Comparison where
  sessions s t := s = t.behind full base
  failures e s e' t := e = e'.behind full ∧ s = t.behind full base
  values v w := v = w

variable {full : Path} {base : Session} {m : Merger} {α : Type}

/-! ## Small steps -/

namespace InStep

theorem behind_fail (e : MergeError) :
    InStep (.behind full base) (Run.fail (e.behind full) : Run α) (Run.fail e) :=
  ⟨fun h => .error ⟨rfl, h⟩⟩

theorem behind_ofExcept {x y : Except MergeError α} (h : x = y.mapError (·.behind full)) :
    InStep (.behind full base) (Run.ofExcept x) (Run.ofExcept y) := by
  subst h
  cases y with
  | ok a => exact pure a
  | error e => exact behind_fail e

theorem behind_require (e : MergeError) (x : Option α) :
    InStep (.behind full base) (Run.require (e.behind full) x) (Run.require e x) := by
  cases x with
  | some a => exact pure a
  | none => exact behind_fail e

theorem behind_record (change : Change) :
    InStep (.behind full base) (Run.record (change.behind full)) (Run.record change) := by
  refine ⟨fun {s t} h => .ok ?_⟩
  obtain rfl := h
  simp [Comparison.behind, Session.behind, Session.noting, Report.push]

theorem behind_quietly {x y : Run α} (hxy : InStep (.behind full base) x y) :
    InStep (.behind full base) (Run.quietly x) (Run.quietly y) := by
  refine ⟨fun {s t} h => ?_⟩
  obtain rfl := h
  have hends := hxy.agree (s := { t.behind full base with
      populating := (t.behind full base).populating + 1 })
    (t := { t with populating := t.populating + 1 }) (by
      simp only [Comparison.behind, Session.behind, Nat.add_assoc])
  unfold Run.quietly
  generalize x { t.behind full base with populating := _ } = ends at hends ⊢
  generalize y { t with populating := t.populating + 1 } = ends' at hends ⊢
  cases hends with
  | ok h =>
    obtain rfl := h
    exact .ok rfl
  | error h =>
    obtain ⟨rfl, rfl⟩ := h
    exact .error ⟨rfl, rfl⟩

/-- A request that is granted wherever it comes from. -/
theorem behind_validate (hvalidator : m.validator = .approveAll)
    (r : Request) :
    InStep (.behind full base) (m.validate (r.behind full)) (m.validate r) := by
  refine ⟨fun {s t} h => ?_⟩
  obtain rfl := h
  unfold Merger.validate
  rw [hvalidator]
  refine .ok ?_
  simp [Comparison.behind, Session.behind, Session.asking, SentRequest.behind]

theorem behind_construct (type : TypeName) (path : Path) :
    InStep (.behind full base) (m.construct type (full.join path)) (m.construct type path) := by
  have hconstruct : InStep (.behind full base) (m.construct? type) (m.construct? type) := by
    refine ⟨fun {s t} h => ?_⟩
    obtain rfl := h
    unfold Merger.construct?
    dsimp only
    split
    · exact .ok rfl
    · split
      · exact .ok rfl
      · exact .ok rfl
  exact hconstruct.bind fun made => behind_require (.uninitializable path _) made

theorem behind_ensure (type : TypeName) (path : Path) (found : Option Fields) :
    InStep (.behind full base) (m.ensure type (full.join path) found)
      (m.ensure type path found) := by
  cases found with
  | some fields => exact pure fields
  | none => exact behind_construct type path

end InStep

namespace Merger

open Run (Succeeds)

theorem memberPair_join (path : Path) (patch original : Node) (name : String) :
    m.memberPair (full.join path) patch original name =
      (m.memberPair path patch original name).mapError (·.behind full) := by
  unfold memberPair
  cases m.member? patch name with
  | none => rfl
  | some pm => cases m.member? original name <;> rfl

theorem ofMembers_join (options : Options) (path : Path) (members : List (String × Json)) :
    Intent.ofMembers options (full.join path) members =
      (Intent.ofMembers options path members).mapError (·.behind full) := by
  unfold Intent.ofMembers
  dsimp only
  split
  · rfl
  · rfl
  · split
    · rfl
    · split <;> rfl
  · rfl

section Steps

variable (hvalidator : m.validator = .approveAll)

include hvalidator

/-! ## Assignments -/

theorem inStep_assignLeaf_behind (path : Path) (patch original : Node) (member : Member)
    (sourceType : LeafType) (source : Cell) :
    InStep (.behind full base)
      (m.assignLeaf (full.join path) patch original member sourceType source)
      (m.assignLeaf path patch original member sourceType source) := by
  refine .bind (.behind_ofExcept ?_) fun value =>
    .bind (.behind_validate hvalidator ⟨path, _, _, _, _, _⟩) fun _ => ?_
  · cases source.encode <;> rfl
  · split
    · split
      · exact .bind (.behind_record ⟨path, _, _⟩) fun _ => .pure _
      · exact .behind_fail (.coercion path _ _ _)
    · exact .behind_fail (.configuration path _)

theorem inStep_unsetObject_behind (path : Path) (patch original : Node) (member : Member) :
    InStep (.behind full base) (m.unsetObject (full.join path) patch original member)
      (m.unsetObject path patch original member) := by
  refine .bind (.behind_validate hvalidator ⟨path, _, _, _, _, _⟩) fun _ => ?_
  split
  · exact .bind (.behind_record ⟨path, _, _⟩) fun _ => .pure _
  · exact .behind_fail (.configuration path _)

theorem inStep_assignMember_behind (hempty : m.configuration = .empty) (path : Path) (node : Json)
    (patch original : Node) (name : String) :
    InStep (.behind full base) (m.assignMember (full.join path) node patch original name)
      (m.assignMember path node patch original name) := by
  unfold assignMember
  split
  · exact .pure _
  · rw [hempty]
    refine .bind (.behind_ofExcept (memberPair_join path ..)) fun members => ?_
    obtain ⟨patchMember, originalMember⟩ := members
    dsimp only
    split
    · exact inStep_assignLeaf_behind hvalidator path ..
    · exact inStep_unsetObject_behind hvalidator path ..
    · exact .behind_fail (.typeMismatch path _ _)
    · exact .behind_fail (.typeMismatch path _ _)
    · exact .behind_fail (.configuration path _)

theorem inStep_assignEntry_behind (path : Path) (patchType type : LeafType)
    (patchEntries entries : List (String × Cell)) (key : String) :
    InStep (.behind full base)
      (m.assignEntry (full.join path) patchType patchEntries type entries key)
      (m.assignEntry path patchType patchEntries type entries key) := by
  refine .bind (.behind_require (.structuralMismatch path _ _) _) fun source =>
    .bind (.behind_ofExcept ?_) fun value =>
    .bind (.behind_validate hvalidator ⟨path, _, _, _, _, _⟩) fun _ => ?_
  · cases source.encode <;> rfl
  · split
    · exact .bind (.behind_record ⟨path, _, _⟩) fun _ => .pure _
    · exact .behind_fail (.coercion path _ _ _)

theorem inStep_clearList_behind (path : Path) (node : Json) (patch original : Node)
    (member : Member) :
    InStep (.behind full base) (m.clearList (full.join path) node patch original member)
      (m.clearList path node patch original member) := by
  refine .bind (.behind_validate hvalidator ⟨path, _, _, _, _, _⟩) fun _ => ?_
  split
  · split
    · exact .bind (.behind_record ⟨path, _, _⟩) fun _ => .pure _
    · exact .behind_fail (.typeMismatch path _ _)
  · exact .behind_fail (.configuration path _)

/-! ## Navigation -/

theorem inStep_visit_behind (node : Json) {onMember onMember' : Node → Node → String → Run Fields}
    (hact : ∀ p o name, InStep (.behind full base) (onMember p o name) (onMember' p o name)) :
    (before rest : List String) → (patch original : Node) →
    InStep (.behind full base)
      (m.visit node onMember (full.segments ++ before) rest patch original)
      (m.visit node onMember' before rest patch original)
  | _, [], _, _ => .behind_fail (.malformedInput _ _)
  | _, [name], patch, original => hact patch original name
  | before, name :: key :: rest, patch, original => by
    unfold visit
    simp only [Path.child, List.append_assoc]
    refine .bind (.behind_ofExcept (memberPair_join ⟨_⟩ ..)) fun members => ?_
    obtain ⟨patchMember, originalMember⟩ := members
    dsimp only
    split
    · exact .bind (inStep_visit_behind node hact ..) fun _ => .pure _
    · exact .bind (.behind_ensure _ ⟨_⟩ _) fun _ =>
        .bind (inStep_visit_behind node hact ..) fun _ => .pure _
    · exact .behind_fail (.typeMismatch ⟨_⟩ _ _)
    · exact .behind_fail (.typeMismatch ⟨_⟩ _ _)
    · split
      · exact .behind_fail (.typeMismatch ⟨_⟩ _ _)
      · exact .bind (.behind_require (.structuralMismatch ⟨_⟩ _ _) _) fun _ =>
          .bind (.behind_ensure _ ⟨_⟩ _) fun _ =>
          .bind (inStep_visit_behind node hact ..) fun _ => .pure _
    · split
      · exact .bind (inStep_assignEntry_behind hvalidator ⟨_⟩ ..) fun _ => .pure _
      · exact .behind_fail (.typeMismatch ⟨_⟩ _ _)
    · split <;> exact .behind_fail (.typeMismatch ⟨_⟩ _ _)
    all_goals exact .behind_fail (.configuration ⟨_⟩ _)

/-! ## Collections -/

theorem inStep_removeItem_behind (r : Reconciliation) (value : Json) (id : Uuid)
    (state : Reconciled) :
    InStep (.behind full base) (m.removeItem (r.behind full) value id state)
      (m.removeItem r value id state) :=
  .bind (.behind_require (.unknownIdentity r.full _ _) _) fun _ =>
    .bind (.bind (.behind_validate hvalidator ⟨r.full, _, _, _, _, _⟩) fun _ =>
      .bind (.behind_record ⟨r.full, _, _⟩) fun _ => .pure _) fun _ => .pure _

theorem inStep_pushItem_behind (r : Reconciliation) (value : Json) (patchItem item : Node)
    (state : Reconciled) :
    InStep (.behind full base) (m.pushItem (r.behind full) value patchItem item state)
      (m.pushItem r value patchItem item state) := by
  refine .bind (.behind_validate hvalidator ⟨r.full, _, _, _, _, _⟩) fun _ => ?_
  dsimp only [Reconciliation.behind]
  split
  · exact .bind (.behind_record ⟨r.full, _, _⟩) fun _ => .pure _
  · exact .behind_fail (.configuration r.full _)

theorem inStep_askToClear_behind (path : Path) (node : Json) (patch original : Node)
    (member : Member) (clears : Bool) :
    InStep (.behind full base)
      (m.askToClear (full.join path) node patch original member clears)
      (m.askToClear path node patch original member clears) := by
  cases clears with
  | true => exact .behind_validate hvalidator ⟨path, _, _, _, _, _⟩
  | false => exact .pure _

omit hvalidator in
theorem inStep_freshItem_behind (hempty : m.configuration = .empty) (r : Reconciliation)
    (patchItem : Node) :
    InStep (.behind full base) (m.freshItem (r.behind full) patchItem)
      (m.freshItem r patchItem) := by
  unfold freshItem
  rw [hempty]
  exact .bind (.behind_construct r.type r.full) fun _ => .pure _

omit hvalidator in
theorem inStep_itemPair_behind (r : Reconciliation) (id : Uuid) (state : Reconciled) :
    InStep (.behind full base) (m.itemPair (r.behind full) id state) (m.itemPair r id state) :=
  .bind (.behind_require (.unknownIdentity r.full _ _) _) fun _ =>
    .bind (.behind_require (.unknownIdentity r.full _ _) _) fun _ =>
    .bind (.behind_require (.unknownIdentity r.full _ _) _) fun _ => .pure _

omit hvalidator in
theorem inStep_patchCollection_behind (path : Path) (patch : Node) (member : Member) :
    InStep (.behind full base) (m.patchCollection (full.join path) patch member)
      (m.patchCollection path patch member) := by
  unfold patchCollection
  split
  · exact .pure _
  · exact .behind_fail (.typeMismatch path _ _)
  · exact .behind_fail (.configuration path _)

omit hvalidator in
theorem inStep_itemsIdentified_behind (path : Path) (original : Node) (member : Member) :
    InStep (.behind full base) (m.itemsIdentified (full.join path) original member)
      (m.itemsIdentified path original member) := by
  unfold itemsIdentified
  split
  · exact .pure _
  · exact .behind_fail (.configuration path _)

omit hvalidator in
theorem inStep_clearItems_behind (path : Path) (clears : Bool) (items : List Fields) :
    InStep (.behind full base) (clearItems (full.join path) clears items)
      (clearItems path clears items) := by
  unfold clearItems
  split
  · split
    · exact .pure _
    · exact .bind (.behind_record ⟨path, _, _⟩) fun _ => .pure _
  · exact .pure _

/-- Collections are reconciled alike at all paths when their elements are run alike. -/
theorem inStep_reconcile_behind (hempty : m.configuration = .empty) (path : Path) (node : Json)
    (elements : List Element)
    {runElements runElements' : Reconciliation → Reconciled → Run Reconciled}
    (hrun : ∀ r state, InStep (.behind full base) (runElements (r.behind full) state)
      (runElements' r state))
    (patch original : Node) (patchMember member : Member) :
    InStep (.behind full base)
      (m.reconcile (full.join path) node elements runElements patch original patchMember member)
      (m.reconcile path node elements runElements' patch original patchMember member) := by
  unfold reconcile
  split
  · exact .behind_fail (.typeMismatch path _ _)
  · have hforce (p : Path) : m.configuration.forcesReplace p = false := by
      rw [hempty]
      rfl
    refine .bind (inStep_patchCollection_behind path ..) fun shown =>
      .bind (inStep_itemsIdentified_behind path ..) fun identified => ?_
    rw [hforce, hforce]
    refine .bind (inStep_askToClear_behind hvalidator path ..) fun _ => ?_
    split
    · split
      · exact .pure _
      · exact .bind (inStep_clearItems_behind path ..) fun items =>
          .bind (hrun ⟨path, _, _, _, _⟩ _) fun state => .bind (.pure _) fun _ => .pure _
    · exact .behind_fail (.configuration path _)

theorem inStep_arrayMember_behind (hempty : m.configuration = .empty) (path : Path) (node : Json)
    (elements : List Element)
    {runElements runElements' : Reconciliation → Reconciled → Run Reconciled}
    (hrun : ∀ r state, InStep (.behind full base) (runElements (r.behind full) state)
      (runElements' r state))
    (patch original : Node) (name : String) :
    InStep (.behind full base)
      (m.arrayMember (full.join path) node elements runElements patch original name)
      (m.arrayMember path node elements runElements' patch original name) := by
  unfold arrayMember
  split
  · exact .pure _
  · refine .bind (.behind_ofExcept (memberPair_join path ..)) fun members => ?_
    obtain ⟨patchMember, originalMember⟩ := members
    have hset (p : Path) : m.configuration.setAction? p = none := by
      rw [hempty]
      rfl
    dsimp only
    rw [hset, hset]
    split
    · exact inStep_clearList_behind hvalidator path ..
    · split
      · exact inStep_assignMember_behind hvalidator hempty path ..
      · exact inStep_reconcile_behind hvalidator hempty path node elements hrun ..

end Steps

/-! ## Directives -/

mutual

theorem inStep_runDirective_behind (hvalidator : m.validator = .approveAll)
    (hempty : m.configuration = .empty) (before : List String) (patch original : Node) :
    (directive : Directive) →
    InStep (.behind full base) (runDirective m (full.segments ++ before) patch original directive)
      (runDirective m before patch original directive)
  | .scalar path value => by
    unfold runDirective
    split
    · exact .pure _
    · rw [List.append_assoc]
      exact inStep_visit_behind hvalidator value
        (fun _ _ _ => inStep_assignMember_behind hvalidator hempty ⟨_⟩ ..) _ _ _ _
  | .array path elements => by
    unfold runDirective
    rw [List.append_assoc]
    exact inStep_visit_behind hvalidator _ (fun _ _ _ =>
      inStep_arrayMember_behind hvalidator hempty ⟨_⟩ _ _
        (fun r state => inStep_runElements_behind hvalidator hempty r 0 elements state) ..) _ _ _ _

/-- A list of directives does not depend on the path from which it is run. -/
theorem inStep_runDirectives_behind (hvalidator : m.validator = .approveAll)
    (hempty : m.configuration = .empty) (before : List String) (patch : Node) (type : TypeName) :
    (directives : List Directive) → (fields : Fields) →
    InStep (.behind full base)
      (runDirectives m (full.segments ++ before) patch type directives fields)
      (runDirectives m before patch type directives fields)
  | [], _ => .pure _
  | directive :: directives, fields => by
    unfold runDirectives
    exact .bind (inStep_runDirective_behind hvalidator hempty before patch _ directive)
      fun made => inStep_runDirectives_behind hvalidator hempty before patch type directives made

theorem inStep_runElements_behind (hvalidator : m.validator = .approveAll)
    (hempty : m.configuration = .empty) (r : Reconciliation) (position : Nat) :
    (elements : List Element) → (state : Reconciled) →
    InStep (.behind full base) (runElements m (r.behind full) position elements state)
      (runElements m r position elements state)
  | [], _ => .pure _
  | element :: elements, state => by
    unfold runElements
    exact .bind (inStep_runElement_behind hvalidator hempty r position element state) fun state =>
      inStep_runElements_behind hvalidator hempty r (position + 1) elements state

theorem inStep_runElement_behind (hvalidator : m.validator = .approveAll)
    (hempty : m.configuration = .empty) (r : Reconciliation) (position : Nat) :
    (element : Element) → (state : Reconciled) →
    InStep (.behind full base) (runElement m (r.behind full) position element state)
      (runElement m r position element state)
  | .mk (.object members) directives, state => by
    unfold runElement
    refine .bind (.behind_ofExcept (ofMembers_join _ r.full _)) fun intent => ?_
    split
    · exact .bind (.behind_require (.structuralMismatch r.full _ _) _) fun patchItem =>
        .bind (inStep_freshItem_behind hempty r patchItem) fun fresh =>
        .bind (.behind_quietly (inStep_runDirectives_behind hvalidator hempty r.full.segments
          patchItem _ directives fresh.fields)) fun _ => inStep_pushItem_behind hvalidator r ..
    · exact .bind (inStep_itemPair_behind r ..) fun pair =>
        .bind (inStep_runDirectives_behind hvalidator hempty r.full.segments _ r.type directives _)
          fun _ => .pure _
    · exact inStep_removeItem_behind hvalidator r ..
  | .mk .null _, _ | .mk (.bool _) _, _ | .mk (.number _) _, _ | .mk (.string _) _, _
  | .mk (.array _) _, _ => by
    unfold runElement
    exact .pure _

end

/-! ## Elements -/

/-- What an element comes to that does to one item what a merge does, at a path. `place` puts
the item where it belongs, and `changes` are those that are recorded. -/
inductive Mirrors (full : Path) (s : Session) (root : Outcome) (place : Fields → Reconciled)
    (changes : Report → List Change) : EStateM.Result MergeError Session Reconciled → Prop where
  | ok {report : Report} {s' : Session} (hresult : root.result = .ok report)
      (hchanges : s'.report.changes = s.report.changes ++ changes report)
      (hminted : s'.minted = root.minted) :
      Mirrors full s root place changes (.ok (place root.original.fields) s')
  | error {e : MergeError} {s' : Session} (hresult : root.result = .error e)
      (hminted : s'.minted = root.minted) :
      Mirrors full s root place changes (.error (e.behind full) s')

/-- The directives of an element do from the path of its collection what they do as a
payload. -/
theorem agree_applyMembers (hvalidator : m.validator = .approveAll)
    (hempty : m.configuration = .empty) (full : Path) (s : Session) (patch original : Node)
    (members : List (String × Json)) :
    (Comparison.behind full s).Agree
      (m.runDirectives full.segments patch original.type (Directive.ofMembers m.options members)
        original.fields s)
      (m.applyMembers patch original members (Session.start s.minted)) := by
  have h := (inStep_runDirectives_behind hvalidator hempty [] patch original.type
    (Directive.ofMembers m.options members) original.fields).agree
    (Session.behind_start full s).symm
  rwa [List.append_nil] at h

/-- An element that names an item updates it as a payload does. -/
theorem mirrors_update (hvalidator : m.validator = .approveAll)
    (hempty : m.configuration = .empty) {r : Reconciliation} {members : List (String × Json)}
    {state : Reconciled} {id : Uuid} {index : Nat} {item : Fields} {patchItem : Node}
    (hintent : Intent.ofMembers m.options r.full members = .ok (.update id))
    (hposition : m.catalogue.position? r.type state.items id = some index)
    (hitem : state.items[index]? = some item)
    (hpatchItem : m.catalogue.itemWithId? r.patchType r.patchItems id = some patchItem)
    (position : Nat) (s : Session) :
    Mirrors r.full s (m.merge patchItem ⟨r.type, item⟩ (.object members) s.minted)
      (fun fields => ⟨state.items.set index fields, id :: state.mentioned⟩)
      (fun report => report.changes.map (Change.behind r.full))
      (m.runElement r position (.mk (.object members) (Directive.ofMembers m.options members))
        state s) := by
  have hpair : Succeeds (m.itemPair r id state) s (index, item, patchItem) s := by
    simp only [itemPair, Succeeds.bind_iff, Succeeds.require_iff, Succeeds.pure_iff]
    exact ⟨index, s, ⟨hposition, rfl⟩, patchItem, s, ⟨hpatchItem, rfl⟩, item, s, ⟨hitem, rfl⟩,
      rfl, rfl⟩
  have hagree := agree_applyMembers hvalidator hempty r.full s patchItem ⟨r.type, item⟩ members
  rw [merge_object, runElement, (Succeeds.of_ofExcept hintent).bind_eq]
  dsimp only at hagree ⊢
  rw [hpair.bind_eq]
  dsimp only
  generalize hrun : m.runDirectives r.full.segments patchItem r.type _ item s = ends at hagree
  generalize m.applyMembers patchItem ⟨r.type, item⟩ members _ = ends' at hagree ⊢
  cases hagree with
  | @ok fields s' t h =>
    obtain rfl := h
    rw [Succeeds.bind_eq hrun]
    exact .ok (rfl : _ = Except.ok t.report) rfl rfl
  | error h =>
    obtain ⟨rfl, rfl⟩ := h
    rw [Run.bind_of_error hrun]
    exact .error rfl rfl

/-- An item of the type of the collection is added to it. -/
theorem succeeds_pushItem (hvalidator : m.validator = .approveAll) (r : Reconciliation)
    (value : Json) (patchItem : Node) (fields : Fields) (state : Reconciled) (s : Session) :
    Succeeds (m.pushItem r value patchItem ⟨r.type, fields⟩ state) s
      ⟨state.items ++ [fields],
        ((m.catalogue r.type).identity? fields).toList ++ state.mentioned⟩
      ((s.asking ⟨r.full, r.property, value, .addItem, some ⟨r.type, fields⟩,
        some patchItem⟩).noting ⟨r.full, .added, (m.catalogue r.type).identity? fields⟩) := by
  refine (succeeds_validate hvalidator s _).bind ?_
  rw [Collection.push, if_pos rfl]
  exact (Succeeds.of_record _).bind .of_pure

/-- An element without identity adds what it makes of a new item as a payload. -/
theorem mirrors_add (hvalidator : m.validator = .approveAll) (hempty : m.configuration = .empty)
    {r : Reconciliation} {position : Nat} {members : List (String × Json)} {patchItem : Node}
    {fresh : Fields} {s t : Session}
    (hintent : Intent.ofMembers m.options r.full members = .ok .add)
    (hpatchItem : Collection.item? r.patchType r.patchItems position = some patchItem)
    (hfresh : m.construct? r.type s = .ok (some fresh) t) (state : Reconciled) {root : Outcome}
    (hroot : root = m.merge patchItem ⟨r.type, fresh⟩ (.object members) t.minted) :
    Mirrors r.full s root
      (fun fields => ⟨state.items ++ [fields],
        ((m.catalogue r.type).identity? fields).toList ++ state.mentioned⟩)
      (fun _ => [⟨r.full, .added, (m.catalogue r.type).identity? root.original.fields⟩])
      (m.runElement r position (.mk (.object members) (Directive.ofMembers m.options members))
        state s) := by
  have hpatch : Succeeds (m.patchItemAt r position) s patchItem s :=
    Succeeds.require_iff.2 ⟨hpatchItem, rfl⟩
  have hitem : Succeeds (m.freshItem r patchItem) s ⟨r.type, fresh⟩ t := by
    have hfactory : m.configuration.itemFactory? r.full = none := by
      rw [hempty]
      rfl
    unfold freshItem
    rw [hfactory]
    simp only [construct, Succeeds.bind_iff, Succeeds.require_iff, Succeeds.pure_iff]
    exact ⟨fresh, t, ⟨some fresh, t, hfresh, rfl, rfl⟩, rfl, rfl⟩
  have hreport : t.report = s.report := by
    unfold construct? at hfresh
    dsimp only at hfresh
    split at hfresh
    · cases hfresh
    · split at hfresh <;> cases hfresh <;> rfl
  -- while the item is populated the record counts it
  have hagree := agree_applyMembers hvalidator hempty r.full
    { t with populating := t.populating + 1 } patchItem ⟨r.type, fresh⟩ members
  subst hroot
  rw [merge_object, runElement, (Succeeds.of_ofExcept hintent).bind_eq]
  dsimp only at hagree ⊢
  rw [hpatch.bind_eq, hitem.bind_eq]
  dsimp only
  generalize hrun : m.runDirectives r.full.segments patchItem r.type _ fresh _ = ends at hagree
  generalize m.applyMembers patchItem ⟨r.type, fresh⟩ members _ = ends' at hagree ⊢
  cases hagree with
  | @ok fields s' u h =>
    obtain rfl := h
    have hquiet := Succeeds.quietly_iff.2 ⟨_, hrun, rfl⟩
    rw [hquiet.bind_eq, succeeds_pushItem hvalidator]
    refine .ok (rfl : _ = Except.ok u.report) ?_ rfl
    rw [Session.report_noting, Session.report_asking, Report.changes_push, ← hreport]
    rfl
  | error h =>
    obtain ⟨rfl, rfl⟩ := h
    rw [Run.bind_of_error (Run.quietly_of_error hrun)]
    exact .error rfl rfl

/-- Elements are merged like payloads of their own. An element that names an item does to it
what it does as a payload with the counterpart of the item in the patch: the item is the same,
the changes stand at the path of the collection, and so does the error. An element without
identity adds the item that it makes, as a payload, of a new one and of the item of the patch
at its own position; that is recorded as one change. -/
theorem elements_merge_alike (hvalidator : m.validator = .approveAll)
    (hempty : m.configuration = .empty) (r : Reconciliation) (position : Nat)
    (members : List (String × Json)) (state : Reconciled) (s : Session) :
    (∀ id index item patchItem, Intent.ofMembers m.options r.full members = .ok (.update id) →
      m.catalogue.position? r.type state.items id = some index →
      state.items[index]? = some item →
      m.catalogue.itemWithId? r.patchType r.patchItems id = some patchItem →
      Mirrors r.full s (m.merge patchItem ⟨r.type, item⟩ (.object members) s.minted)
        (fun fields => ⟨state.items.set index fields, id :: state.mentioned⟩)
        (fun report => report.changes.map (Change.behind r.full))
        (m.runElement r position (.mk (.object members) (Directive.ofMembers m.options members))
          state s)) ∧
    ∀ patchItem fresh t, Intent.ofMembers m.options r.full members = .ok .add →
      Collection.item? r.patchType r.patchItems position = some patchItem →
      m.construct? r.type s = .ok (some fresh) t →
      let root := m.merge patchItem ⟨r.type, fresh⟩ (.object members) t.minted
      Mirrors r.full s root
        (fun fields => ⟨state.items ++ [fields],
          ((m.catalogue r.type).identity? fields).toList ++ state.mentioned⟩)
        (fun _ => [⟨r.full, .added, (m.catalogue r.type).identity? root.original.fields⟩])
        (m.runElement r position (.mk (.object members) (Directive.ofMembers m.options members))
          state s) :=
  ⟨fun _ _ _ _ hintent hposition hitem hpatchItem =>
      mirrors_update hvalidator hempty hintent hposition hitem hpatchItem position s,
    fun _ _ _ hintent hpatchItem hfresh =>
      mirrors_add hvalidator hempty hintent hpatchItem hfresh state rfl⟩

end Merger

/-! ## Trees -/

namespace Sample

/-- The children of a tree, which has a counterpart with an oak in the patch. -/
def children : Reconciliation :=
  ⟨⟨["Children"]⟩, "Children", "Tree", [sapling 10 "Oak" []], "Tree"⟩

/-- An element that mentions the name of the oak. -/
def nameOfOak : List (String × Json) :=
  [("Id", .string "00000000-0000-0000-0000-00000000000a"), ("Name", .null)]

/-- An element that mentions a name alone. -/
def nameAlone : List (String × Json) := [("Name", .null)]

end Sample

/-- The oak gets its name as it would by itself, and so does a new tree. -/
theorem elements_merge_alike_nursery :
    (Sample.nursery.merge ⟨"Tree", Sample.sapling 10 "Oak" []⟩
        ⟨"Tree", Sample.sapling 10 "oak" []⟩ (.object Sample.nameOfOak) 0).result =
      .ok ⟨[⟨⟨["Name"]⟩, .updated, none⟩]⟩ ∧
    Merger.Mirrors ⟨["Children"]⟩ (Session.start 0)
      (Sample.nursery.merge ⟨"Tree", Sample.sapling 10 "Oak" []⟩
        ⟨"Tree", Sample.sapling 10 "oak" []⟩ (.object Sample.nameOfOak) 0)
      (fun fields => ⟨[fields], [⟨10⟩]⟩)
      (fun report => report.changes.map (Change.behind ⟨["Children"]⟩))
      (Sample.nursery.runElement Sample.children 0
        (.mk (.object Sample.nameOfOak)
          (Directive.ofMembers Sample.nursery.options Sample.nameOfOak))
        ⟨[Sample.sapling 10 "oak" []], []⟩ (Session.start 0)) ∧
    ∃ fresh t, Sample.nursery.construct? "Tree" (Session.start 0) = .ok (some fresh) t ∧
      let root := Sample.nursery.merge ⟨"Tree", Sample.sapling 10 "Oak" []⟩ ⟨"Tree", fresh⟩
        (.object Sample.nameAlone) t.minted
      root.result = .ok ⟨[⟨⟨["Name"]⟩, .updated, none⟩]⟩ ∧
      Merger.Mirrors ⟨["Children"]⟩ (Session.start 0) root
        (fun fields => ⟨[fields], ((Sample.tree "").identity? fields).toList ++ []⟩)
        (fun _ => [⟨⟨["Children"]⟩, .added, (Sample.tree "").identity? root.original.fields⟩])
        (Sample.nursery.runElement Sample.children 0
          (.mk (.object Sample.nameAlone)
            (Directive.ofMembers Sample.nursery.options Sample.nameAlone))
          ⟨[], []⟩ (Session.start 0)) := by
  refine ⟨by decide +kernel, ?_, _, _, rfl, by decide +kernel, ?_⟩
  · exact (Merger.elements_merge_alike rfl rfl Sample.children 0 Sample.nameOfOak
      ⟨[Sample.sapling 10 "oak" []], []⟩ (Session.start 0)).1 ⟨10⟩ 0 _ _ (by decide +kernel)
      (by decide +kernel) rfl rfl
  · exact (Merger.elements_merge_alike (m := Sample.nursery) rfl rfl Sample.children 0
      Sample.nameAlone ⟨[], []⟩ (Session.start 0)).2 _ _ _ (by decide +kernel) rfl rfl

end SelectiveMerge
