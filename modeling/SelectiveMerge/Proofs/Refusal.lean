import SelectiveMerge.Merge.Outcome
import SelectiveMerge.Proofs.Run

/-!
# Refused requests end a merge

A step is `Guarded` when, started with a record of requests that were all granted, it
either ends with such a record, or fails with the refusal of the last request that it
sent. Guarded steps chain (`Guarded.bind`), so every function of a merge is guarded:
asking the validator is the only step that sends a request, and it fails on a refusal.

* `guarded_visit`, `guarded_runDirectives` — navigations and lists of directives
* `guarded_applyMembers` — a whole payload
-/

namespace SelectiveMerge.Merger

/-- Every request was granted when it was sent. -/
def Granted (m : Merger) (requests : List Request) : Prop :=
  ∀ earlier r later, requests = earlier ++ r :: later → m.validator.approves earlier r = true

/-- The last request was refused, all before it were granted, and the error is its
refusal. -/
def Refused (m : Merger) (e : MergeError) (requests : List Request) : Prop :=
  ∃ earlier r, requests = earlier ++ [r] ∧ m.Granted earlier ∧
    m.validator.approves earlier r = false ∧ e = .validationRejected r.path r.operation

/-- A step that, once all requests were granted, fails as soon as one is refused. -/
structure Guarded (m : Merger) {α : Type} (x : Run α) : Prop where
  of_ok : ∀ {s s' : Session} {a : α}, m.Granted s.requests → x s = .ok a s' →
    m.Granted s'.requests
  of_error : ∀ {s s' : Session} {e : MergeError}, m.Granted s.requests → x s = .error e s' →
    m.Granted s'.requests ∨ m.Refused e s'.requests

variable {m : Merger} {α β : Type}

theorem granted_nil : m.Granted [] := by
  intro earlier r later h
  simp at h

/-- One more request is granted beside those that were. -/
theorem Granted.concat {requests : List Request} {r : Request} (h : m.Granted requests)
    (hr : m.validator.approves requests r = true) : m.Granted (requests ++ [r]) := by
  intro earlier r' later heq
  rcases List.append_eq_append_iff.1 heq with ⟨mid, hearlier, hlast⟩ | ⟨mid, hrequests, hlast⟩
  · cases mid with
    | nil =>
      obtain ⟨rfl, -⟩ := List.cons_eq_cons.1 (by simpa using hlast)
      rw [hearlier, List.append_nil]
      exact hr
    | cons a mid => simp at hlast
  · cases mid with
    | nil =>
      obtain ⟨rfl, -⟩ := List.cons_eq_cons.1 (by simpa using hlast)
      rw [List.append_nil] at hrequests
      rw [← hrequests]
      exact hr
    | cons a mid =>
      obtain ⟨rfl, -⟩ := List.cons_eq_cons.1 hlast
      exact h earlier r' mid hrequests

/-! ## Small steps -/

namespace Guarded

theorem pure (a : α) : m.Guarded (Pure.pure a : Run α) where
  of_ok := by
    rintro s _ _ h ⟨⟩
    exact h
  of_error := by
    rintro s _ _ h ⟨⟩

theorem fail (e : MergeError) : m.Guarded (Run.fail e : Run α) where
  of_ok := by
    rintro s _ _ h ⟨⟩
  of_error := by
    rintro s _ _ h ⟨⟩
    exact .inl h

theorem ofExcept (x : Except MergeError α) : m.Guarded (Run.ofExcept x) := by
  cases x with
  | ok a => exact pure a
  | error e => exact fail e

theorem require (e : MergeError) (x : Option α) : m.Guarded (Run.require e x) := by
  cases x with
  | some a => exact pure a
  | none => exact fail e

theorem record (c : Change) : m.Guarded (Run.record c) where
  of_ok := by
    rintro s _ _ h ⟨⟩
    exact h
  of_error := by
    rintro s _ _ h ⟨⟩

/-- Guarded steps chain. -/
theorem bind {x : Run α} {f : α → Run β} (hx : m.Guarded x) (hf : ∀ a, m.Guarded (f a)) :
    m.Guarded (x >>= f) := by
  have hbind (s : Session) : (x >>= f) s = EStateM.bind x f s := rfl
  constructor
  · intro s s' b h hok
    rw [hbind, EStateM.bind] at hok
    cases hrun : x s with
    | ok a t =>
      rw [hrun] at hok
      exact (hf a).of_ok (hx.of_ok h hrun) hok
    | error e t =>
      rw [hrun] at hok
      cases hok
  · intro s s' e h herror
    rw [hbind, EStateM.bind] at herror
    cases hrun : x s with
    | ok a t =>
      rw [hrun] at herror
      exact (hf a).of_error (hx.of_ok h hrun) herror
    | error e t =>
      rw [hrun] at herror
      obtain ⟨⟩ := herror
      exact hx.of_error h hrun

/-- The record of requests is kept when the changes are dropped. -/
theorem quietly {x : Run α} (hx : m.Guarded x) : m.Guarded (Run.quietly x) := by
  constructor
  · intro s s' a h hok
    unfold Run.quietly at hok
    split at hok
    · rename_i b t hrun
      obtain ⟨⟩ := hok
      have hgranted := hx.of_ok (s := { s with populating := s.populating + 1 }) h hrun
      exact hgranted
    · cases hok
  · intro s s' e h herror
    unfold Run.quietly at herror
    split at herror
    · cases herror
    · rename_i e t hrun
      obtain ⟨⟩ := herror
      have hgranted := hx.of_error (s := { s with populating := s.populating + 1 }) h hrun
      exact hgranted

/-- Asking the validator is the step at which a request may be refused. -/
theorem validate (r : Request) : m.Guarded (m.validate r) := by
  constructor
  · intro s s' _ h hok
    unfold Merger.validate at hok
    split at hok
    · rename_i hr
      obtain ⟨⟩ := hok
      rw [Session.requests_asking]
      exact h.concat hr
    · cases hok
  · intro s s' e h herror
    unfold Merger.validate at herror
    split at herror
    · cases herror
    · rename_i hr
      obtain ⟨⟩ := herror
      exact .inr ⟨s.requests, r, Session.requests_asking .., h, by simpa using hr, rfl⟩

theorem construct (type : TypeName) (path : Path) : m.Guarded (m.construct type path) := by
  have hconstruct : m.Guarded (m.construct? type) := by
    unfold construct?
    constructor
    · intro s s' _ h hok
      simp only at hok
      split at hok
      · obtain ⟨⟩ := hok
        exact h
      · split at hok <;> obtain ⟨⟩ := hok <;> exact h
    · intro s s' e h herror
      simp only at herror
      split at herror
      · cases herror
      · split at herror <;> cases herror
  exact hconstruct.bind fun made => require _ made

theorem ensure (type : TypeName) (path : Path) (found : Option Fields) :
    m.Guarded (m.ensure type path found) := by
  cases found with
  | some fields => exact pure fields
  | none => exact construct type path

end Guarded

/-! ## Assignments -/

theorem guarded_assignLeaf (full : Path) (patch original : Node) (member : Member)
    (sourceType : LeafType) (source : Cell) :
    m.Guarded (m.assignLeaf full patch original member sourceType source) := by
  refine .bind (.ofExcept _) fun value => .bind (.validate _) fun _ => ?_
  split
  · split
    · exact .bind (.record _) fun _ => .pure _
    · exact .fail _
  · exact .fail _

theorem guarded_unsetObject (full : Path) (patch original : Node) (member : Member) :
    m.Guarded (m.unsetObject full patch original member) := by
  refine .bind (.validate _) fun _ => ?_
  split
  · exact .bind (.record _) fun _ => .pure _
  · exact .fail _

theorem guarded_assignMember (full : Path) (node : Json) (patch original : Node) (name : String) :
    m.Guarded (m.assignMember full node patch original name) := by
  unfold assignMember
  split
  · exact .pure _
  · split
    · exact .bind (.ofExcept _) fun fields => .bind (.record _) fun _ => .pure fields
    · refine .bind (.ofExcept _) fun ⟨patchMember, originalMember⟩ => ?_
      dsimp only
      split
      · exact guarded_assignLeaf ..
      · exact guarded_unsetObject ..
      all_goals exact .fail _

theorem guarded_assignEntry (full : Path) (patchType type : LeafType)
    (patchEntries entries : List (String × Cell)) (key : String) :
    m.Guarded (m.assignEntry full patchType patchEntries type entries key) := by
  refine .bind (.require _ _) fun source => .bind (.ofExcept _) fun value =>
    .bind (.validate _) fun _ => ?_
  split
  · exact .bind (.record _) fun _ => .pure _
  · exact .fail _

theorem guarded_clearList (full : Path) (node : Json) (patch original : Node) (member : Member) :
    m.Guarded (m.clearList full node patch original member) := by
  refine .bind (.validate _) fun _ => ?_
  split
  · split
    · exact .bind (.record _) fun _ => .pure _
    · exact .fail _
  · exact .fail _

/-! ## Navigation -/

theorem guarded_visit {node : Json} {onMember : Node → Node → String → Run Fields}
    (hact : ∀ p o name, m.Guarded (onMember p o name)) :
    (before rest : List String) → (patch original : Node) →
    m.Guarded (m.visit node onMember before rest patch original)
  | _, [], _, _ => .fail _
  | _, [name], patch, original => hact patch original name
  | before, name :: key :: rest, patch, original => by
    unfold visit
    refine .bind (.ofExcept _) fun ⟨patchMember, originalMember⟩ => ?_
    dsimp only
    split
    · exact .bind (guarded_visit hact _ _ _ _) fun _ => .pure _
    · exact .bind (.ensure _ _ _) fun _ => .bind (guarded_visit hact _ _ _ _) fun _ => .pure _
    · exact .fail _
    · exact .fail _
    · split
      · exact .fail _
      · exact .bind (.require _ _) fun _ => .bind (.ensure _ _ _) fun _ =>
          .bind (guarded_visit hact _ _ _ _) fun _ => .pure _
    · split
      · exact .bind (guarded_assignEntry ..) fun _ => .pure _
      · exact .fail _
    · split <;> exact .fail _
    all_goals exact .fail _

/-! ## Collections -/

theorem guarded_dropUnmentioned (r : Reconciliation) (mentioned : List Uuid)
    (items : List Fields) : m.Guarded (m.dropUnmentioned r mentioned items) := by
  induction items with
  | nil => exact .pure _
  | cons item items ih =>
    unfold dropUnmentioned
    split
    · split
      · exact .bind ih fun _ => .pure _
      · exact .bind (.validate _) fun _ => .bind (.record _) fun _ => ih
    · exact .bind ih fun _ => .pure _

theorem guarded_removeItem (r : Reconciliation) (value : Json) (id : Uuid) (state : Reconciled) :
    m.Guarded (m.removeItem r value id state) :=
  .bind (.require _ _) fun _ => .bind
    (.bind (.validate _) fun _ => .bind (.record _) fun _ => .pure _) fun _ => .pure _

theorem guarded_freshItem (r : Reconciliation) (patchItem : Node) :
    m.Guarded (m.freshItem r patchItem) := by
  unfold freshItem
  split
  · exact .ofExcept _
  · exact .bind (.construct _ _) fun _ => .pure _

theorem guarded_pushItem (r : Reconciliation) (value : Json) (patchItem item : Node)
    (state : Reconciled) : m.Guarded (m.pushItem r value patchItem item state) := by
  refine .bind (.validate _) fun _ => ?_
  split
  · exact .bind (.record _) fun _ => .pure _
  · exact .fail _

theorem guarded_itemPair (r : Reconciliation) (id : Uuid) (state : Reconciled) :
    m.Guarded (m.itemPair r id state) :=
  .bind (.require _ _) fun _ => .bind (.require _ _) fun _ => .bind (.require _ _) fun _ => .pure _

theorem guarded_patchCollection (full : Path) (patch : Node) (member : Member) :
    m.Guarded (m.patchCollection full patch member) := by
  unfold patchCollection
  split
  · exact .pure _
  all_goals exact .fail _

theorem guarded_itemsIdentified (full : Path) (original : Node) (member : Member) :
    m.Guarded (m.itemsIdentified full original member) := by
  unfold itemsIdentified
  split
  · exact .pure _
  · exact .fail _

theorem guarded_askToClear (full : Path) (node : Json) (patch original : Node) (member : Member)
    (clears : Bool) : m.Guarded (m.askToClear full node patch original member clears) := by
  cases clears with
  | true => exact .validate _
  | false => exact .pure _

theorem guarded_clearItems (full : Path) (clears : Bool) (items : List Fields) :
    m.Guarded (clearItems full clears items) := by
  unfold clearItems
  split
  · split
    · exact .pure _
    · exact .bind (.record _) fun _ => .pure _
  · exact .pure _

theorem guarded_keepMentioned (r : Reconciliation) (drops : Bool) (state : Reconciled) :
    m.Guarded (m.keepMentioned r drops state) := by
  cases drops with
  | true => exact guarded_dropUnmentioned r state.mentioned state.items
  | false => exact .pure _

theorem guarded_reconcile {full : Path} {node : Json} {elements : List Element}
    {runElements : Reconciliation → Reconciled → Run Reconciled}
    (hrun : ∀ r state, m.Guarded (runElements r state)) (patch original : Node)
    (patchMember member : Member) :
    m.Guarded (m.reconcile full node elements runElements patch original patchMember member) := by
  unfold reconcile
  split
  · exact .fail _
  · refine .bind (guarded_patchCollection ..) fun _ => .bind (guarded_itemsIdentified ..) fun _ =>
      .bind (guarded_askToClear ..) fun _ => ?_
    split
    · split
      · exact .pure _
      · exact .bind (guarded_clearItems ..) fun _ => .bind (hrun _ _) fun _ =>
          .bind (guarded_keepMentioned ..) fun _ => .pure _
    · exact .fail _

theorem guarded_arrayMember {full : Path} {node : Json} {elements : List Element}
    {runElements : Reconciliation → Reconciled → Run Reconciled}
    (hrun : ∀ r state, m.Guarded (runElements r state)) (patch original : Node) (name : String) :
    m.Guarded (m.arrayMember full node elements runElements patch original name) := by
  unfold arrayMember
  split
  · exact .pure _
  · refine .bind (.ofExcept _) fun ⟨patchMember, originalMember⟩ => ?_
    dsimp only
    split
    · exact guarded_clearList ..
    · split
      · exact guarded_assignMember ..
      · exact guarded_reconcile hrun ..

/-! ## Directives -/

mutual

theorem guarded_runDirective (base : List String) (patch original : Node) :
    (directive : Directive) → m.Guarded (runDirective m base patch original directive)
  | .scalar path value => by
    unfold runDirective
    split
    · exact .pure _
    · exact guarded_visit (guarded_assignMember _ _) ..
  | .array path elements => by
    unfold runDirective
    exact guarded_visit
      (guarded_arrayMember fun r state => guarded_runElements r 0 elements state) ..

theorem guarded_runDirectives (base : List String) (patch : Node) (type : TypeName) :
    (directives : List Directive) → (fields : Fields) →
    m.Guarded (runDirectives m base patch type directives fields)
  | [], _ => .pure _
  | directive :: directives, fields => by
    unfold runDirectives
    exact .bind (guarded_runDirective base patch _ directive) fun fields =>
      guarded_runDirectives base patch type directives fields

theorem guarded_runElements (r : Reconciliation) (position : Nat) :
    (elements : List Element) → (state : Reconciled) →
    m.Guarded (runElements m r position elements state)
  | [], _ => .pure _
  | element :: elements, state => by
    unfold runElements
    exact .bind (guarded_runElement r position element state) fun state =>
      guarded_runElements r (position + 1) elements state

theorem guarded_runElement (r : Reconciliation) (position : Nat) :
    (element : Element) → (state : Reconciled) →
    m.Guarded (runElement m r position element state)
  | .mk (.object members) directives, state => by
    unfold runElement
    refine .bind (.ofExcept _) fun intent => ?_
    split
    · exact .bind (.require _ _) fun patchItem => .bind (guarded_freshItem r patchItem) fun fresh =>
        .bind (.quietly (guarded_runDirectives _ patchItem fresh.type directives fresh.fields))
          fun _ => guarded_pushItem ..
    · exact .bind (guarded_itemPair ..) fun pair =>
        .bind (guarded_runDirectives _ pair.2.2 r.type directives pair.2.1) fun _ => .pure _
    · exact guarded_removeItem ..
  | .mk .null _, _ | .mk (.bool _) _, _ | .mk (.number _) _, _ | .mk (.string _) _, _
  | .mk (.array _) _, _ => by
    unfold runElement
    exact .pure _

end

theorem guarded_applyMembers (patch original : Node) (members : List (String × Json)) :
    m.Guarded (m.applyMembers patch original members) :=
  guarded_runDirectives ..

end SelectiveMerge.Merger
