import Mathlib.Data.List.Forall2
import SelectiveMerge.Proofs.Step

/-!
# Two runs side by side

Two runs of one merger are compared step by step. A comparison says which records correspond
to each other, which failures do, and in which values the requests may differ. Two steps are
in step when from corresponding records both succeed, with the same result and corresponding
records, or both fail in corresponding ways. Each step of a merge is in step with itself, and
with the one that puts other corresponding values into its requests.

* `Comparison`, `Comparison.Lawful` — comparisons that a merger respects
* `InStep` — two steps that end alike
* `InStep.bind` — steps that are in step chain
* `inStep_visit` — navigations are in step when their visitors are
* `inStep_arrayMember` — so are arrays, when their elements are
* `inStep_runDirectives` — a list of directives is in step with itself
-/

namespace SelectiveMerge

/-- The first members of two related lists that pass related tests are related. -/
theorem find?_of_forall₂ {α β : Type} {R : α → β → Prop} {p : α → Bool} {q : β → Bool}
    (hpq : ∀ a b, R a b → p a = q b) {xs : List α} {ys : List β} (h : List.Forall₂ R xs ys) :
    (xs.find? p = none ∧ ys.find? q = none) ∨
      ∃ a b, xs.find? p = some a ∧ ys.find? q = some b ∧ R a b := by
  induction h with
  | nil => exact .inl ⟨rfl, rfl⟩
  | @cons a b xs ys hab _ ih =>
    have heq := hpq a b hab
    cases hp : p a with
    | true => exact .inr ⟨a, b, List.find?_cons_of_pos hp, List.find?_cons_of_pos (heq ▸ hp), hab⟩
    | false =>
      rw [List.find?_cons_of_neg (by simp [hp]), List.find?_cons_of_neg (by simp [← heq, hp])]
      exact ih

/-- How two runs are compared. -/
structure Comparison where
  /-- The records that correspond to each other. -/
  sessions : Session → Session → Prop
  /-- The failures that correspond to each other, each with the record at the time. -/
  failures : MergeError → Session → MergeError → Session → Prop
  /-- The values of requests that correspond to each other. -/
  values : Json → Json → Prop

/-- Two ways to end correspond: both well with the same result, or both with a failure. -/
inductive Comparison.Agree (c : Comparison) {α : Type} :
    EStateM.Result MergeError Session α → EStateM.Result MergeError Session α → Prop where
  | ok {a : α} {s t : Session} (h : c.sessions s t) : Agree c (.ok a s) (.ok a t)
  | error {e e' : MergeError} {s t : Session} (h : c.failures e s e' t) :
      Agree c (.error e s) (.error e' t)

/-- Two steps end in corresponding ways when they start from corresponding records. -/
structure InStep (c : Comparison) {α : Type} (x y : Run α) : Prop where
  agree : ∀ {s t : Session}, c.sessions s t → c.Agree (x s) (y t)

/-- A comparison that holds on to what the steps of a merger do to the record. -/
structure Comparison.Lawful (c : Comparison) (m : Merger) : Prop where
  values_refl : ∀ v, c.values v v
  isObject_eq : ∀ {v w : Json}, c.values v w → v.isObject = w.isObject
  failures_same : ∀ {s t : Session} (e : MergeError), c.sessions s t → c.failures e s e t
  failures_mismatch : ∀ {s t : Session} {v w : Json} (full : Path) (expected : String),
    c.sessions s t → c.values v w →
    c.failures (.typeMismatch full expected v.typeName) s (.typeMismatch full expected w.typeName) t
  noting : ∀ {s t : Session} (change : Change), c.sessions s t →
    c.sessions (s.noting change) (t.noting change)
  asking : ∀ {s t : Session} (r : Request) {w : Json}, c.sessions s t → c.values r.value w →
    c.sessions (s.asking r) (t.asking { r with value := w })
  approves_eq : ∀ {s t : Session} (r : Request) {w : Json}, c.sessions s t → c.values r.value w →
    m.validator.approves s.requests r = m.validator.approves t.requests { r with value := w }
  minted_eq : ∀ {s t : Session}, c.sessions s t → s.minted = t.minted
  minting : ∀ {s t : Session}, c.sessions s t →
    c.sessions { s with minted := s.minted + 1 } { t with minted := t.minted + 1 }
  populating : ∀ {s t : Session}, c.sessions s t →
    c.sessions { s with populating := s.populating + 1 } { t with populating := t.populating + 1 }
  /-- What was changed in a new item is forgotten. -/
  populated : ∀ {s t s' t' : Session}, c.sessions s t → c.sessions s' t' →
    c.sessions { s' with report := s.report, populating := s.populating }
      { t' with report := t.report, populating := t.populating }
  failures_populated : ∀ {s t s' t' : Session} {e e' : MergeError}, c.sessions s t →
    c.failures e s' e' t' →
    c.failures e { s' with report := s.report, populating := s.populating }
      e' { t' with report := t.report, populating := t.populating }

/-- Two records that are the same but for what is left out of their requests. -/
def Comparison.leavingOut (blank : Request → Request) (failures : MergeError → MergeError → Prop)
    (values : Json → Json → Prop) : Comparison where
  sessions s t := s.requests.map blank = t.requests.map blank ∧ s.report = t.report ∧
    s.minted = t.minted ∧ s.populating = t.populating
  failures e _ e' _ := failures e e'
  values := values

/-- A validator that does not look at what is left out cannot tell such records apart. -/
theorem Comparison.lawful_leavingOut {m : Merger} {blank : Request → Request}
    {failures : MergeError → MergeError → Prop} {values : Json → Json → Prop}
    (hignores : ∀ (earlier : List Request) (r : Request),
      m.validator.approves earlier r = m.validator.approves (earlier.map blank) (blank r))
    (hblank : ∀ {r : Request} {w : Json}, values r.value w → blank { r with value := w } = blank r)
    (hrefl : ∀ v, values v v) (hobject : ∀ {v w : Json}, values v w → v.isObject = w.isObject)
    (hsame : ∀ e, failures e e)
    (hmismatch : ∀ {v w : Json} (full : Path) (expected : String), values v w →
      failures (.typeMismatch full expected v.typeName) (.typeMismatch full expected w.typeName)) :
    (leavingOut blank failures values).Lawful m where
  values_refl := hrefl
  isObject_eq := hobject
  failures_same e _ := hsame e
  failures_mismatch full expected _ hvalues := hmismatch full expected hvalues
  noting := by
    rintro s t change ⟨hrequests, hreport, hminted, hpopulating⟩
    refine ⟨hrequests, ?_, hminted, hpopulating⟩
    rw [Session.report_noting, Session.report_noting, hreport]
  asking := by
    rintro s t r w ⟨hrequests, hreport, hminted, hpopulating⟩ hvalues
    refine ⟨?_, hreport, hminted, hpopulating⟩
    rw [Session.requests_asking, Session.requests_asking, List.map_append, List.map_append,
      hrequests, List.map_singleton, List.map_singleton, hblank hvalues]
  approves_eq := by
    rintro s t r w ⟨hrequests, -⟩ hvalues
    rw [hignores, hignores t.requests, hrequests, hblank hvalues]
  minted_eq h := h.2.2.1
  minting := by
    rintro s t ⟨hrequests, hreport, hminted, hpopulating⟩
    exact ⟨hrequests, hreport, congrArg (· + 1) hminted, hpopulating⟩
  populating := by
    rintro s t ⟨hrequests, hreport, hminted, hpopulating⟩
    exact ⟨hrequests, hreport, hminted, congrArg (· + 1) hpopulating⟩
  populated := by
    rintro s t s' t' ⟨-, hreport, -, hpopulating⟩ ⟨hrequests, -, hminted, -⟩
    exact ⟨hrequests, hreport, hminted, hpopulating⟩
  failures_populated _ h := h

/-- What comes of a merge of an object when its steps end in this way. -/
def Outcome.ofResult (original : Node) : EStateM.Result MergeError Session Fields → Outcome
  | .ok fields s => ⟨.ok s.report, ⟨original.type, fields⟩, s.sent, s.minted⟩
  | .error e s => ⟨.error e, original, s.sent, s.minted⟩

variable {c : Comparison} {m : Merger} {α β : Type}

namespace InStep

open Run (Succeeds)

/-! ## Small steps -/

theorem pure (a : α) : InStep c (Pure.pure a : Run α) (Pure.pure a) := ⟨fun h => .ok h⟩

/-- Steps that are in step chain; the second ones need be so only for what the first ones can
result in. -/
theorem bind' {x y : Run α} {f g : α → Run β} (hxy : InStep c x y)
    (hfg : ∀ a, (∃ s s', Succeeds x s a s') → InStep c (f a) (g a)) :
    InStep c (x >>= f) (y >>= g) := by
  refine ⟨fun {s t} h => ?_⟩
  have hbind {x : Run α} {f : α → Run β} (s : Session) : (x >>= f) s = EStateM.bind x f s := rfl
  rw [hbind, hbind, EStateM.bind, EStateM.bind]
  have hends := hxy.agree h
  cases hx : x s with
  | ok a s' =>
    rw [hx] at hends
    cases hy : y t with
    | ok b t' =>
      rw [hy] at hends
      obtain ⟨hsessions⟩ := hends
      exact (hfg a ⟨s, s', hx⟩).agree hsessions
    | error e t' =>
      rw [hy] at hends
      cases hends
  | error e s' =>
    rw [hx] at hends
    cases hy : y t with
    | ok b t' =>
      rw [hy] at hends
      cases hends
    | error e' t' =>
      rw [hy] at hends
      obtain ⟨⟩ | ⟨hfailures⟩ := hends
      exact .error hfailures

theorem bind {x y : Run α} {f g : α → Run β} (hxy : InStep c x y)
    (hfg : ∀ a, InStep c (f a) (g a)) : InStep c (x >>= f) (y >>= g) :=
  hxy.bind' fun a _ => hfg a

variable (hc : c.Lawful m)

include hc

theorem fail (e : MergeError) : InStep c (Run.fail e : Run α) (Run.fail e) :=
  ⟨fun h => .error (hc.failures_same e h)⟩

/-- A mismatch is the same whichever of two corresponding values is found. -/
theorem failMismatch (full : Path) (expected : String) {v w : Json} (hvalues : c.values v w) :
    InStep c (Run.fail (.typeMismatch full expected v.typeName) : Run α)
      (Run.fail (.typeMismatch full expected w.typeName)) :=
  ⟨fun h => .error (hc.failures_mismatch full expected h hvalues)⟩

theorem ofExcept (x : Except MergeError α) : InStep c (Run.ofExcept x) (Run.ofExcept x) := by
  cases x with
  | ok a => exact pure a
  | error e => exact fail hc e

theorem require (e : MergeError) (x : Option α) :
    InStep c (Run.require e x) (Run.require e x) := by
  cases x with
  | some a => exact pure a
  | none => exact fail hc e

theorem record (change : Change) : InStep c (Run.record change) (Run.record change) :=
  ⟨fun h => .ok (hc.noting change h)⟩

theorem quietly {x y : Run α} (hxy : InStep c x y) :
    InStep c (Run.quietly x) (Run.quietly y) := by
  refine ⟨fun {s t} h => ?_⟩
  have hends := hxy.agree (hc.populating h)
  unfold Run.quietly
  cases hx : x { s with populating := s.populating + 1 } with
  | ok a s' =>
    rw [hx] at hends
    cases hy : y { t with populating := t.populating + 1 } with
    | ok b t' =>
      rw [hy] at hends
      obtain ⟨hsessions⟩ := hends
      exact .ok (hc.populated h hsessions)
    | error e t' =>
      rw [hy] at hends
      cases hends
  | error e s' =>
    rw [hx] at hends
    cases hy : y { t with populating := t.populating + 1 } with
    | ok b t' =>
      rw [hy] at hends
      cases hends
    | error e' t' =>
      rw [hy] at hends
      obtain ⟨⟩ | ⟨hfailures⟩ := hends
      exact .error (hc.failures_populated h hfailures)

/-- Two requests that differ in corresponding values get one answer. -/
theorem validate (r : Request) {w : Json} (hvalues : c.values r.value w) :
    InStep c (m.validate r) (m.validate { r with value := w }) := by
  refine ⟨fun {s t} h => ?_⟩
  unfold Merger.validate
  rw [← hc.approves_eq r h hvalues]
  split
  · exact .ok (hc.asking r h hvalues)
  · exact .error (hc.failures_same _ (hc.asking r h hvalues))

theorem construct (type : TypeName) (path : Path) :
    InStep c (m.construct type path) (m.construct type path) := by
  have hconstruct : InStep c (m.construct? type) (m.construct? type) := by
    refine ⟨fun {s t} h => ?_⟩
    unfold Merger.construct?
    dsimp only
    split
    · exact .ok h
    · split
      · rw [hc.minted_eq h]
        have hsessions := hc.minting h
        rw [hc.minted_eq h] at hsessions
        exact .ok hsessions
      · exact .ok h
  exact hconstruct.bind fun made => require hc _ made

theorem ensure (type : TypeName) (path : Path) (found : Option Fields) :
    InStep c (m.ensure type path found) (m.ensure type path found) := by
  cases found with
  | some fields => exact pure fields
  | none => exact construct hc type path

end InStep

namespace Merger

section Steps

variable (hc : c.Lawful m)

include hc

/-! ## Assignments -/

theorem inStep_assignLeaf (full : Path) (patch original : Node) (member : Member)
    (sourceType : LeafType) (source : Cell) :
    InStep c (m.assignLeaf full patch original member sourceType source)
      (m.assignLeaf full patch original member sourceType source) := by
  refine .bind (.ofExcept hc _) fun value => .bind (.validate hc _ (hc.values_refl _)) fun _ => ?_
  split
  · split
    · exact .bind (.record hc _) fun _ => .pure _
    · exact .fail hc _
  · exact .fail hc _

theorem inStep_unsetObject (full : Path) (patch original : Node) (member : Member) :
    InStep c (m.unsetObject full patch original member)
      (m.unsetObject full patch original member) := by
  refine .bind (.validate hc _ (hc.values_refl _)) fun _ => ?_
  split
  · exact .bind (.record hc _) fun _ => .pure _
  · exact .fail hc _

theorem inStep_assignMember (full : Path) {node node' : Json} (hnode : c.values node node')
    (patch original : Node) (name : String) :
    InStep c (m.assignMember full node patch original name)
      (m.assignMember full node' patch original name) := by
  unfold assignMember
  split
  · exact .pure _
  · split
    · exact .bind (.ofExcept hc _) fun fields => .bind (.record hc _) fun _ => .pure fields
    · refine .bind (.ofExcept hc _) fun members => ?_
      obtain ⟨patchMember, originalMember⟩ := members
      dsimp only
      split
      · exact inStep_assignLeaf hc ..
      · exact inStep_unsetObject hc ..
      · exact .fail hc _
      · exact .failMismatch hc _ _ hnode
      · exact .fail hc _

theorem inStep_assignEntry (full : Path) (patchType type : LeafType)
    (patchEntries entries : List (String × Cell)) (key : String) :
    InStep c (m.assignEntry full patchType patchEntries type entries key)
      (m.assignEntry full patchType patchEntries type entries key) := by
  refine .bind (.require hc _ _) fun source => .bind (.ofExcept hc _) fun value =>
    .bind (.validate hc _ (hc.values_refl _)) fun _ => ?_
  split
  · exact .bind (.record hc _) fun _ => .pure _
  · exact .fail hc _

theorem inStep_clearList (full : Path) {node node' : Json} (hnode : c.values node node')
    (patch original : Node) (member : Member) :
    InStep c (m.clearList full node patch original member)
      (m.clearList full node' patch original member) := by
  refine .bind (.validate hc ⟨full, member.name, node, .updateProperty, some original, some patch⟩
    hnode) fun _ => ?_
  split
  · split
    · exact .bind (.record hc _) fun _ => .pure _
    · exact .fail hc _
  · exact .fail hc _

/-! ## Navigation -/

/-- Navigations are in step when the visitors are, for all pairs of objects that the
navigation can come to. `reaches` says which these are, by the keys that are left. -/
theorem inStep_visit (reaches : List String → Node → Node → Prop)
    (hhop : ∀ {keys rest : List String} {patch original p o : Node} {put : Fields → Fields}
      {s t : Session}, m.Hop patch original s keys p o put t → rest ≠ [] →
      reaches (keys ++ rest) patch original → reaches rest p o)
    {node node' : Json} (hnode : c.values node node')
    {onMember onMember' : Node → Node → String → Run Fields}
    (hact : ∀ p o name, reaches [name] p o → InStep c (onMember p o name) (onMember' p o name)) :
    (before rest : List String) → (patch original : Node) → reaches rest patch original →
    InStep c (m.visit node onMember before rest patch original)
      (m.visit node' onMember' before rest patch original)
  | _, [], _, _, _ => .fail hc _
  | _, [name], patch, original, hreaches => hact patch original name hreaches
  | before, name :: key :: rest, patch, original, hreaches => by
    unfold visit
    refine .bind' (.ofExcept hc _) fun members hpair => ?_
    obtain ⟨patchMember, originalMember⟩ := members
    obtain ⟨s, _, hpair⟩ := hpair
    obtain ⟨hpm, hom⟩ := memberPair_eq_ok.1 (Run.Succeeds.ofExcept_iff.1 hpair).1
    dsimp only
    split
    · rename_i p i type fields hread htarget
      have hinner := hhop (.object (s := s) hpm hom hread htarget) (by simp) hreaches
      exact .bind (inStep_visit reaches hhop hnode hact _ _ _ _ hinner) fun _ => .pure _
    · rename_i p i type present hread htarget
      refine .bind' (.ensure hc _ _ _) fun fields hensure => ?_
      obtain ⟨s, t, hensure⟩ := hensure
      have hinner := hhop (.optional hpm hom hread htarget (.of_ensure hensure)) (by simp) hreaches
      exact .bind (inStep_visit reaches hhop hnode hact _ _ _ _ hinner) fun _ => .pure _
    · exact .fail hc _
    · exact .fail hc _
    · rename_i patchType patchEntries i type entries hread htarget
      split
      · exact .failMismatch hc _ _ hnode
      · refine .bind' (.require hc _ _) fun p hpatch => ?_
        refine .bind' (.ensure hc _ _ _) fun fields hensure => ?_
        obtain ⟨_, _, hpatch⟩ := hpatch
        obtain ⟨s, t, hensure⟩ := hensure
        have hinner := hhop (.entry hpm hom hread htarget
          (Run.Succeeds.require_iff.1 hpatch).1 (.of_ensure hensure)) (by simp) hreaches
        exact .bind (inStep_visit reaches hhop hnode hact _ _ _ _ hinner) fun _ => .pure _
    · split
      · exact .bind (inStep_assignEntry hc ..) fun _ => .pure _
      · exact .fail hc _
    · split <;> exact .fail hc _
    all_goals exact .fail hc _

/-! ## Collections -/

theorem inStep_dropUnmentioned (r : Reconciliation) (mentioned : List Uuid)
    (items : List Fields) :
    InStep c (m.dropUnmentioned r mentioned items) (m.dropUnmentioned r mentioned items) := by
  induction items with
  | nil => exact .pure _
  | cons item items ih =>
    unfold dropUnmentioned
    split
    · split
      · exact .bind ih fun _ => .pure _
      · exact .bind (.validate hc _ (hc.values_refl _)) fun _ => .bind (.record hc _) fun _ => ih
    · exact .bind ih fun _ => .pure _

theorem inStep_removeItem (r : Reconciliation) {value value' : Json}
    (hvalue : c.values value value') (id : Uuid) (state : Reconciled) :
    InStep c (m.removeItem r value id state) (m.removeItem r value' id state) :=
  .bind (.require hc _ _) fun position => .bind
    (.bind (.validate hc ⟨r.full, r.property, value, .removeItem,
        Collection.item? r.type state.items position,
        m.catalogue.itemWithId? r.patchType r.patchItems id⟩ hvalue)
      fun _ => .bind (.record hc _) fun _ => .pure _) fun _ => .pure _

theorem inStep_freshItem (r : Reconciliation) (patchItem : Node) :
    InStep c (m.freshItem r patchItem) (m.freshItem r patchItem) := by
  unfold freshItem
  split
  · exact .ofExcept hc _
  · exact .bind (.construct hc _ _) fun _ => .pure _

theorem inStep_pushItem (r : Reconciliation) {value value' : Json}
    (hvalue : c.values value value') (patchItem item : Node) (state : Reconciled) :
    InStep c (m.pushItem r value patchItem item state)
      (m.pushItem r value' patchItem item state) := by
  refine .bind (.validate hc ⟨r.full, r.property, value, .addItem, some item, some patchItem⟩
    hvalue) fun _ => ?_
  split
  · exact .bind (.record hc _) fun _ => .pure _
  · exact .fail hc _

theorem inStep_itemPair (r : Reconciliation) (id : Uuid) (state : Reconciled) :
    InStep c (m.itemPair r id state) (m.itemPair r id state) :=
  .bind (.require hc _ _) fun _ => .bind (.require hc _ _) fun _ =>
    .bind (.require hc _ _) fun _ => .pure _

theorem inStep_patchCollection (full : Path) (patch : Node) (member : Member) :
    InStep c (m.patchCollection full patch member) (m.patchCollection full patch member) := by
  unfold patchCollection
  split
  · exact .pure _
  all_goals exact .fail hc _

theorem inStep_itemsIdentified (full : Path) (original : Node) (member : Member) :
    InStep c (m.itemsIdentified full original member)
      (m.itemsIdentified full original member) := by
  unfold itemsIdentified
  split
  · exact .pure _
  · exact .fail hc _

theorem inStep_askToClear (full : Path) {node node' : Json} (hnode : c.values node node')
    (patch original : Node) (member : Member) (clears : Bool) :
    InStep c (m.askToClear full node patch original member clears)
      (m.askToClear full node' patch original member clears) := by
  cases clears with
  | true =>
    exact .validate hc ⟨full, member.name, node, .updateProperty, some original, some patch⟩ hnode
  | false => exact .pure _

theorem inStep_clearItems (full : Path) (clears : Bool) (items : List Fields) :
    InStep c (clearItems full clears items) (clearItems full clears items) := by
  unfold clearItems
  split
  · split
    · exact .pure _
    · exact .bind (.record hc _) fun _ => .pure _
  · exact .pure _

theorem inStep_keepMentioned (r : Reconciliation) (drops : Bool) (state : Reconciled) :
    InStep c (m.keepMentioned r drops state) (m.keepMentioned r drops state) := by
  cases drops with
  | true => exact inStep_dropUnmentioned hc r state.mentioned state.items
  | false => exact .pure _

/-- Collections are reconciled in step when the elements are run in step. -/
theorem inStep_reconcile {full : Path} {node node' : Json} (hnode : c.values node node')
    {elements elements' : List Element}
    (hvalues : List.Forall₂ (fun e e' => c.values e.value e'.value) elements elements')
    {runElements runElements' : Reconciliation → Reconciled → Run Reconciled}
    (patch original : Node) (patchMember member : Member)
    (hrun : ∀ patchType patchItems i type items found,
      patch.read? patchMember = some (.collection patchType patchItems) →
      original.target? member = some (i, .collection type items) → found ⊆ items →
      InStep c (runElements ⟨full, member.name, patchType, patchItems, type⟩ ⟨found, []⟩)
        (runElements' ⟨full, member.name, patchType, patchItems, type⟩ ⟨found, []⟩)) :
    InStep c (m.reconcile full node elements runElements patch original patchMember member)
      (m.reconcile full node' elements' runElements' patch original patchMember member) := by
  have hempty : elements'.isEmpty = elements.isEmpty := by cases hvalues <;> rfl
  unfold reconcile
  -- the first elements that are no objects correspond
  rcases find?_of_forall₂ (p := fun e => !e.value.isObject) (q := fun e => !e.value.isObject)
      (fun e e' hvalue => by rw [hc.isObject_eq hvalue]) hvalues with
    ⟨hnone, hnone'⟩ | ⟨e, e', hsome, hsome', hvalue⟩
  · rw [hnone, hnone', hempty]
    dsimp only
    refine .bind' (inStep_patchCollection hc ..) fun shown hpatch => ?_
    obtain ⟨patchType, patchItems⟩ := shown
    obtain ⟨_, _, hpatch⟩ := hpatch
    have hpatch := (patchCollection_iff.1 hpatch).1
    refine .bind (inStep_itemsIdentified hc ..) fun identified =>
      .bind (inStep_askToClear hc _ hnode ..) fun _ => ?_
    split
    · rename_i i type items htarget
      split
      · exact .pure _
      · refine .bind' (inStep_clearItems hc ..) fun found hfound => ?_
        obtain ⟨s, t, hfound⟩ := hfound
        have hsubset : found ⊆ items := by
          unfold clearItems at hfound
          split at hfound
          · split at hfound
            · obtain ⟨rfl, -⟩ := Run.Succeeds.pure_iff.1 hfound
              exact List.nil_subset _
            · simp only [Run.Succeeds.bind_iff, Run.Succeeds.pure_iff] at hfound
              obtain ⟨_, _, _, rfl, _⟩ := hfound
              exact List.nil_subset _
          · obtain ⟨rfl, -⟩ := Run.Succeeds.pure_iff.1 hfound
            exact List.Subset.refl _
        exact .bind (hrun _ _ _ _ _ _ hpatch htarget hsubset) fun _ =>
          .bind (inStep_keepMentioned hc ..) fun _ => .pure _
    · exact .fail hc _
  · rw [hsome, hsome']
    exact .failMismatch hc _ _ hvalue

/-- Arrays are applied in step when the elements are run in step. -/
theorem inStep_arrayMember {full : Path} {node node' : Json} (hnode : c.values node node')
    {elements elements' : List Element}
    (hvalues : List.Forall₂ (fun e e' => c.values e.value e'.value) elements elements')
    {runElements runElements' : Reconciliation → Reconciled → Run Reconciled}
    (patch original : Node) (name : String)
    (hrun : ∀ {pm om : Member} {patchType type : TypeName} {patchItems items : List Fields}
      {i : Nat}, m.member? patch name = some pm → m.member? original name = some om →
      patch.read? pm = some (.collection patchType patchItems) →
      original.target? om = some (i, .collection type items) →
      ∀ found, found ⊆ items →
      InStep c (runElements ⟨full, om.name, patchType, patchItems, type⟩ ⟨found, []⟩)
        (runElements' ⟨full, om.name, patchType, patchItems, type⟩ ⟨found, []⟩)) :
    InStep c (m.arrayMember full node elements runElements patch original name)
      (m.arrayMember full node' elements' runElements' patch original name) := by
  have hempty : elements'.isEmpty = elements.isEmpty := by cases hvalues <;> rfl
  unfold arrayMember
  split
  · exact .pure _
  · refine .bind' (.ofExcept hc _) fun members hpair => ?_
    obtain ⟨patchMember, originalMember⟩ := members
    obtain ⟨s, _, hpair⟩ := hpair
    obtain ⟨hpm, hom⟩ := memberPair_eq_ok.1 (Run.Succeeds.ofExcept_iff.1 hpair).1
    dsimp only
    rw [hempty]
    split
    · exact inStep_clearList hc _ hnode ..
    · split
      · exact inStep_assignMember hc _ hnode ..
      · refine inStep_reconcile hc hnode hvalues _ _ _ _ fun _ _ _ _ _ found hpatch htarget => ?_
        exact hrun hpm hom hpatch htarget found

end Steps

/-- Nothing comes of an element that is no object. -/
theorem runElement_of_not_isObject {r : Reconciliation} {position : Nat} {value : Json}
    {directives : List Directive} {state : Reconciled} (h : value.isObject = false) :
    m.runElement r position (.mk value directives) state = pure state := by
  cases value with
  | object => cases h
  | _ =>
    rw [runElement]
    rintro _ ⟨⟩

/-! ## Directives -/

mutual

/-- A directive is in step with itself. -/
theorem inStep_runDirective (hc : c.Lawful m) (base : List String) (patch original : Node) :
    (directive : Directive) →
    InStep c (runDirective m base patch original directive)
      (runDirective m base patch original directive)
  | .scalar path value => by
    unfold runDirective
    split
    · exact .pure _
    · exact inStep_visit hc (fun _ _ _ => True) (fun _ _ _ => trivial)
        (hc.values_refl _) (fun _ _ _ _ => inStep_assignMember hc _ (hc.values_refl _) ..)
        _ _ _ _ trivial
  | .array path elements => by
    unfold runDirective
    exact inStep_visit hc (fun _ _ _ => True) (fun _ _ _ => trivial)
      (hc.values_refl _) (fun _ _ _ _ => inStep_arrayMember hc (hc.values_refl _)
        (List.forall₂_same.2 fun _ _ => hc.values_refl _) _ _ _
        fun _ _ _ _ _ _ => inStep_runElements hc _ 0 elements _) _ _ _ _ trivial

theorem inStep_runDirectives (hc : c.Lawful m) (base : List String) (patch : Node) (type : TypeName) :
    (directives : List Directive) → (fields : Fields) →
    InStep c (runDirectives m base patch type directives fields)
      (runDirectives m base patch type directives fields)
  | [], _ => .pure _
  | directive :: directives, fields => by
    unfold runDirectives
    exact .bind (inStep_runDirective hc base patch _ directive) fun fields =>
      inStep_runDirectives hc base patch type directives fields

theorem inStep_runElements (hc : c.Lawful m) (r : Reconciliation) (position : Nat) :
    (elements : List Element) → (state : Reconciled) →
    InStep c (runElements m r position elements state) (runElements m r position elements state)
  | [], _ => .pure _
  | element :: elements, state => by
    unfold runElements
    exact .bind (inStep_runElement hc r position element state) fun state =>
      inStep_runElements hc r (position + 1) elements state

theorem inStep_runElement (hc : c.Lawful m) (r : Reconciliation) (position : Nat) :
    (element : Element) → (state : Reconciled) →
    InStep c (runElement m r position element state) (runElement m r position element state)
  | .mk (.object members) directives, state => by
    unfold runElement
    refine .bind (.ofExcept hc _) fun intent => ?_
    split
    · exact .bind (.require hc _ _) fun patchItem => .bind (inStep_freshItem hc r patchItem)
        fun fresh => .bind (.quietly hc (inStep_runDirectives hc ..)) fun _ =>
          inStep_pushItem hc r (hc.values_refl _) ..
    · exact .bind (inStep_itemPair hc ..) fun pair =>
        .bind (inStep_runDirectives hc ..) fun _ => .pure _
    · exact inStep_removeItem hc r (hc.values_refl _) ..
  | .mk .null _, _ | .mk (.bool _) _, _ | .mk (.number _) _, _ | .mk (.string _) _, _
  | .mk (.array _) _, _ => by
    unfold runElement
    exact .pure _

end

/-! ## A whole merge -/

/-- A merge of a payload that is an object ends as the run of its directives does. -/
theorem merge_object (patch original : Node) (members : List (String × Json)) (minted : Nat) :
    m.merge patch original (.object members) minted =
      .ofResult original (m.applyMembers patch original members (Session.start minted)) := by
  rw [merge, Payload.members?]
  dsimp only
  cases m.applyMembers patch original members (Session.start minted) <;> rfl

end Merger

end SelectiveMerge
