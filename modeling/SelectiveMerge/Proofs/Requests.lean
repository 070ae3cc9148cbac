import Mathlib.Data.List.Forall2
import Mathlib.Data.List.NodupEquivFin
import SelectiveMerge.Proofs.Payload
import SelectiveMerge.Proofs.Refusal
import SelectiveMerge.Proofs.Step

/-!
# The requests of a merge

What a validator sees of a merge, and how it relates to the report. A request that is
refused is the last one and its refusal is the outcome. When the merge succeeds, each
change that is not an override's stands for a request that was granted for it, in the
same order, and the requests that were sent while a new item was being populated stand
right before the one that adds the item, without a change of their own.

* `Nested` — the requests of a stretch of a merge, additions with what populates them
* `Accounts` — the changes of a stretch stand for some of its requests, in order
* `Stretch`, `Extends` — a part of a merge adds such a stretch to the record
* `hookDiscipline_merge` — the whole merge
-/

namespace SelectiveMerge

/-- The operation that was asked for before a change of a kind. What an override does is
not asked for. -/
def ChangeKind.operation? : ChangeKind → Option Operation
  | .updated | .cleared => some .updateProperty
  | .added => some .addItem
  | .removed => some .removeItem
  | .custom => none

/-- The changes of a report that were asked for: all but those of overrides. -/
def Report.requested (changes : List Change) : List Change :=
  changes.filter fun c => c.kind ≠ .custom

/-- The change took place where a request had asked for it, while so many new items were
being populated. -/
structure Answers (depth : Nat) (c : Change) (x : SentRequest) : Prop where
  populating_eq : x.populating = depth
  path_eq : x.request.path = c.path
  operation_eq : c.kind.operation? = some x.request.operation

/-- The requests of a stretch of a merge during which `depth` new items are being
populated, save for the stretches that populate yet another one: these come right before
the request to add that item, and ask about what is inside of it. -/
inductive Nested : (depth : Nat) → List SentRequest → Prop where
  | nil {depth : Nat} : Nested depth []
  | own {depth : Nat} {request : Request} {later : List SentRequest}
      (hlater : Nested depth later) : Nested depth (⟨request, depth⟩ :: later)
  | addition {depth : Nat} {inner later : List SentRequest} {request : Request}
      (hoperation : request.operation = .addItem) (hinner : Nested (depth + 1) inner)
      (hinside : ∀ x ∈ inner, request.path.segments <+: x.request.path.segments)
      (hlater : Nested depth later) :
      Nested depth (inner ++ ⟨request, depth⟩ :: later)

/-- Each change that was asked for has its request, later changes have later ones. -/
def Accounts (depth : Nat) (changes : List Change) (sent : List SentRequest) : Prop :=
  List.SublistForall₂ (Answers depth) (Report.requested changes) sent

theorem Nested.append {depth : Nat} {sent later : List SentRequest} (h : Nested depth sent)
    (hlater : Nested depth later) : Nested depth (sent ++ later) := by
  induction h with
  | nil => exact hlater
  | own _ ih => exact .own (ih hlater)
  | addition hoperation hinner hinside _ _ ih =>
    rw [List.append_assoc]
    exact .addition hoperation hinner hinside (ih hlater)

/-- No request of a stretch was sent while fewer items were being populated. -/
theorem Nested.le_populating {depth : Nat} {sent : List SentRequest} (h : Nested depth sent) :
    ∀ x ∈ sent, depth ≤ x.populating := by
  induction h with
  | nil => simp
  | own _ ih => simpa using ih
  | addition _ _ _ _ ihinner ih =>
    intro x hx
    rcases List.mem_append.1 hx with hx | hx
    · exact (Nat.le_succ _).trans (ihinner x hx)
    · rcases List.mem_cons.1 hx with rfl | hx
      · exact le_rfl
      · exact ih x hx

/-- After a request that was sent while more items were being populated, the first one
with fewer of them is the request to add the innermost of these, which it is inside of. -/
theorem Nested.exists_addition {depth : Nat} {sent : List SentRequest} (h : Nested depth sent) :
    ∀ before x after, sent = before ++ x :: after → depth < x.populating →
      ∃ mid y rest, after = mid ++ y :: rest ∧ (∀ z ∈ mid, x.populating ≤ z.populating) ∧
        y.populating + 1 = x.populating ∧ y.request.operation = .addItem ∧
        y.request.path.segments <+: x.request.path.segments := by
  induction h with
  | nil =>
    intro before x after heq
    simp at heq
  | own _ ih =>
    intro before x after heq hdepth
    rcases List.cons_eq_append_iff.1 heq with ⟨-, hx⟩ | ⟨tail, -, hlater⟩
    · obtain ⟨rfl, -⟩ := List.cons_eq_cons.1 hx
      exact absurd hdepth (lt_irrefl _)
    · exact ih tail x after hlater hdepth
  | @addition depth inner later request hoperation hinner hinside hlater ihinner ih =>
    intro before x after heq hdepth
    rcases List.append_eq_append_iff.1 heq with ⟨mid, -, htail⟩ | ⟨mid, hinit, htail⟩
    · -- the request stands after those that populate the item
      rcases List.cons_eq_append_iff.1 htail with ⟨-, hx⟩ | ⟨tail, -, hlater⟩
      · obtain ⟨rfl, -⟩ := List.cons_eq_cons.1 hx
        exact absurd hdepth (lt_irrefl _)
      · exact ih tail x after hlater hdepth
    · cases mid with
      | nil =>
        obtain ⟨rfl, -⟩ := List.cons_eq_cons.1 htail
        exact absurd hdepth (lt_irrefl _)
      | cons _ mid =>
        obtain ⟨rfl, rfl⟩ := List.cons_eq_cons.1 htail
        have hmem : x ∈ inner := by simp [hinit]
        rcases Nat.lt_or_ge (depth + 1) x.populating with hdeeper | hle
        · obtain ⟨mid', y, rest, rfl, hmid, hy, hop, hpath⟩ := ihinner before x mid hinit hdeeper
          exact ⟨mid', y, rest ++ ⟨request, depth⟩ :: later, by simp, hmid, hy, hop, hpath⟩
        · refine ⟨mid, ⟨request, depth⟩, later, rfl, fun z hz => ?_, by simp; omega, hoperation,
            hinside x hmem⟩
          have hz : depth + 1 ≤ z.populating := hinner.le_populating z (by simp [hinit, hz])
          omega

theorem Accounts.append {depth : Nat} {changes changes' : List Change}
    {sent sent' : List SentRequest} (h : Accounts depth changes sent)
    (h' : Accounts depth changes' sent') :
    Accounts depth (changes ++ changes') (sent ++ sent') := by
  unfold Accounts Report.requested at *
  rw [List.filter_append]
  obtain ⟨granted, hanswers, hsub⟩ := List.sublistForall₂_iff.1 h
  obtain ⟨granted', hanswers', hsub'⟩ := List.sublistForall₂_iff.1 h'
  exact List.sublistForall₂_iff.2
    ⟨granted ++ granted', List.rel_append hanswers hanswers', hsub.append hsub'⟩

/-- Changes that stand for requests of a stretch stand for such of a longer one. -/
theorem Accounts.exists_place {depth : Nat} {changes : List Change} {sent : List SentRequest}
    (h : Accounts depth changes sent) :
    ∃ place : Fin (Report.requested changes).length ↪o Fin sent.length,
      ∀ i, Answers depth ((Report.requested changes).get i) (sent.get (place i)) := by
  obtain ⟨granted, hanswers, hsub⟩ := List.sublistForall₂_iff.1 h
  obtain ⟨hlength, hanswers⟩ := List.forall₂_iff_get.1 hanswers
  obtain ⟨place, hplace⟩ := List.sublist_iff_exists_fin_orderEmbedding_get_eq.1 hsub
  refine ⟨(Fin.castOrderIso hlength).toOrderEmbedding.trans place, fun i => ?_⟩
  have hanswer := hanswers i i.2 (hlength ▸ i.2)
  have heq := hplace (Fin.cast hlength i)
  rw [show (place (Fin.cast hlength i)) =
    ((Fin.castOrderIso hlength).toOrderEmbedding.trans place) i from rfl] at heq
  rw [← heq]
  exact hanswer

/-- A stretch of a merge: requests about what is inside of `base`, and changes that stand
for some of them or that overrides made. -/
structure Stretch (m : Merger) (base : List String) (depth : Nat) (changes : List Change)
    (sent : List SentRequest) : Prop where
  accounts : Accounts depth changes sent
  nested : Nested depth sent
  inside : ∀ x ∈ sent, base <+: x.request.path.segments
  customs : ∀ c ∈ changes, c.kind = .custom → m.configuration.setAction? c.path ≠ none

namespace Stretch

variable {m : Merger} {base : List String} {depth : Nat} {changes changes' : List Change}
  {sent sent' : List SentRequest}

theorem nil : Stretch m base depth [] [] where
  accounts := .nil
  nested := .nil
  inside := by simp
  customs := by simp

theorem append (h : Stretch m base depth changes sent)
    (h' : Stretch m base depth changes' sent') :
    Stretch m base depth (changes ++ changes') (sent ++ sent') where
  accounts := h.accounts.append h'.accounts
  nested := h.nested.append h'.nested
  inside := by
    intro x hx
    rcases List.mem_append.1 hx with hx | hx
    · exact h.inside x hx
    · exact h'.inside x hx
  customs := by
    intro c hc
    rcases List.mem_append.1 hc with hc | hc
    · exact h.customs c hc
    · exact h'.customs c hc

/-- A request without a change. -/
theorem request {r : Request} {full : Path} (hpath : r.path = full) :
    Stretch m full.segments depth [] [⟨r, depth⟩] where
  accounts := .nil
  nested := .own .nil
  inside := by simp [hpath]
  customs := by simp

/-- A change that an override made. -/
theorem custom {full : Path} (haction : m.configuration.setAction? full ≠ none) :
    Stretch m base depth [⟨full, .custom, none⟩] [] where
  accounts := .nil
  nested := .nil
  inside := by simp
  customs := by simpa using haction

/-- A change and the request that it stands for, the last of a stretch. -/
theorem change {r : Request} {full : Path} {kind : ChangeKind} {id : Option Uuid}
    (hpath : r.path = full) (hkind : kind.operation? = some r.operation)
    (hnested : Nested depth (sent ++ [⟨r, depth⟩]))
    (hinside : ∀ x ∈ sent, full.segments <+: x.request.path.segments) :
    Stretch m full.segments depth [⟨full, kind, id⟩] (sent ++ [⟨r, depth⟩]) where
  accounts := by
    have hrequested : Report.requested [⟨full, kind, id⟩] = [⟨full, kind, id⟩] := by
      cases kind <;> first | rfl | cases hkind
    have hnone : Accounts depth [] sent := .nil
    have hchange : Accounts depth [⟨full, kind, id⟩] [⟨r, depth⟩] := by
      rw [Accounts, hrequested]
      exact .cons ⟨rfl, hpath, hkind⟩ .nil
    exact hnone.append hchange
  nested := hnested
  inside := by
    intro x hx
    rcases List.mem_append.1 hx with hx | hx
    · exact hinside x hx
    · obtain rfl := List.mem_singleton.1 hx
      exact hpath ▸ List.prefix_refl _
  customs := by
    intro c hc hcustom
    obtain rfl := List.mem_singleton.1 hc
    obtain rfl : kind = .custom := hcustom
    cases hkind

/-- Without overrides the changes are inside as well, since requests stand for them. -/
theorem changes_inside (hactions : m.configuration.NoActions)
    (h : Stretch m base depth changes sent) : ∀ c ∈ changes, base <+: c.path.segments := by
  intro c hc
  have hkind : c.kind ≠ .custom :=
    fun hcustom => h.customs c hc hcustom (hactions.setAction?_eq_none c.path)
  have hrequested : c ∈ Report.requested changes := List.mem_filter.2 ⟨hc, by simpa using hkind⟩
  obtain ⟨granted, hanswers, hsub⟩ := List.sublistForall₂_iff.1 h.accounts
  obtain ⟨i, hi, rfl⟩ := List.mem_iff_getElem.1 hrequested
  obtain ⟨hlength, hanswers⟩ := List.forall₂_iff_get.1 hanswers
  have hanswer := hanswers i hi (hlength ▸ hi)
  rw [List.get_eq_getElem, List.get_eq_getElem] at hanswer
  rw [← hanswer.path_eq]
  exact h.inside _ (hsub.subset (List.getElem_mem _))

/-- Without requests and overrides there are no changes. -/
theorem changes_eq_nil (hactions : m.configuration.NoActions)
    (h : Stretch m base depth changes []) : changes = [] := by
  cases changes with
  | nil => rfl
  | cons c changes =>
    by_cases hkind : c.kind = .custom
    · exact absurd (hactions.setAction?_eq_none c.path) (h.customs c (List.mem_cons_self ..) hkind)
    · have haccounts := h.accounts
      rw [Accounts, Report.requested, List.filter_cons_of_pos (by simpa using hkind)] at haccounts
      cases haccounts

end Stretch

/-- What a part of a merge that ends well adds to the record is a stretch. As many new items
are being populated after it as before, and no fewer identities have been minted. -/
structure Extends (m : Merger) (base : List String) (s s' : Session) : Prop where
  counters : s'.populating = s.populating ∧ s.minted ≤ s'.minted
  adds : ∃ changes sent, s'.report.changes = s.report.changes ++ changes ∧
    s'.sent = s.sent ++ sent ∧ Stretch m base s.populating changes sent

namespace Extends

variable {m : Merger} {base : List String} {s s' t : Session}

theorem refl (base : List String) (s : Session) : Extends m base s s :=
  ⟨⟨rfl, le_rfl⟩, [], [], by simp, by simp, .nil⟩

theorem trans (h : Extends m base s t) (h' : Extends m base t s') : Extends m base s s' := by
  obtain ⟨⟨hpopulating, hminted⟩, changes, sent, hchanges, hsent, hstretch⟩ := h
  obtain ⟨⟨hpopulating', hminted'⟩, changes', sent', hchanges', hsent', hstretch'⟩ := h'
  rw [hpopulating] at hstretch'
  refine ⟨⟨hpopulating'.trans hpopulating, hminted.trans hminted'⟩, changes ++ changes',
    sent ++ sent', ?_, ?_, hstretch.append hstretch'⟩
  · rw [hchanges', hchanges, List.append_assoc]
  · rw [hsent', hsent, List.append_assoc]

/-- The requests that were sent before are still on record. -/
theorem requests_subset (h : Extends m base s s') : s.requests ⊆ s'.requests := by
  obtain ⟨-, changes, sent, -, hsent, -⟩ := h
  intro r hr
  unfold Session.requests at hr ⊢
  rw [hsent, List.map_append]
  exact List.mem_append_left _ hr

/-- What is inside of an inner place is inside of the outer one. -/
theorem mono {inner : List String} (hbase : base <+: inner) (h : Extends m inner s s') :
    Extends m base s s' := by
  obtain ⟨hcounters, changes, sent, hchanges, hsent, hstretch⟩ := h
  exact ⟨hcounters, changes, sent, hchanges, hsent, hstretch.accounts, hstretch.nested,
    fun x hx => hbase.trans (hstretch.inside x hx), hstretch.customs⟩

/-- A request without a change. -/
theorem asking {r : Request} {full : Path} (hpath : r.path = full) :
    Extends m full.segments s (s.asking r) :=
  ⟨⟨rfl, le_rfl⟩, [], [⟨r, s.populating⟩], by simp, rfl, .request hpath⟩

/-- A request and the change that stands for it. -/
theorem asking_noting {r : Request} {full : Path} {kind : ChangeKind} {id : Option Uuid}
    (hpath : r.path = full) (hkind : kind.operation? = some r.operation) :
    Extends m full.segments s ((s.asking r).noting ⟨full, kind, id⟩) := by
  have hchange : Stretch m full.segments s.populating [⟨full, kind, id⟩]
      ([] ++ [⟨r, s.populating⟩]) := .change hpath hkind (.own .nil) (by simp)
  exact ⟨⟨rfl, le_rfl⟩, _, _, by simp, rfl, hchange⟩

/-- The change of an override stands for no request. -/
theorem noting_custom {full : Path} (haction : m.configuration.setAction? full ≠ none) :
    Extends m base s (s.noting ⟨full, .custom, none⟩) :=
  ⟨⟨rfl, le_rfl⟩, [⟨full, .custom, none⟩], [], by simp, by simp [Session.noting], .custom haction⟩

/-- What is done while a new item is populated leaves requests, and then the request to
add the item stands for its change. -/
theorem addition {r : Request} {full : Path} {id : Option Uuid} (hpath : r.path = full)
    (hoperation : r.operation = .addItem)
    (h : Extends m full.segments { s with populating := s.populating + 1 } t) :
    Extends m full.segments s
      ((({ t with report := s.report, populating := s.populating } : Session).asking r).noting
        ⟨full, .added, id⟩) := by
  obtain ⟨⟨-, hminted⟩, changes, sent, -, hsent, hstretch⟩ := h
  have hnested : Nested s.populating (sent ++ [⟨r, s.populating⟩]) :=
    .addition hoperation hstretch.nested (hpath ▸ hstretch.inside) .nil
  refine ⟨⟨rfl, hminted⟩, [⟨full, .added, id⟩], sent ++ [⟨r, s.populating⟩], by simp, ?_,
    .change hpath (by rw [hoperation]; rfl) hnested hstretch.inside⟩
  simp only [Session.noting, Session.asking, hsent, List.append_assoc]

end Extends

namespace Merger

open Run (Succeeds)

variable {m : Merger} {s s' : Session}

/-! ## Members and navigation -/

theorem Makes.extends {type : TypeName} {fields : Fields} (h : m.Makes type s fields s')
    (base : List String) : Extends m base s s' := by
  cases h with
  | plain => exact .refl base s
  | fresh => exact ⟨⟨rfl, Nat.le_succ _⟩, [], [], by simp, by simp, .nil⟩

theorem Assigns.extends {full : Path} {patch original : Node} {name : String} {fields : Fields}
    (h : m.Assigns full patch original name s fields s') : Extends m full.segments s s' := by
  cases h with
  | identity => exact .refl _ s
  | custom _ haction =>
    refine .noting_custom ?_
    rw [haction]
    exact Option.some_ne_none _
  | leaf => exact .asking_noting rfl rfl
  | unset => exact .asking_noting rfl rfl

theorem Ensures.extends {type : TypeName} {found : Option Fields} {fields : Fields}
    (h : m.Ensures type s found fields s') (base : List String) : Extends m base s s' := by
  cases h with
  | found => exact .refl base s
  | made hmade => exact hmade.extends base

theorem Hop.extends {patch original innerPatch inner : Node} {keys : List String}
    {put : Fields → Fields} (h : m.Hop patch original s keys innerPatch inner put s')
    (base : List String) : Extends m base s s' := by
  cases h with
  | object => exact .refl base s
  | optional _ _ _ _ hensure => exact hensure.extends base
  | entry _ _ _ _ _ hensure => exact hensure.extends base

theorem Visits.extends {full : Path}
    {act : Node → Node → String → Session → Fields → Session → Prop}
    (hact : ∀ {p o name s f s'}, act p o name s f s' → Extends m full.segments s s')
    {rest : List String} {patch original : Node} {fields : Fields}
    (h : m.Visits full act rest patch original s fields s') : Extends m full.segments s s' := by
  induction h with
  | member h => exact hact h
  | entry _ _ _ _ hassign =>
    cases hassign with
    | intro => exact .asking_noting rfl rfl
  | hop hhop _ _ ih => exact (hhop.extends _).trans ih

/-! ## Arrays -/

/-- Whatever a list of directives does, its requests and changes fit. -/
def RunsExtend (m : Merger) (directives : List Directive) : Prop :=
  ∀ {base : List String} {patch : Node} {type : TypeName} {fields made : Fields}
    {s s' : Session}, Succeeds (runDirectives m base patch type directives fields) s made s' →
    Extends m base s s'

theorem MakesItem.extends {r : Reconciliation} {patchItem item : Node}
    (h : m.MakesItem r patchItem s item s') (base : List String) : Extends m base s s' := by
  cases h with
  | factory => exact .refl base s
  | construct _ hmade => exact hmade.extends base

theorem ElementStep.extends {r : Reconciliation} {position : Nat}
    {members : List (String × Json)} {directives : List Directive} {state state' : Reconciled}
    (hdirectives : m.RunsExtend directives)
    (h : m.ElementStep r position members directives state s state' s') :
    Extends m r.full.segments s s' := by
  cases h with
  | add _ _ hfresh _ hrun =>
    exact (hfresh.extends _).trans (.addition rfl rfl (hdirectives hrun))
  | update _ _ _ _ hrun => exact hdirectives hrun
  | remove => exact .asking_noting rfl rfl

theorem ElementsRun.extends {r : Reconciliation} {position : Nat} {elements : List Element}
    {state state' : Reconciled} (hdirectives : ∀ e ∈ elements, m.RunsExtend e.directives)
    (h : m.ElementsRun r position elements state s state' s') :
    Extends m r.full.segments s s' := by
  induction h with
  | nil => exact .refl _ _
  | cons hstep _ ih =>
    have hhead := hstep.extends (hdirectives _ (List.mem_cons_self ..))
    exact hhead.trans (ih fun e he => hdirectives e (List.mem_cons_of_mem _ he))

theorem Clears.extends {full : Path} {node : Json} {patch original : Node} {member : Member}
    {clears : Bool} {items found : List Fields}
    (h : m.Clears full node patch original member clears items s found s') :
    Extends m full.segments s s' := by
  cases h with
  | kept => exact .refl _ s
  | cleared => exact .asking_noting rfl rfl
  | empty => exact .asking rfl

theorem DropsUnmentioned.extends {r : Reconciliation} {mentioned : List Uuid}
    {items left : List Fields} (h : m.DropsUnmentioned r mentioned items s left s') :
    Extends m r.full.segments s s' := by
  induction h with
  | nil => exact .refl _ _
  | kept _ _ ih => exact ih
  | removed _ _ _ _ ih =>
    refine .trans ?_ ih
    exact .asking_noting rfl rfl

theorem Drops.extends {r : Reconciliation} {drops : Bool} {state : Reconciled}
    {items : List Fields} (h : m.Drops r drops state s items s') :
    Extends m r.full.segments s s' := by
  cases h with
  | kept => exact .refl _ s
  | dropped _ hrun => exact hrun.extends

theorem ArrayAssigns.extends {full : Path} {node : Json} {elements : List Element}
    {patch original : Node} {name : String} {fields : Fields}
    (hdirectives : ∀ e ∈ elements, m.RunsExtend e.directives)
    (h : m.ArrayAssigns full node elements patch original name s fields s') :
    Extends m full.segments s s' := by
  cases h with
  | identity => exact .refl _ s
  | emptied => exact .asking_noting rfl rfl
  | assigned _ _ _ _ _ hassign => exact hassign.extends
  | reconciled _ _ _ _ hreconcile =>
    cases hreconcile with
    | ignored => exact .refl _ s
    | run _ _ _ hclears hrun hdrops =>
      exact hclears.extends.trans ((hrun.extends hdirectives).trans hdrops.extends)

/-! ## Directives -/

theorem DirectiveStep.extends_path {base : List String} {patch original : Node}
    {directive : Directive} {fields : Fields}
    (hdirectives : ∀ e ∈ directive.arrayElements, m.RunsExtend e.directives)
    (h : m.DirectiveStep base patch original directive s fields s') :
    Extends m (base ++ directive.path) s s' := by
  cases h with
  | identity => exact .refl _ s
  | scalar _ hvisit => exact hvisit.extends Assigns.extends
  | array hvisit => exact hvisit.extends (ArrayAssigns.extends hdirectives)

theorem DirectiveStep.extends {base : List String} {patch original : Node}
    {directive : Directive} {fields : Fields}
    (hdirectives : ∀ e ∈ directive.arrayElements, m.RunsExtend e.directives)
    (h : m.DirectiveStep base patch original directive s fields s') : Extends m base s s' :=
  (h.extends_path hdirectives).mono (List.prefix_append ..)

/-- A list of directives that succeeds adds a stretch to the record. -/
theorem runsExtend (directives : List Directive) : m.RunsExtend directives := by
  induction directives using Directive.forall_of_elements with
  | nil =>
    intro base patch type fields made s s' h
    obtain ⟨-, rfl⟩ := succeeds_runDirectives_nil.1 h
    exact .refl base s
  | cons directive directives hdirective ih =>
    intro base patch type fields made s s' h
    obtain ⟨mid, t, hhead, htail⟩ := succeeds_runDirectives_cons.1 h
    exact ((DirectiveStep.of_runDirective hhead).extends hdirective).trans (ih htail)

/-! ## A whole merge -/

/-- What the requests of a merge have to do with its outcome. -/
structure HookDiscipline (m : Merger) (original : Node) (o : Outcome) : Prop where
  /-- A refused request is the last one, and its refusal is all that comes of the merge. -/
  refusal : ∀ earlier r later, o.requests = earlier ++ r :: later →
    m.validator.approves earlier r = false →
    later = [] ∧ o.result = .error (.validationRejected r.path r.operation) ∧
      o.original = original
  /-- Requests of a merge that succeeds were all granted. -/
  granted : ∀ report, o.result = .ok report → m.Granted o.requests
  /-- Each change that was asked for has a request of its own, in the same order, that was
  not sent while an item was being populated. -/
  accounted : ∀ report, o.result = .ok report →
    ∃ place : Fin (Report.requested report.changes).length ↪o Fin o.sent.length,
      ∀ i, Answers 0 ((Report.requested report.changes).get i) (o.sent.get (place i))
  /-- After a request that was sent while items were being populated, the first one with
  fewer of them adds the innermost item, which the request is inside of. -/
  populated : ∀ report, o.result = .ok report → ∀ before x after,
    o.sent = before ++ x :: after → 0 < x.populating →
    ∃ mid y rest, after = mid ++ y :: rest ∧ (∀ z ∈ mid, x.populating ≤ z.populating) ∧
      y.populating + 1 = x.populating ∧ y.request.operation = .addItem ∧
      y.request.path.segments <+: x.request.path.segments

/-- A merge that fails keeps to the discipline when its requests were granted, or the last
of them refused. -/
theorem HookDiscipline.of_error {original : Node} {e : MergeError} {sent : List SentRequest}
    {minted : Nat}
    (h : m.Granted (sent.map (·.request)) ∨ m.Refused e (sent.map (·.request))) :
    m.HookDiscipline original ⟨.error e, original, sent, minted⟩ where
  refusal := by
    intro earlier r later hsplit hrefused
    have heq : sent.map (·.request) = earlier ++ r :: later := hsplit
    rcases h with hgranted | ⟨init, last, hrequests, hgranted, -, rfl⟩
    · rw [hgranted earlier r later heq] at hrefused
      cases hrefused
    · rw [hrequests] at heq
      rcases List.eq_nil_or_concat later with rfl | ⟨later, last', rfl⟩
      · obtain ⟨-, hlast⟩ := List.append_inj' heq rfl
        obtain rfl := List.singleton_inj.1 hlast
        exact ⟨rfl, rfl, rfl⟩
      · -- a refused request before the last one was granted
        rw [List.concat_eq_append, ← List.cons_append, ← List.append_assoc] at heq
        obtain ⟨rfl, -⟩ := List.append_inj' heq rfl
        rw [hgranted earlier r later rfl] at hrefused
        cases hrefused
  granted := by
    rintro report ⟨⟩
  accounted := by
    rintro report ⟨⟩
  populated := by
    rintro report ⟨⟩

/-- Every merge keeps to the discipline of its validator. -/
theorem hookDiscipline_merge (m : Merger) (patch original : Node) (payload : Json)
    (minted : Nat) : m.HookDiscipline original (m.merge patch original payload minted) := by
  have hstart : m.Granted (Session.start minted).requests := granted_nil
  rcases m.merge_cases patch original payload minted with
    ⟨e, heq⟩ | ⟨members, e, s, -, hrun, heq⟩ | ⟨members, fields, s, -, hrun, heq⟩
  · rw [heq]
    exact .of_error (.inl granted_nil)
  · rw [heq]
    exact .of_error ((m.guarded_applyMembers patch original members).of_error hstart hrun)
  · have hgranted : m.Granted s.requests :=
      (m.guarded_applyMembers patch original members).of_ok hstart hrun
    obtain ⟨-, changes, sent, hchanges, hsent, hstretch⟩ := m.runsExtend _ hrun
    obtain rfl : s.report.changes = changes := hchanges
    obtain rfl : s.sent = sent := hsent
    rw [heq]
    constructor
    · intro earlier r later heq hrefused
      rw [hgranted earlier r later heq] at hrefused
      cases hrefused
    · rintro report ⟨⟩
      exact hgranted
    · rintro report ⟨⟩
      exact hstretch.accounts.exists_place
    · rintro report ⟨⟩
      exact hstretch.nested.exists_addition

end Merger

end SelectiveMerge
