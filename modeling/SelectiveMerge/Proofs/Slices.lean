import SelectiveMerge.Proofs.Comparison
import SelectiveMerge.Proofs.LevelOrder
import SelectiveMerge.Proofs.Frame
import SelectiveMerge.Proofs.Requests

/-!
# Merges in slices

A payload can be cut into slices, one for each value that keys lead to. A slice has nothing
but these keys and the value. When the validator decides on each request by itself, a merge
does what the merges of its slices do, one after another in level order: only the original,
the report and the number of minted identities pass from one to the next.

* `Merger.walkQueue` — a merge as a loop over a queue, and `walkQueue_children`
* `Payload.slices`, `Merger.mergeEach` — the slices, and their merges in a row
* `Session.after` — what follows a record does not depend on it
* `merge_endsLike_mergeEach` — a merge is the merges of its slices
-/

namespace SelectiveMerge

/-- The validator decides on each request by itself. -/
def Validator.Stateless (v : Validator) : Prop :=
  ∀ (earlier : List Request) (r : Request), v.approves earlier r = v.approves [] r

theorem Validator.stateless_approveAll : Validator.approveAll.Stateless := fun _ _ => rfl

theorem Validator.stateless_stateless (approves : Request → Bool) :
    (Validator.stateless approves).Stateless := fun _ _ => rfl

/-! ## The slices of a payload -/

namespace Payload

variable {options : Options}

/-- The payload in which the keys lead to a value, and which has nothing else. -/
def chain (leaf : Json) : List String → Json
  | [] => leaf
  | key :: path => .object [(key, chain leaf path)]

/-- The slices of a payload, in level order. -/
def slices (options : Options) (payload : Json) : List Json :=
  (levelOrder options payload).map fun t => chain t.2 t.1

/-- In a slice the keys lead to the one value. -/
theorem terminals_chain {payload leaf : Json} {path : List String}
    (h : Leads options payload path leaf) :
    terminals options (chain leaf path) = [(path, leaf)] := by
  induction h with
  | here hvalue => exact terminals_of_not_isObject hvalue
  | member _ hmarker _ ih =>
    rw [chain, terminals, memberTerminals, if_neg (by simp [hmarker]), ih]
    rfl

end Payload

/-- A slice has one directive. -/
theorem Directive.ofMembers_chain {options : Options} {payload leaf : Json} {key : String}
    {path : List String} (h : Leads options payload (key :: path) leaf) :
    Directive.ofMembers options [(key, Payload.chain leaf path)] =
      [Directive.ofValue options (key :: path) leaf] := by
  have hterminals := Payload.terminals_chain h
  rw [Payload.chain] at hterminals
  rw [Directive.ofMembers_eq_map_levelOrder, Payload.levelOrder, hterminals]
  rfl

/-! ## What follows a record -/

namespace Session

/-- The record with another one before it, which had nothing to do with what was minted and
populated. -/
def after (before s : Session) : Session :=
  ⟨before.sent ++ s.sent, ⟨before.report.changes ++ s.report.changes⟩, s.minted, s.populating⟩

/-- A record between two items is what it would be at the start, after itself. -/
theorem eq_after_start {s : Session} (h : s.populating = 0) : s = s.after (start s.minted) := by
  obtain ⟨sent, ⟨changes⟩, minted, populating⟩ := s
  obtain rfl : populating = 0 := h
  simp [after, start, Report.empty]

/-- Two records that differ in what came before. -/
def afterwards (before : Session) : Comparison where
  sessions s t := s = before.after t
  failures e s e' t := e = e' ∧ s = before.after t
  values v w := v = w

/-- A merger whose validator decides on each request by itself goes on in the same way,
whatever came before. -/
theorem lawful_afterwards {m : Merger} (hstateless : m.validator.Stateless) (before : Session) :
    (afterwards before).Lawful m where
  values_refl _ := rfl
  isObject_eq := by
    rintro v _ rfl
    rfl
  failures_same _ h := ⟨rfl, h⟩
  failures_mismatch := by
    rintro s t v _ full expected h rfl
    exact ⟨rfl, h⟩
  noting := by
    rintro _ t change rfl
    simp [afterwards, after, Session.noting, Report.push]
  asking := by
    rintro _ t r _ rfl rfl
    simp [afterwards, after, Session.asking]
  approves_eq := by
    rintro s t r _ - rfl
    rw [hstateless, hstateless t.requests]
  minted_eq := by
    rintro _ t rfl
    rfl
  minting := by
    rintro _ t rfl
    rfl
  populating := by
    rintro _ t rfl
    rfl
  populated := by
    rintro _ t _ t' rfl rfl
    rfl
  failures_populated := by
    rintro _ t _ t' e _ rfl ⟨rfl, rfl⟩
    exact ⟨rfl, rfl⟩

end Session

/-! ## Outcomes -/

namespace Outcome

/-- Two merges end alike: with the same report or the same error, after the same requests and
as many minted identities, and when they succeed with the same object. -/
structure EndsLike (o o' : Outcome) : Prop where
  result_eq : o.result = o'.result
  sent_eq : o.sent = o'.sent
  minted_eq : o.minted = o'.minted
  original_eq : ∀ report, o.result = .ok report → o.original = o'.original

/-- The outcome of two merges, of which the first one succeeded with a report and requests. -/
def following (o : Outcome) (report : Report) (sent : List SentRequest) : Outcome :=
  { o with
    result := o.result.map fun later => ⟨report.changes ++ later.changes⟩
    sent := sent ++ o.sent }

theorem EndsLike.following {o o' : Outcome} (h : o.EndsLike o') (report : Report)
    (sent : List SentRequest) : (o.following report sent).EndsLike (o'.following report sent) where
  result_eq := congrArg (Except.map _) h.result_eq
  sent_eq := congrArg (sent ++ ·) h.sent_eq
  minted_eq := h.minted_eq
  original_eq := by
    intro all hall
    have hresult : o.result.map (fun later => (⟨report.changes ++ later.changes⟩ : Report)) =
        .ok all := hall
    cases hlater : o.result with
    | ok later => exact h.original_eq later hlater
    | error e =>
      rw [hlater] at hresult
      cases hresult

/-- Steps that come after a record end as they do without it, and what comes of them follows
what is on the record. -/
theorem ofResult_of_agree {before : Session} {original : Node}
    {x y : EStateM.Result MergeError Session Fields} (h : (Session.afterwards before).Agree x y) :
    ofResult original x = (ofResult original y).following before.report before.sent := by
  cases h with
  | ok h =>
    obtain rfl := h
    rfl
  | error h =>
    obtain ⟨rfl, rfl⟩ := h
    rfl

end Outcome

namespace Merger

variable {m : Merger}

/-! ## The queue -/

/-- A merge as a loop over a queue: an object is replaced by its members at the end of the
queue, every other value is a directive, which is run. -/
def walkQueue (m : Merger) (patch : Node) (type : TypeName) :
    List (List String × Json) → Fields → Run Fields
  | [], fields => pure fields
  | (path, .object members) :: queue, fields =>
      walkQueue m patch type (queue ++ Directive.children m.options path members) fields
  | (path, value) :: queue, fields => do
      let fields ← m.runDirective [] patch ⟨type, fields⟩ (Directive.ofValue m.options path value)
      walkQueue m patch type queue fields
termination_by queue => Directive.queueSize queue
decreasing_by
  · exact Directive.queueSize_enqueue_lt path members queue
  · exact Directive.queueSize_lt path value queue

/-- The loop runs the directives that the queue yields. -/
theorem walkQueue_eq_runDirectives (patch : Node) (type : TypeName)
    (queue : List (List String × Json)) (fields : Fields) :
    m.walkQueue patch type queue fields =
      m.runDirectives [] patch type (Directive.ofQueue m.options queue) fields := by
  fun_induction Directive.ofQueue m.options queue generalizing fields with
  | case1 => rw [walkQueue, runDirectives]
  | case2 path members queue ih => rw [walkQueue, ih]
  | case3 path value queue hvalue ih =>
    rw [walkQueue, runDirectives]
    · congr 1
      funext fields
      exact ih fields
    · exact hvalue

/-- A merge is the loop over a queue that starts with the members of the payload. -/
theorem walkQueue_children (patch original : Node) (members : List (String × Json)) :
    m.walkQueue patch original.type (Directive.children m.options [] members) original.fields =
      m.applyMembers patch original members := by
  rw [walkQueue_eq_runDirectives, Directive.ofQueue_children]
  rfl

/-! ## Merges in a row -/

/-- Merges payloads into an object, one after another, until one of the merges fails. Each
starts from what the one before it left, and gives out identities from there. -/
def mergeEach (m : Merger) (patch original : Node) : List Json → (minted : Nat) → Outcome
  | [], minted => ⟨.ok .empty, original, [], minted⟩
  | payload :: payloads, minted =>
      let first := m.merge patch original payload minted
      match first.result with
      | .error _ => first
      | .ok report =>
          (mergeEach m patch first.original payloads first.minted).following report first.sent

/-- The merge of a slice runs its one directive. -/
theorem merge_chain {payload leaf : Json} {key : String} {path : List String}
    (h : Leads m.options payload (key :: path) leaf) (patch original : Node) (minted : Nat) :
    m.merge patch original (Payload.chain leaf (key :: path)) minted =
      .ofResult original (m.runDirective [] patch original
        (Directive.ofValue m.options (key :: path) leaf) (Session.start minted)) := by
  rw [Payload.chain, merge_object, applyMembers, Directive.ofMembers_chain h, runDirectives]
  exact congrArg (Outcome.ofResult original) (congrFun (bind_pure (m := Run) _) _)

/-- The directives of a payload, run from the start, end as the merges of the slices that
have them do. What the object was before matters only to a merge that fails. -/
private theorem endsLike_mergeEach (hstateless : m.validator.Stateless) (patch : Node)
    (type : TypeName) (payload : Json) (slices : List (List String × Json))
    (hslices : ∀ t ∈ slices, t.1 ≠ [] ∧ Leads m.options payload t.1 t.2)
    (initial fields : Fields) (minted : Nat) :
    (Outcome.ofResult ⟨type, initial⟩ (m.runDirectives [] patch type
        (slices.map fun t => Directive.ofValue m.options t.1 t.2) fields
        (Session.start minted))).EndsLike
      (m.mergeEach patch ⟨type, fields⟩ (slices.map fun t => Payload.chain t.2 t.1) minted) := by
  induction slices generalizing initial fields minted with
  | nil => exact ⟨rfl, rfl, rfl, fun _ _ => rfl⟩
  | cons t slices ih =>
    obtain ⟨⟨hpath, hleads⟩, hlater⟩ := List.forall_mem_cons.1 hslices
    obtain ⟨path, leaf⟩ := t
    obtain ⟨key, path, rfl⟩ := List.exists_cons_of_ne_nil hpath
    have hbind {α β : Type} (x : Run α) (f : α → Run β) (s : Session) :
        (x >>= f) s = EStateM.bind x f s := rfl
    rw [List.map_cons, List.map_cons, runDirectives, mergeEach, merge_chain hleads, hbind,
      EStateM.bind]
    cases hrun : m.runDirective [] patch ⟨type, fields⟩
        (Directive.ofValue m.options (key :: path) leaf) (Session.start minted) with
    | error e s => exact ⟨rfl, rfl, rfl, by rintro _ ⟨⟩⟩
    | ok mid s =>
      have hpopulating : s.populating = 0 := by
        have hdirectives : ∀ e ∈ (Directive.ofValue m.options (key :: path) leaf).arrayElements,
            m.RunsExtend e.directives := fun e _ => m.runsExtend e.directives
        exact ((DirectiveStep.of_runDirective hrun).extends hdirectives).counters.1
      -- what is left is run after the record of the first slice, or from a new start
      have hrest := ih hlater initial mid s.minted
      have hagree := (inStep_runDirectives (Session.lawful_afterwards hstateless s) [] patch type
        (slices.map fun t => Directive.ofValue m.options t.1 t.2) mid).agree
        (s := s) (t := Session.start s.minted) (Session.eq_after_start hpopulating)
      show (Outcome.ofResult _ (m.runDirectives [] patch type _ mid s)).EndsLike _
      rw [Outcome.ofResult_of_agree hagree]
      exact hrest.following s.report s.sent

/-- A merge is the sequence of the merges of its slices. -/
theorem merge_endsLike_mergeEach (hstateless : m.validator.Stateless) (patch original : Node)
    (payload : Json) (minted : Nat) :
    (m.merge patch original payload minted).EndsLike
      (m.mergeEach patch original (Payload.slices m.options payload) minted) := by
  cases hobject : payload.isObject with
  | true =>
    obtain ⟨members, rfl⟩ := Json.exists_of_isObject hobject
    rw [merge_object, Payload.slices, applyMembers, Directive.ofMembers_eq_map_levelOrder]
    refine endsLike_mergeEach hstateless patch original.type (.object members) _
      (fun t ht => ?_) original.fields original.fields minted
    have hleads := Payload.mem_levelOrder_iff.1 ht
    refine ⟨fun hpath => ?_, hleads⟩
    rw [hpath] at hleads
    cases (leads_nil_iff.1 hleads).1
  | false =>
    -- a payload that is no object is its only slice
    have hslices : Payload.slices m.options payload = [payload] := by
      rw [Payload.slices, Payload.levelOrder, Payload.terminals_of_not_isObject hobject]
      rfl
    have hfails : ∃ e, m.merge patch original payload minted = ⟨.error e, original, [], minted⟩ := by
      cases payload with
      | object members => cases hobject
      | _ => exact ⟨_, rfl⟩
    obtain ⟨e, hfails⟩ := hfails
    rw [hslices, mergeEach, hfails]
    exact ⟨rfl, rfl, rfl, fun _ _ => rfl⟩

end Merger

/-! ## A tree and its branch -/

namespace Sample

/-- A tree with a name, and with a branch to the north that has one. -/
def treeAndBranch (name branch : String) : Node :=
  ⟨"Tree", [.leaf .uuid (.uuid Uuid.nil), .leaf .text (.text name), .collection "Tree" [],
    .dictionary "Tree" [("north", sapling 10 branch [])]]⟩

/-- A payload that mentions the name of the branch, and after it the name of the tree. -/
def branchThenTree : Json :=
  .object [("Branches", .object [("north", .object [("Name", .null), ("remove", .bool true)])]),
    ("Name", .null)]

end Sample

example : Payload.slices Sample.grove.options Sample.branchThenTree =
    [.object [("Name", .null)],
      .object [("Branches", .object [("north", .object [("Name", .null)])])]] := by
  decide +kernel

/-- The tree is renamed first, then its branch, as if by two merges. -/
theorem merge_endsLike_mergeEach_grove :
    Sample.grove.validator.Stateless ∧
      (Sample.grove.merge (Sample.treeAndBranch "Oak" "Bough") (Sample.treeAndBranch "oak" "bough")
        Sample.branchThenTree 0).result =
          .ok ⟨[⟨⟨["Name"]⟩, .updated, none⟩, ⟨⟨["Branches", "north", "Name"]⟩, .updated, none⟩]⟩ ∧
      (Sample.grove.merge (Sample.treeAndBranch "Oak" "Bough") (Sample.treeAndBranch "oak" "bough")
        Sample.branchThenTree 0).EndsLike
          (Sample.grove.mergeEach (Sample.treeAndBranch "Oak" "Bough")
            (Sample.treeAndBranch "oak" "bough")
            (Payload.slices Sample.grove.options Sample.branchThenTree) 0) :=
  ⟨Validator.stateless_approveAll, by decide +kernel,
    Merger.merge_endsLike_mergeEach Validator.stateless_approveAll ..⟩

end SelectiveMerge
