import SelectiveMerge.Proofs.Frame
import SelectiveMerge.Proofs.Reach
import SelectiveMerge.Proofs.Requests

/-!
# Merges that report nothing

A merge that succeeds with an empty report has assigned, cleared, added and removed
nothing. It may have changed its original all the same: an array is followed to its
member, and the objects that are missing on the way are made, before it turns out that
there is nothing to be done there. `Builds` says of a directive that it makes such an
object; `silent_merge` says that a silent merge leaves its original as it was just when
no directive of its payload does.

A silent step either changes nothing or makes what it works on larger (`Grows`), so what
was made is not undone by a later step.

* `Builds` — the directive makes an object that the original lacks
* `runsGrow` — a list of directives that reports nothing
* `silent_merge` — a whole merge, also with a validator that refuses everything
* `original_changes_silently` — a merge that changes its original without a report
-/

namespace SelectiveMerge

/-- What was `old` stays as it is, or becomes larger if it is built upon. -/
def Grows {α : Type} [SizeOf α] (builds : Prop) (old new : α) : Prop :=
  (¬ builds ∧ new = old) ∨ (builds ∧ sizeOf old < sizeOf new)

namespace Grows

variable {α : Type} [SizeOf α] {p q : Prop} {a b c : α}

theorem same (hp : ¬ p) : Grows p a a := .inl ⟨hp, rfl⟩

theorem le_sizeOf (h : Grows p a b) : sizeOf a ≤ sizeOf b := by
  rcases h with ⟨-, rfl⟩ | ⟨-, hlt⟩
  · exact le_rfl
  · exact hlt.le

theorem congr (h : Grows p a b) (hiff : p ↔ q) : Grows q a b := by
  rcases h with ⟨hp, heq⟩ | ⟨hp, hlt⟩
  · exact .inl ⟨fun hq => hp (hiff.2 hq), heq⟩
  · exact .inr ⟨hiff.1 hp, hlt⟩

/-- Two steps, of which the second builds on what the first one left. -/
theorem trans {q : α → Prop} (h : Grows p a b) (h' : Grows (q b) b c) : Grows (p ∨ q a) a c := by
  rcases h with ⟨hp, rfl⟩ | ⟨hp, hlt⟩
  · exact h'.congr ⟨.inr, fun h => h.resolve_left hp⟩
  · exact .inr ⟨.inl hp, hlt.trans_le h'.le_sizeOf⟩

/-- What has grown was built upon. -/
theorem eq_iff_not (h : Grows p a b) : b = a ↔ ¬ p := by
  rcases h with ⟨hp, rfl⟩ | ⟨hp, hlt⟩
  · exact ⟨fun _ => hp, fun _ => rfl⟩
  · constructor
    · rintro rfl
      exact absurd hlt (lt_irrefl _)
    · exact fun hnot => absurd hp hnot

end Grows

namespace Merger

open Run (Succeeds)

/-- The directive is an array, and on its way to a member, or to a member of an item that
one of its elements updates, an object is missing. -/
inductive Builds (m : Merger) : Node → Directive → Prop where
  | lacks {n : Node} {path : List String} {elements : List Element}
      (hlacks : m.Lacks n path) : Builds m n (.array path elements)
  | element {n item : Node} {path : List String} {elements : List Element} {type : TypeName}
      {items : List Fields} {full : Path} {members : List (String × Json)}
      {directives : List Directive} {d : Directive} {id : Uuid}
      (hid : (path.getLast?).any isIdentityKey = false)
      (hheld : m.held? (.object n.type n.fields) path = some (.slot (.collection type items)))
      (helement : .mk (.object members) directives ∈ elements)
      (hasks : Intent.ofMembers m.options full members = .ok (.update id))
      (hitem : m.catalogue.itemWithId? type items id = some item) (hd : d ∈ directives)
      (hbuilds : Builds m item d) : Builds m n (.array path elements)

/-- An element of an array updates an item that one of its directives builds upon. -/
def ElementBuilds (m : Merger) (type : TypeName) (items : List Fields) (e : Element) : Prop :=
  ∃ members full id item, e.value = .object members ∧
    Intent.ofMembers m.options full members = .ok (.update id) ∧
    m.catalogue.itemWithId? type items id = some item ∧ ∃ d ∈ e.directives, m.Builds item d

/-- An array at the end of some keys builds: on the way, or where it leads to. -/
def Opens (m : Merger) (elements : List Element) (n : Node) (path : List String) : Prop :=
  m.Lacks n path ∨ (path.getLast?).any isIdentityKey = false ∧ ∃ type items,
    m.held? (.object n.type n.fields) path = some (.slot (.collection type items)) ∧
      ∃ e ∈ elements, m.ElementBuilds type items e

variable {m : Merger} {s s' : Session} {elements : List Element}

theorem builds_array_iff {n : Node} {path : List String} :
    m.Builds n (.array path elements) ↔ m.Opens elements n path := by
  constructor
  · rintro (hlacks | ⟨hid, hheld, helement, hasks, hitem, hd, hbuilds⟩)
    · exact .inl hlacks
    · exact .inr ⟨hid, _, _, hheld, _, helement, _, _, _, _, rfl, hasks, hitem, _, hd, hbuilds⟩
  · rintro (hlacks | ⟨hid, type, items, hheld, ⟨value, directives⟩, helement, members, full, id,
      item, hvalue, hasks, hitem, d, hd, hbuilds⟩)
    · exact .lacks hlacks
    · obtain rfl : value = .object members := hvalue
      exact .element hid hheld helement hasks hitem hd hbuilds

/-- Behind an object that is there, an array builds what it builds from there. -/
theorem opens_next_iff {n inner : Node} {keys rest : List String} (hrest : rest ≠ [])
    (hnext : m.next? n (keys ++ rest) = some (some inner, rest)) :
    m.Opens elements n (keys ++ rest) ↔ m.Opens elements inner rest := by
  have hlast : (keys ++ rest).getLast? = rest.getLast? := List.getLast?_append_of_ne_nil keys hrest
  unfold Opens
  rw [hlast, held?_of_next? hrest hnext]
  refine or_congr_left ?_
  constructor
  · rintro (⟨hnone, -⟩ | ⟨hsome, hlacks⟩)
    · rw [hnext] at hnone
      cases hnone
    · rw [hnext] at hsome
      obtain ⟨⟩ := hsome
      exact hlacks
  · exact .next hnext

/-! ## Steps that report something -/

theorem Extends.report_length_le {base : List String} (h : Extends m base s s') :
    s.report.length ≤ s'.report.length := by
  obtain ⟨-, changes, sent, hchanges, -⟩ := h
  unfold Report.length
  rw [hchanges, List.length_append]
  omega

/-- An assignment is reported, save that of an identity. -/
theorem Assigns.report_length_lt {full : Path} {patch original : Node} {name : String}
    {fields : Fields} (hid : isIdentityKey name = false)
    (h : m.Assigns full patch original name s fields s') :
    s.report.length < s'.report.length := by
  cases h with
  | identity htrue =>
    rw [hid] at htrue
    cases htrue
  | custom | leaf | unset => simp

theorem AssignsEntry.report_length_lt {full : Path} {patchEntries entries made : List (String × Cell)}
    {type : LeafType} {key : String}
    (h : m.AssignsEntry full patchEntries type entries key s made s') :
    s.report.length < s'.report.length := by
  cases h with
  | intro => simp

/-- A navigation whose last step is reported is reported. -/
theorem Visits.report_length_lt {full : Path}
    {act : Node → Node → String → Session → Fields → Session → Prop} {rest : List String}
    {patch original : Node} {fields : Fields}
    (hact : ∀ {p o name s f s'}, isIdentityKey name = false → act p o name s f s' →
      s.report.length < s'.report.length)
    (hid : (rest.getLast?).any isIdentityKey = false)
    (h : m.Visits full act rest patch original s fields s') :
    s.report.length < s'.report.length := by
  induction h with
  | member h => exact hact (by simpa using hid) h
  | entry _ _ _ _ hassign => exact hassign.report_length_lt
  | hop hhop hrest _ ih =>
    rw [List.getLast?_append_of_ne_nil _ hrest] at hid
    have hlater := ih hid
    have hearlier := Extends.report_length_le (hhop.extends [])
    omega

/-! ## Collections -/

/-- A list of directives that reports nothing changes an object just when one of them
builds, and then makes it larger. -/
def RunsGrow (m : Merger) (directives : List Directive) : Prop :=
  ∀ {base : List String} {patch : Node} {type : TypeName} {fields made : Fields}
    {s s' : Session}, Succeeds (runDirectives m base patch type directives fields) s made s' →
    s'.report.length ≤ s.report.length →
    Grows (∃ d ∈ directives, m.Builds ⟨type, fields⟩ d) fields made

theorem itemWithId?_of_position? {type : TypeName} {items : List Fields} {id : Uuid} {j : Nat}
    {item : Fields} (hj : m.catalogue.position? type items id = some j)
    (hitem : items[j]? = some item) :
    m.catalogue.itemWithId? type items id = some ⟨type, item⟩ := by
  simp [Catalogue.itemWithId?, hj, hitem]

theorem ElementStep.grows {r : Reconciliation} {position : Nat} {members : List (String × Json)}
    {directives : List Directive} {state state' : Reconciled} (hgrow : m.RunsGrow directives)
    (h : m.ElementStep r position members directives state s state' s')
    (hsilent : s'.report.length ≤ s.report.length) :
    Grows (m.ElementBuilds r.type state.items (.mk (.object members) directives)) state.items
      state'.items := by
  cases h with
  | add _ _ hfresh =>
    have hearlier := Extends.report_length_le (hfresh.extends [])
    simp at hsilent
    omega
  | remove =>
    rw [Session.report_noting, Report.length_push, Session.report_asking] at hsilent
    omega
  | @update id index item fields _ _ hintent hindex hitem _ hrun =>
    have hfound := itemWithId?_of_position? hindex hitem
    have hbuilds : m.ElementBuilds r.type state.items (.mk (.object members) directives) ↔
        ∃ d ∈ directives, m.Builds ⟨r.type, item⟩ d := by
      constructor
      · rintro ⟨members', full, id', item', hvalue, hasks, hitem', d, hd, hbuilds⟩
        obtain rfl : members = members' := Json.object.inj hvalue
        rw [Intent.ofMembers_eq_ok hintent] at hasks
        obtain ⟨⟩ := hasks
        rw [hfound] at hitem'
        obtain ⟨⟩ := hitem'
        exact ⟨d, hd, hbuilds⟩
      · rintro ⟨d, hd, hbuilds⟩
        exact ⟨members, r.full, id, _, rfl, hintent, hfound, d, hd, hbuilds⟩
    rcases hgrow hrun hsilent with ⟨hnot, rfl⟩ | ⟨hbuilt, hlt⟩
    · exact .inl ⟨fun h => hnot (hbuilds.1 h), set_eq_self hitem⟩
    · refine .inr ⟨hbuilds.2 hbuilt, ?_⟩
      have hset := sizeOf_set fields hitem
      show sizeOf state.items < sizeOf (state.items.set index fields)
      omega

theorem ElementsRun.grows {r : Reconciliation} {position : Nat} {state state' : Reconciled}
    (hgrow : ∀ e ∈ elements, m.RunsGrow e.directives)
    (h : m.ElementsRun r position elements state s state' s')
    (hsilent : s'.report.length ≤ s.report.length) :
    Grows (∃ e ∈ elements, m.ElementBuilds r.type state.items e) state.items state'.items := by
  induction h with
  | nil => exact .same (by simp)
  | @cons position members directives elements state mid state' s t s' hstep hrest ih =>
    have hhead : m.RunsGrow directives :=
      hgrow (.mk (.object members) directives) (List.mem_cons_self ..)
    have htail : ∀ e ∈ elements, m.RunsGrow e.directives :=
      fun e he => hgrow e (List.mem_cons_of_mem _ he)
    have hfirst := Extends.report_length_le (hstep.extends (m.runsExtend _))
    have hlater := Extends.report_length_le (hrest.extends fun e _ => m.runsExtend _)
    have hboth := (hstep.grows hhead (by omega)).trans
      (q := fun items => ∃ e ∈ elements, m.ElementBuilds r.type items e) (ih htail (by omega))
    exact hboth.congr (by simp)

theorem DropsUnmentioned.eq_of_silent {r : Reconciliation} {mentioned : List Uuid}
    {items left : List Fields} (h : m.DropsUnmentioned r mentioned items s left s')
    (hsilent : s'.report.length ≤ s.report.length) : left = items := by
  induction h with
  | nil => rfl
  | kept _ _ ih => rw [ih hsilent]
  | removed _ _ _ hrest _ =>
    have hlater := Extends.report_length_le hrest.extends
    simp at hlater
    omega

/-- A reconciliation that reports nothing changes a collection just when one of its
elements builds. -/
theorem Reconciles.grows {full : Path} {node : Json} {patch original : Node} {pm om : Member}
    {name : String} {fields : Fields} (hgrow : ∀ e ∈ elements, m.RunsGrow e.directives)
    (hom : m.member? original name = some om)
    (h : m.Reconciles full node elements patch original pm om s fields s')
    (hsilent : s'.report.length ≤ s.report.length) :
    Grows (∃ type items, m.held? (.object original.type original.fields) [name] =
        some (.slot (.collection type items)) ∧ ∃ e ∈ elements, m.ElementBuilds type items e)
      original.fields fields := by
  cases h with
  | ignored _ _ _ _ _ helements =>
    refine .same ?_
    rintro ⟨_, _, _, e, he, _⟩
    rw [helements] at he
    cases he
  | @run _ type _ _ items _ found left i t u _ state _ _ htarget hclears hrun hdrops =>
    have hslot := (Node.target?_eq_some.1 htarget).2
    have hfirst := Extends.report_length_le hclears.extends
    have hmid := Extends.report_length_le (hrun.extends fun e _ => m.runsExtend _)
    have hlater := Extends.report_length_le hdrops.extends
    obtain rfl : found = items := by
      cases hclears with
      | kept => rfl
      | cleared =>
        simp at hfirst hmid hlater hsilent
        omega
      | empty _ hitems => exact hitems.symm
    obtain rfl : left = state.items := by
      cases hdrops with
      | kept => rfl
      | dropped _ hdropped => exact hdropped.eq_of_silent (by omega)
    have hbuilds : (∃ type items, m.held? (.object original.type original.fields) [name] =
        some (.slot (.collection type items)) ∧ ∃ e ∈ elements, m.ElementBuilds type items e) ↔
        ∃ e ∈ elements, m.ElementBuilds type found e := by
      rw [held?_of_target? hom htarget]
      constructor
      · rintro ⟨_, _, ⟨⟩, h⟩
        exact h
      · exact fun h => ⟨type, found, rfl, h⟩
    have hitems := hrun.grows hgrow (by omega)
    rcases hitems with ⟨hnot, heq⟩ | ⟨hbuilt, hlt⟩
    · have heq : state.items = found := heq
      rw [heq]
      exact .inl ⟨fun h => hnot (hbuilds.1 h), set_eq_self hslot⟩
    · refine .inr ⟨hbuilds.2 hbuilt, ?_⟩
      have hset := sizeOf_set (.collection type state.items) hslot
      have hlt : sizeOf found < sizeOf state.items := hlt
      simp only [Slot.collection.sizeOf_spec] at hset
      omega

/-- An array at a member that reports nothing. -/
theorem ArrayAssigns.grows {full : Path} {node : Json} {patch original : Node} {name : String}
    {fields : Fields} (hgrow : ∀ e ∈ elements, m.RunsGrow e.directives)
    (h : m.ArrayAssigns full node elements patch original name s fields s')
    (hsilent : s'.report.length ≤ s.report.length) :
    Grows (m.Opens elements original [name]) original.fields fields := by
  cases h with
  | identity hid =>
    refine .same ?_
    rintro (hlacks | ⟨hnot, -⟩)
    · exact not_lacks_singleton hlacks
    · simp [hid] at hnot
  | emptied =>
    rw [Session.report_noting, Report.length_push, Session.report_asking] at hsilent
    omega
  | assigned hid _ _ _ _ hassign =>
    have hlt := hassign.report_length_lt hid
    omega
  | reconciled hid _ hom _ hreconcile =>
    refine (hreconcile.grows hgrow hom hsilent).congr ?_
    constructor
    · exact fun h => .inr ⟨by simpa using hid, h⟩
    · rintro (hlacks | ⟨-, h⟩)
      · exact (not_lacks_singleton hlacks).elim
      · exact h

/-! ## Directives -/

/-- A navigation to an array that reports nothing makes the objects that are missing on
its way. -/
theorem Visits.grows {full : Path} {node : Json} {rest : List String} {patch original : Node}
    {fields : Fields} (hgrow : ∀ e ∈ elements, m.RunsGrow e.directives)
    (h : m.Visits full (m.ArrayAssigns full node elements) rest patch original s fields s')
    (hsilent : s'.report.length ≤ s.report.length) :
    Grows (m.Opens elements original rest) original.fields fields := by
  induction h with
  | member h => exact h.grows hgrow hsilent
  | entry _ _ _ _ hassign =>
    have hlt := hassign.report_length_lt
    omega
  | @hop keys rest patch original innerPatch inner s t s' put made hhop hrest hvisit ih =>
    have hearlier := Extends.report_length_le (hhop.extends [])
    have hlater := Extends.report_length_le
      (hvisit.extends (ArrayAssigns.extends fun e _ => m.runsExtend _))
    obtain ⟨present, hensure, hnext, hput, hsize, hmade⟩ := hhop.exists_hopsTo
    cases hensure with
    | found =>
      have hiff : m.Opens elements original (keys ++ rest) ↔ m.Opens elements inner rest :=
        opens_next_iff hrest (hnext rest)
      have hput := hput inner.fields rfl
      have hsize := hsize inner.fields made rfl
      rcases ih (by omega) with ⟨hnot, rfl⟩ | ⟨hopens, hlt⟩
      · exact .inl ⟨fun h => hnot (hiff.1 h), hput⟩
      · exact .inr ⟨hiff.2 hopens, by omega⟩
    | made => exact .inr ⟨.inl (.here (hnext rest) hrest), hmade rfl made⟩

theorem DirectiveStep.grows {base : List String} {patch original : Node} {directive : Directive}
    {fields : Fields} (hgrow : ∀ e ∈ directive.arrayElements, m.RunsGrow e.directives)
    (h : m.DirectiveStep base patch original directive s fields s')
    (hsilent : s'.report.length ≤ s.report.length) :
    Grows (m.Builds original directive) original.fields fields := by
  cases h with
  | identity =>
    refine .same ?_
    rintro ⟨⟩
  | scalar hid hvisit =>
    have hlt := hvisit.report_length_lt Assigns.report_length_lt hid
    omega
  | array hvisit => exact (hvisit.grows hgrow hsilent).congr builds_array_iff.symm

theorem runsGrow (directives : List Directive) : m.RunsGrow directives := by
  induction directives using Directive.forall_of_elements with
  | nil =>
    intro base patch type fields made s s' h hsilent
    obtain ⟨rfl, -⟩ := succeeds_runDirectives_nil.1 h
    exact .same (by simp)
  | cons directive directives hdirective ih =>
    intro base patch type fields made s s' h hsilent
    obtain ⟨mid, t, hhead, htail⟩ := succeeds_runDirectives_cons.1 h
    have hstep := DirectiveStep.of_runDirective hhead
    have hearlier := Extends.report_length_le (hstep.extends fun e _ => m.runsExtend _)
    have hlater := Extends.report_length_le (m.runsExtend _ htail)
    have hboth := (hstep.grows hdirective (by omega)).trans
      (q := fun fields => ∃ d ∈ directives, m.Builds ⟨type, fields⟩ d) (ih htail (by omega))
    exact hboth.congr (by simp)

/-! ## A whole merge -/

/-- The payload has a directive that makes an object which the original lacks. -/
def PayloadBuilds (m : Merger) (original : Node) (payload : Json) : Prop :=
  ∃ members, payload = .object members ∧
    ∃ d ∈ Directive.ofMembers m.options members, m.Builds original d

/-- A merge that reports nothing, or whose validator refuses everything, leaves its original
as it was, save when it succeeds on a payload that makes an object which is missing. -/
theorem silent_merge {patch original : Node} {payload : Json} {minted : Nat}
    (hactions : m.configuration.NoActions)
    (hsilent : (m.merge patch original payload minted).result = .ok Report.empty ∨
      ∀ earlier r, m.validator.approves earlier r = false) :
    (m.merge patch original payload minted).original = original ↔
      ¬ ((∃ report, (m.merge patch original payload minted).result = .ok report) ∧
        m.PayloadBuilds original payload) := by
  rcases m.merge_cases patch original payload minted with
    ⟨e, heq⟩ | ⟨members, e, s, -, -, heq⟩ | ⟨members, fields, s, rfl, hrun, heq⟩
  · rw [heq]
    simp
  · rw [heq]
    simp
  · have hgranted := (m.hookDiscipline_merge patch original (.object members) minted).granted
    rw [heq] at hsilent hgranted ⊢
    obtain ⟨-, changes, sent, hchanges, hsent, hstretch⟩ := m.runsExtend _ hrun
    obtain rfl : s.report.changes = changes := hchanges
    obtain rfl : s.sent = sent := hsent
    have hreport : s.report.length ≤ (Session.start minted).report.length := by
      rcases hsilent with hempty | hrefuses
      · have hempty : s.report = Report.empty := by simpa using hempty
        rw [hempty]
        exact le_rfl
      · have hnone : s.sent = [] := by
          cases hs : s.sent with
          | nil => rfl
          | cons x later =>
            have hfirst := hgranted s.report rfl [] x.request (later.map (·.request))
              (by simp [Outcome.requests, hs])
            rw [hrefuses] at hfirst
            cases hfirst
        rw [hnone] at hstretch
        rw [Report.length, hstretch.changes_eq_nil hactions]
        exact Nat.zero_le _
    have hgrows := m.runsGrow _ hrun hreport
    have horiginal : (⟨original.type, fields⟩ : Node) = original ↔ fields = original.fields := by
      constructor
      · exact fun h => congrArg Node.fields h
      · rintro rfl
        rfl
    have hpayload : m.PayloadBuilds original (.object members) ↔
        ∃ d ∈ Directive.ofMembers m.options members, m.Builds original d := by
      constructor
      · rintro ⟨members', hmembers, h⟩
        obtain rfl := Json.object.inj hmembers
        exact h
      · exact fun h => ⟨members, rfl, h⟩
    rw [horiginal, hpayload, hgrows.eq_iff_not]
    simp

end Merger

/-! ## A silent change -/

namespace Sample

/-- A merger of trees whose validator refuses everything. -/
def closedGrove : Merger := { grove with validator := .stateless fun _ => false }

/-- A tree with branches. -/
def branching (branches : List (String × Fields)) : Node :=
  ⟨"Tree", [.leaf .uuid (.uuid Uuid.nil), .leaf .text (.text ""), .collection "Tree" [],
    .dictionary "Tree" branches]⟩

/-- A tree with a branch to the north. -/
def northern : Node := branching [("north", (branching []).fields)]

/-- The names of the branches of a tree. -/
def branchNames (n : Node) : List String :=
  match n.fields.drop 3 with
  | .dictionary _ branches :: _ => branches.map (·.1)
  | _ => []

/-- A payload that names the children of that branch, of which there are none. -/
def childrenOfNorth : Json :=
  .object [("Branches", .object [("north", .object [("Children", .array [])])])]

end Sample

/-- The branch is made on the way to its children, where there is nothing to be done: no
request is sent, and nothing is reported. -/
theorem original_changes_silently :
    (Sample.closedGrove.merge Sample.northern (Sample.branching []) Sample.childrenOfNorth
        0).result = .ok Report.empty ∧
      (∀ earlier r, Sample.closedGrove.validator.approves earlier r = false) ∧
      (Sample.closedGrove.merge Sample.northern (Sample.branching []) Sample.childrenOfNorth
        0).original ≠ Sample.branching [] := by
  refine ⟨by decide +kernel, fun _ _ => rfl, fun h => ?_⟩
  have hnorth : Sample.branchNames (Sample.closedGrove.merge Sample.northern
      (Sample.branching []) Sample.childrenOfNorth 0).original = ["north"] := by
    decide +kernel
  rw [h] at hnorth
  cases hnorth

/-- A tree that has the branch is left alone by the same payload. -/
theorem silent_merge_northern :
    Sample.closedGrove.configuration.NoActions ∧
      (Sample.closedGrove.merge Sample.northern Sample.northern Sample.childrenOfNorth 0).result =
        .ok Report.empty ∧
      ((Sample.closedGrove.merge Sample.northern Sample.northern Sample.childrenOfNorth
            0).original = Sample.northern ↔
        ¬ ((∃ report, (Sample.closedGrove.merge Sample.northern Sample.northern
              Sample.childrenOfNorth 0).result = .ok report) ∧
          Sample.closedGrove.PayloadBuilds Sample.northern Sample.childrenOfNorth)) :=
  ⟨Sample.grove_noActions, by decide +kernel,
    Merger.silent_merge Sample.grove_noActions (.inl (by decide +kernel))⟩

end SelectiveMerge
