import SelectiveMerge.Proofs.Causes

/-!
# Where changes and errors are located

The changes that a merge reports, and the errors that it fails with, carry the paths of
terminals of its payload. A change carries the full path of the terminal whose turn recorded
it. An error carries the full path of the terminal at whose turn it arose; only where a
navigation cannot go on does it carry a shorter path, which ends with what the navigation
could not go through.

* `Adds` — a part of a merge that records changes at one path only
* `Turn.Records` — a turn records a change of the report
* `Turn.Records.path_eq` — the change has the path of the turn
* `Merger.exists_records` — every change is recorded by a turn
* `Turn.Locates`, `Turn.Fails.locates` — where an error points
* `located_merge` — the paths of a whole merge
-/

namespace SelectiveMerge

open Run (Succeeds)

/-! ## Changes at one path -/

/-- The changes from one record to another one are all at one path. -/
def Adds (full : Path) (s s' : Session) : Prop :=
  ∃ changes, s'.report.changes = s.report.changes ++ changes ∧ ∀ c ∈ changes, c.path = full

namespace Adds

variable {full : Path} {s t u : Session}

theorem of_report_eq (h : t.report = s.report) : Adds full s t :=
  ⟨[], by rw [h, List.append_nil], by simp⟩

theorem refl (full : Path) (s : Session) : Adds full s s := of_report_eq rfl

theorem one {c : Change} (hreport : t.report = s.report.push c) (hpath : c.path = full) :
    Adds full s t := by
  refine ⟨[c], by rw [hreport, Report.changes_push], fun c' hc' => ?_⟩
  rw [List.mem_singleton.1 hc', hpath]

theorem trans (h : Adds full s t) (h' : Adds full t u) : Adds full s u := by
  obtain ⟨changes, hchanges, hpath⟩ := h
  obtain ⟨changes', hchanges', hpath'⟩ := h'
  refine ⟨changes ++ changes', by rw [hchanges', hchanges, List.append_assoc], fun c hc => ?_⟩
  rcases List.mem_append.1 hc with hc | hc
  · exact hpath c hc
  · exact hpath' c hc

/-- A change that is new in the second record is at the path. -/
theorem path_eq (h : Adds full s t) {k : Nat} {c : Change} (hk : s.report.length ≤ k)
    (hc : t.report.changes[k]? = some c) : c.path = full := by
  obtain ⟨changes, hchanges, hpath⟩ := h
  rw [hchanges, List.getElem?_append_right hk] at hc
  exact hpath c (List.mem_of_getElem? hc)

end Adds

/-- A change is either on record before a part of a merge, or new after it. -/
theorem Extends.change_cases {m : Merger} {base : List String} {s s' : Session}
    (h : Extends m base s s') {k : Nat} {c : Change} (hc : s'.report.changes[k]? = some c) :
    s.report.changes[k]? = some c ∨ s.report.length ≤ k := by
  obtain ⟨-, changes, -, hchanges, -, -⟩ := h
  by_cases hk : k < s.report.changes.length
  · rw [hchanges, List.getElem?_append_left hk] at hc
    exact .inl hc
  · exact .inr (Nat.not_lt.1 hk)

namespace Merger

variable {m : Merger} {s s' : Session} {patch original : Node} {full : Path} {name : String}
  {fields : Fields}

theorem Assigns.adds (h : m.Assigns full patch original name s fields s') : Adds full s s' := by
  cases h with
  | identity => exact .refl full s
  | custom => exact .one (c := ⟨full, .custom, none⟩) rfl rfl
  | leaf => exact .one (c := ⟨full, .updated, none⟩) rfl rfl
  | unset => exact .one (c := ⟨full, .updated, none⟩) rfl rfl

theorem EntryAssigns.adds {key : String}
    (h : m.EntryAssigns full patch original name key s fields s') : Adds full s s' := by
  cases h with
  | intro _ _ _ _ hassign =>
    cases hassign with
    | intro => exact .one (c := ⟨full, .updated, none⟩) rfl rfl

theorem Clears.adds {node : Json} {om : Member} {clears : Bool} {items found : List Fields}
    (h : m.Clears full node patch original om clears items s found s') : Adds full s s' := by
  cases h with
  | kept => exact .refl full s
  | cleared => exact .one (c := ⟨full, .cleared, none⟩) rfl rfl
  | empty => exact .of_report_eq rfl

theorem DropsUnmentioned.adds {r : Reconciliation} {mentioned : List Uuid}
    {items left : List Fields} (h : m.DropsUnmentioned r mentioned items s left s') :
    Adds r.full s s' := by
  induction h with
  | nil => exact .refl _ _
  | kept _ _ ih => exact ih
  | @removed _ _ _ _ _ id _ _ _ _ ih =>
    exact (Adds.one (c := ⟨r.full, .removed, some id⟩) rfl rfl).trans ih

theorem Drops.adds {r : Reconciliation} {drops : Bool} {state : Reconciled} {left : List Fields}
    (h : m.Drops r drops state s left s') : Adds r.full s s' := by
  cases h with
  | kept => exact .refl _ _
  | dropped _ hrun => exact hrun.adds

/-! ## Changes of elements -/

/-- A change that is new after a list of elements is new after one of them. -/
theorem ElementsRun.exists_recording_step {r : Reconciliation} {position : Nat}
    {elements : List Element} {state state' : Reconciled}
    (h : m.ElementsRun r position elements state s state' s') {k : Nat} {c : Change}
    (hk : s.report.length ≤ k) (hc : s'.report.changes[k]? = some c) :
    ∃ i members directives before after t u,
      m.ElementsRun r position (elements.take i) state s before t ∧
      elements[i]? = some (.mk (.object members) directives) ∧
      m.ElementStep r (position + i) members directives before t after u ∧
      t.report.length ≤ k ∧ u.report.changes[k]? = some c := by
  induction h with
  | nil =>
    rw [List.getElem?_eq_none hk] at hc
    cases hc
  | cons hstep hrest ih =>
    have hextends := hrest.extends fun e _ => m.runsExtend e.directives
    rcases hextends.change_cases hc with hearlier | hlater
    · exact ⟨0, _, _, _, _, _, _, .nil, rfl, hstep, hk, hearlier⟩
    · obtain ⟨i, members, directives, before, after, t, u, hrun, helement, hturn, hlt, hchange⟩ :=
        ih hlater hc
      refine ⟨i + 1, members, directives, before, after, t, u, ?_, by simpa using helement, ?_, hlt,
        hchange⟩
      · rw [List.take_succ_cons]
        exact .cons hstep hrun
      · rwa [Nat.add_right_comm, Nat.add_assoc] at hturn

theorem MakesItem.report_eq {r : Reconciliation} {patchItem fresh : Node}
    (h : m.MakesItem r patchItem s fresh s') : s'.report = s.report := by
  cases h with
  | factory => rfl
  | construct _ hmade =>
    obtain ⟨minted, rfl⟩ := hmade.eq_minted
    rfl

/-- An element that adds or removes an item records one change, at the path of its collection. -/
theorem ElementStep.adds {r : Reconciliation} {position : Nat} {members : List (String × Json)}
    {directives : List Directive} {state state' : Reconciled}
    (h : m.ElementStep r position members directives state s state' s') :
    Adds r.full s s' ∨ ∃ id index item made patchItem,
      Intent.ofMembers m.options r.full members = .ok (.update id) ∧
      m.catalogue.position? r.type state.items id = some index ∧
      state.items[index]? = some item ∧
      m.catalogue.itemWithId? r.patchType r.patchItems id = some patchItem ∧
      Succeeds (m.runDirectives r.full.segments patchItem r.type directives item) s made s' := by
  cases h with
  | @add _ _ fields _ _ _ _ hfresh =>
    refine .inl (.one (c := ⟨r.full, .added, (m.catalogue r.type).identity? fields⟩) ?_ rfl)
    rw [Session.report_noting, Session.report_asking, hfresh.report_eq]
  | @remove id => exact .inl (.one (c := ⟨r.full, .removed, some id⟩) rfl rfl)
  | update hintent hindex hitem hpatch hrun =>
    exact .inr ⟨_, _, _, _, _, hintent, hindex, hitem, hpatch, hrun⟩

end Merger

/-! ## Changes of a turn -/

/-- The turn records the change with number `k`: the change is among those that its directive adds
to the report, and it is none of those of a walk that the turn enters. What is done while an item
is populated for an addition is not reported. -/
structure Turn.Records (m : Merger) (turn : Turn) (k : Nat) (c : Change) : Prop where
  added : ∃ made s, Succeeds
    (m.runDirective turn.base turn.patch turn.original turn.directive) turn.session made s ∧
    turn.session.report.length ≤ k ∧ s.report.changes[k]? = some c
  own : ∀ w made s, turn.Enters m w → w.Ends m made s →
    w.session.populating = turn.session.populating → w.session.report.length ≤ k →
    s.report.changes[k]? ≠ some c

namespace Turn

variable {m : Merger} {turn : Turn} {k : Nat} {c : Change}

/-- The record of the walk over an element that updates an item counts as much as that of the
turn. -/
theorem AtElement.populating_eq {r : Reconciliation} {position : Nat}
    {members : List (String × Json)} {directives : List Directive} {state : Reconciled}
    {s : Session} (h : turn.AtElement m r position members directives state s) :
    s.populating = turn.session.populating := by
  cases h with
  | intro _ hproceeds _ _ _ _ _ _ _ _ hclears hearlier =>
    have hrun := (hearlier.extends fun e _ => m.runsExtend e.directives).counters.1
    have hclear := hclears.extends.counters.1
    obtain ⟨minted, rfl⟩ := hproceeds.eq_minted
    rw [hrun, hclear]

/-- A change that an array records at a collection is at its path, or it is that of a walk over one
of its elements. -/
theorem path_eq_of_reconciles {path : List String} {elements : List Element} {p o : Node}
    {index : Nat} {s s' : Session} {name : String} {pm om : Member} {made : Fields}
    (hdirective : turn.directive = .array path elements)
    (hproceeds : m.Proceeds path turn.patch turn.original turn.session index p o s)
    (hlast : path.drop index = [name]) (hid : isIdentityKey name = false)
    (hpm : m.member? p name = some pm) (hom : m.member? o name = some om)
    (hkind : om.kind = .collection)
    (h : m.Reconciles turn.full (.array (elements.map Element.value)) elements p o pm om s made s')
    (hk : s.report.length ≤ k) (hc : s'.report.changes[k]? = some c) :
    c.path = turn.full ∨ ∃ w made t, turn.Enters m w ∧ w.Ends m made t ∧
      w.session.populating = turn.session.populating ∧ w.session.report.length ≤ k ∧
      t.report.changes[k]? = some c := by
  cases h with
  | ignored => exact .inl ((Adds.refl turn.full s).path_eq hk hc)
  | run hpatch hread htarget hclears hrun hdrops =>
    -- the change is due to the drops, to the elements, or to the clearing
    rcases hdrops.extends.change_cases hc with hc | hlater
    · have hextends := hrun.extends fun e _ => m.runsExtend e.directives
      rcases hextends.change_cases hc with hc | hlater
      · exact .inl (hclears.adds.path_eq hk hc)
      · obtain ⟨i, members, directives, before, after, t, u, hearlier, helement, hstep, hlt,
          hchange⟩ := hrun.exists_recording_step hlater hc
        rcases hstep.adds with hadds | ⟨id, j, item, made, patchItem, hintent, hindex, hitem,
          hfind, hwalk⟩
        · exact .inl (hadds.path_eq hlt hchange)
        · have hat := AtElement.intro hdirective hproceeds hlast hid hpm hom hkind hpatch hread
            htarget hclears hearlier helement
          exact .inr ⟨_, made, u, .update hat hintent hindex hitem hfind, hwalk,
            hat.populating_eq, hlt, hchange⟩
    · exact .inl (hdrops.adds.path_eq hlater hc)

/-- A change that a directive records is at the path of its turn, or it is that of a walk that the
turn enters. -/
theorem path_eq_or_enters {made : Fields} {s : Session}
    (h : Succeeds (m.runDirective turn.base turn.patch turn.original turn.directive) turn.session
      made s)
    (hk : turn.session.report.length ≤ k) (hc : s.report.changes[k]? = some c) :
    c.path = turn.full ∨ ∃ w made t, turn.Enters m w ∧ w.Ends m made t ∧
      w.session.populating = turn.session.populating ∧ w.session.report.length ≤ k ∧
      t.report.changes[k]? = some c := by
  have hfull : ⟨turn.base ++ turn.directive.path⟩ = turn.full := rfl
  have hstep := Merger.DirectiveStep.of_runDirective h
  cases hdirective : turn.directive with
  | scalar path value =>
    rw [hdirective] at hstep hfull
    rw [Directive.path] at hfull
    cases hstep with
    | identity => exact .inl ((Adds.refl turn.full turn.session).path_eq hk hc)
    | scalar _ hvisit =>
      rw [hfull] at hvisit
      obtain ⟨p, o, last, put, t, made, harrives, -, hends⟩ := hvisit.exists_arrives
      obtain ⟨minted, rfl⟩ := harrives.eq_minted
      rcases hends with ⟨name, -, hassigns⟩ | ⟨name, key, -, hassigns⟩
      · exact .inl (hassigns.adds.path_eq hk hc)
      · exact .inl (hassigns.adds.path_eq hk hc)
  | array path elements =>
    rw [hdirective] at hstep hfull
    rw [Directive.path] at hfull
    cases hstep with
    | array hvisit =>
      rw [hfull] at hvisit
      obtain ⟨p, o, last, put, t, made, harrives, -, hends⟩ := hvisit.exists_arrives
      obtain ⟨index, hproceeds, hlast⟩ := harrives.proceeds
      have hreport : turn.session.report = t.report := by
        obtain ⟨minted, rfl⟩ := harrives.eq_minted
        rfl
      rw [hreport] at hk
      rcases hends with ⟨name, rfl, hassigns⟩ | ⟨name, key, -, hassigns⟩
      · cases hassigns with
        | identity => exact .inl ((Adds.refl turn.full _).path_eq hk hc)
        | emptied =>
          refine .inl (Adds.path_eq ?_ hk hc)
          exact .one (c := ⟨turn.full, .cleared, none⟩) rfl rfl
        | assigned _ _ _ _ _ hassign => exact .inl (hassign.adds.path_eq hk hc)
        | reconciled hid hpm hom hkind hreconcile =>
          exact path_eq_of_reconciles hdirective hproceeds hlast hid hpm hom hkind hreconcile hk hc
      · exact .inl (hassigns.adds.path_eq hk hc)

/-- A change that a turn records has the path of the turn. -/
theorem Records.path_eq (h : turn.Records m k c) : c.path = turn.full := by
  obtain ⟨made, s, hrun, hk, hc⟩ := h.added
  rcases path_eq_or_enters hrun hk hc with
    hpath | ⟨w, made', t, henters, hends, hsame, hlt, hchange⟩
  · exact hpath
  · exact absurd hchange (h.own w made' t henters hends hsame hlt)

end Turn

namespace Merger

variable {m : Merger} {k : Nat} {c : Change}

/-- Every change of a walk that succeeds is recorded by one of the turns that it comes to, and not
while an item is populated. -/
theorem exists_records (directives : List Directive) :
    ∀ {base : List String} {patch original : Node} {s s' : Session} {made : Fields},
      Outset.Ends ⟨base, patch, original, directives, s⟩ m made s' → s.report.length ≤ k →
      s'.report.changes[k]? = some c →
      ∃ turn, m.ComesTo ⟨base, patch, original, directives, s⟩ turn ∧
        turn.session.populating = s.populating ∧ turn.Records m k c := by
  induction directives using Directive.forall_of_elements with
  | nil =>
    intro base patch original s s' made h hk hc
    obtain ⟨-, rfl⟩ := succeeds_runDirectives_nil.1 h
    rw [List.getElem?_eq_none hk] at hc
    cases hc
  | cons directive directives hdirective ih =>
    intro base patch original s s' made h hk hc
    obtain ⟨mid, t, hhead, htail⟩ := succeeds_runDirectives_cons.1 h
    rcases (m.runsExtend directives htail).change_cases hc with hc | hlater
    · have hturn : Outset.HasTurn ⟨base, patch, original, directive :: directives, s⟩ m
          ⟨base, patch, original, directive, s⟩ := hasTurn_head
      by_cases hinner : ∃ w made u, Turn.Enters m ⟨base, patch, original, directive, s⟩ w ∧
          w.Ends m made u ∧ w.session.populating = s.populating ∧ w.session.report.length ≤ k ∧
          u.report.changes[k]? = some c
      · obtain ⟨w, made', u, henters, hends, hsame, hlt, hchange⟩ := hinner
        obtain ⟨-, position, members, helement⟩ := henters.exists_element
        obtain ⟨turn, hcomes, hpopulating, hrecords⟩ :=
          hdirective _ (List.mem_of_getElem? helement) hends hlt hchange
        exact ⟨turn, .inner hturn henters hcomes, hpopulating.trans hsame, hrecords⟩
      · refine ⟨_, .own hturn, rfl, ⟨mid, t, hhead, hk, hc⟩, ?_⟩
        intro w made' u henters hends hsame hlt hchange
        exact hinner ⟨w, made', u, henters, hends, hsame, hlt, hchange⟩
    · have hfirst : Succeeds (m.runDirectives base patch original.type [directive] original.fields)
          s mid t :=
        succeeds_runDirectives_cons.2 ⟨mid, t, hhead, succeeds_runDirectives_nil.2 ⟨rfl, rfl⟩⟩
      have hsame := (m.runsExtend [directive] hfirst).counters.1
      have hrest : Outset.Ends ⟨base, patch, ⟨original.type, mid⟩, directives, t⟩ m made s' := htail
      obtain ⟨turn, hcomes, hpopulating, hrecords⟩ := ih hrest hlater hc
      exact ⟨turn, hcomes.tail hhead, hpopulating.trans hsame, hrecords⟩

end Merger

/-! ## Errors -/

/-- Where an error points that arises at a turn. -/
inductive Turn.Locates (m : Merger) (turn : Turn) : MergeError → Path → Prop where
  /-- At the owners of the member, or at one of its elements, it points at the terminal. -/
  | member {index : Nat} {p o : Node} {s : Session} {name : String} {e : MergeError}
      (hproceeds : m.Proceeds turn.directive.path turn.patch turn.original turn.session index p o s)
      (hlast : turn.directive.path.drop index = [name]) : Locates m turn e turn.full
  /-- So it does at an entry of a dictionary of leaves. -/
  | entry {index : Nat} {p o : Node} {s : Session} {name key : String} {e : MergeError}
      (hproceeds : m.Proceeds turn.directive.path turn.patch turn.original turn.session index p o s)
      (hlast : turn.directive.path.drop index = [name, key]) (hspan : m.span p o name = 2) :
      Locates m turn e turn.full
  /-- A name or a key that is missing on the way is reported with the terminal, too. -/
  | unknown {index : Nat} {p o : Node} {s : Session} {typeName member : String}
      (hproceeds : m.Proceeds turn.directive.path turn.patch turn.original turn.session index p o s)
      (hstuck : m.Stuck p o s (turn.directive.path.drop index)) :
      Locates m turn (.structuralMismatch turn.full typeName member) turn.full
  /-- Any other error on the way points at what the navigation does not go through: it has come as
  far as `index`, and no hop leads on along the segments that are left. -/
  | hop {index : Nat} {p o : Node} {s : Session} {name key : String} {rest : List String}
      {e : MergeError}
      (hproceeds : m.Proceeds turn.directive.path turn.patch turn.original turn.session index p o s)
      (hrest : turn.directive.path.drop index = name :: key :: rest)
      (hstuck : m.Stuck p o s (turn.directive.path.drop index)) :
      Locates m turn e ⟨turn.base ++ turn.directive.path.take (index + m.span p o name)⟩

namespace Turn

variable {m : Merger} {turn : Turn} {cause : Cause} {e : MergeError} {path : Path}

/-- An error at an element points at the terminal. -/
theorem AtElement.locates {r : Reconciliation} {position : Nat}
    {members : List (String × Json)} {directives : List Directive} {state : Reconciled}
    {s : Session} (h : turn.AtElement m r position members directives state s) :
    turn.Locates m e r.full := by
  cases h with
  | intro hdirective hproceeds hlast =>
    have hpath : turn.directive.path = _ := congrArg Directive.path hdirective
    rw [Directive.path] at hpath
    rw [← hpath] at hproceeds hlast
    exact .member hproceeds hlast

/-- An error that no override made points where the turn locates it. -/
theorem Fails.locates (h : turn.Fails m cause e) (hcause : cause ≠ .override)
    (hpath : e.path? = some path) : turn.Locates m e path := by
  cases h with
  | emptyPath => cases hpath
  | blocked hproceeds hrest hstuck hblocks =>
    cases hblocks with
    | unknown =>
      obtain rfl := Option.some_inj.1 hpath
      exact .unknown hproceeds hstuck
    | mismatch | unmade | table =>
      obtain rfl := Option.some_inj.1 hpath
      exact .hop hproceeds hrest hstuck
  | entry hproceeds hlast hspan hat =>
    obtain rfl := hat.path_eq hpath
    exact .entry hproceeds hlast hspan
  | member hproceeds hlast hfails =>
    cases hfails with
    | override => exact absurd rfl hcause
    | table =>
      obtain rfl := Option.some_inj.1 hpath
      exact .member hproceeds hlast
    | ordinary hat =>
      obtain rfl := hat.path_eq hpath
      exact .member hproceeds hlast
  | element hat hfails =>
    cases hfails with
    | override => exact absurd rfl hcause
    | foreignItem | unknown | unpatched | lostItem =>
      obtain rfl := Option.some_inj.1 hpath
      exact hat.locates
    | ordinary hplain =>
      obtain rfl := hplain.path_eq hpath
      exact hat.locates

/-- An error points at a part of the way to the terminal, and never at the root. -/
theorem Locates.isPrefix (h : turn.Locates m e path) (hne : turn.directive.path ≠ []) :
    path.segments ≠ [] ∧ path.segments <+: turn.full.segments := by
  have hfull : turn.full.segments ≠ [] ∧ turn.full.segments <+: turn.full.segments :=
    ⟨List.append_ne_nil_of_right_ne_nil _ hne, List.prefix_rfl⟩
  cases h with
  | member | entry | unknown => exact hfull
  | @hop index p o s name key rest =>
    have hpos := m.span_pos p o name
    have htake : turn.directive.path.take (index + m.span p o name) ≠ [] := by
      rw [Ne, List.take_eq_nil_iff, not_or]
      exact ⟨by omega, hne⟩
    refine ⟨List.append_ne_nil_of_right_ne_nil _ htake, ?_⟩
    exact (List.prefix_append_right_inj turn.base).2 (List.take_prefix ..)

end Turn

/-! ## A whole merge -/

/-- The paths in what comes of a merge are those of terminals of its payload. -/
structure Located (m : Merger) (patch original : Node) (payload : Json) (minted : Nat) : Prop where
  /-- Each turn is about a terminal of the payload, whose full path is that of the turn. -/
  terminal : ∀ turn, m.ComesTo (m.outset patch original payload minted) turn →
    ∃ members, payload = .object members ∧
      Terminal m.options members turn.full.segments turn.directive.node
  /-- Each change of the report is recorded by a turn, which is not inside of an item that is being
  populated, and it has the path of the turn. -/
  reported : ∀ report k c, (m.merge patch original payload minted).result = .ok report →
    report.changes[k]? = some c →
    ∃ turn, m.ComesTo (m.outset patch original payload minted) turn ∧
      turn.session.populating = 0 ∧ turn.Records m k c ∧ c.path = turn.full
  /-- No turn records a change with another path. -/
  recorded : ∀ turn k c, m.ComesTo (m.outset patch original payload minted) turn →
    turn.Records m k c → c.path = turn.full
  /-- The path of an error that no override made is where a turn that fails locates it, and a
  part of the way to the terminal of the turn. -/
  failed : ∀ e path, (m.merge patch original payload minted).result = .error e →
    e.path? = some path →
    ∃ turn cause, m.ComesTo (m.outset patch original payload minted) turn ∧ turn.Fails m cause e ∧
      (cause ≠ .override →
        turn.Locates m e path ∧ path.segments ≠ [] ∧ path.segments <+: turn.full.segments)

theorem located_merge (m : Merger) (patch original : Node) (payload : Json) (minted : Nat) :
    Located m patch original payload minted where
  terminal turn hcomes := by
    obtain ⟨members, rfl, hdirectives⟩ := hcomes.isObject
    obtain ⟨path, hfull, hterminal⟩ := hcomes.terminal hdirectives
    have hfull : turn.full.segments = path := hfull
    exact ⟨members, rfl, by rwa [hfull]⟩
  reported report k c hok hc := by
    obtain ⟨members, made, s, rfl, hwalks, rfl, -⟩ := Merger.Walks.of_merge hok
    obtain ⟨turn, hcomes, hpopulating, hrecords⟩ :=
      Merger.exists_records _ hwalks (Nat.zero_le k) hc
    exact ⟨turn, hcomes, hpopulating, hrecords, hrecords.path_eq⟩
  recorded turn k c _ hrecords := hrecords.path_eq
  failed e path herror hpath := by
    rcases Merger.exists_fails_of_merge herror with
      ⟨-, message, rfl⟩ | ⟨turn, cause, hcomes, hfails⟩
    · cases hpath
    · refine ⟨turn, cause, hcomes, hfails, fun hcause => ?_⟩
      obtain ⟨members, -, hdirectives⟩ := hcomes.isObject
      have hlocates := hfails.locates hcause hpath
      exact ⟨hlocates, hlocates.isPrefix (hcomes.path_ne_nil hdirectives)⟩

end SelectiveMerge
