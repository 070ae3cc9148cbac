import SelectiveMerge.Proofs.Causes
import SelectiveMerge.Proofs.Heeded
import SelectiveMerge.Proofs.InertKeys

/-!
# Member tables that describe their types

A member table describes its type when each member has the kind of the field that it shows and
of the field that it is written to; the two need not be the same field. Types may then hold
whatever they like: no payload, patch or validator brings about an internal failure.

* `Catalogue.Described` — the tables of all types describe them
* `Catalogue.Described.fits` — all members of complete objects fit
* `Turn.Fails.not_internal` — no turn fails for an internal cause
* `Plan.describes` — tables that are laid out by plans describe their types
* `explained_merge` — the causes of the errors of a whole merge
-/

namespace SelectiveMerge

open Declaration (SharedView)

/-- The member has the kind of the field that it shows, up to whether an object may be missing, and
of the field that it is written to. -/
structure Member.Describes (c : Catalogue) (type : TypeName) (member : Member) : Prop where
  reads : ∃ i form, member.reads = some i ∧ c.form? type i = some form ∧
    SharedView.ofKind form.kind = SharedView.ofKind member.kind
  writes : ∃ i form, member.writes = some i ∧ c.form? type i = some form ∧
    form.kind = member.kind

/-- The member tables of all types describe them. -/
def Catalogue.Described (c : Catalogue) : Prop :=
  ∀ type, ∀ member ∈ (c type).table.members, member.Describes c type

/-- All members of a complete object fit where tables describe their types. -/
theorem Catalogue.Described.fits {c : Catalogue} (h : c.Described) {n : Node} (hn : n.Complete c)
    {member : Member} (hmember : member ∈ (c n.type).table.members) : n.Fits member := by
  obtain ⟨⟨i, form, hreads, hform, hkind⟩, ⟨j, form', hwrites, hform', hkind'⟩⟩ :=
    h n.type member hmember
  rw [Complete.form? hn] at hform hform'
  obtain ⟨slot, hslot, rfl⟩ := Option.map_eq_some_iff.1 hform
  obtain ⟨slot', hslot', rfl⟩ := Option.map_eq_some_iff.1 hform'
  rw [Form.kind_form] at hkind hkind'
  constructor
  · refine ⟨slot.view, Node.read?_eq_some.2 ⟨i, slot, hreads, hslot, rfl⟩, ?_⟩
    rw [Slot.shared_view, hkind]
  · exact ⟨j, slot', Node.target?_eq_some.2 ⟨hwrites, hslot'⟩, hkind'⟩

namespace Turn

variable {m : Merger} {turn : Turn} {cause : Cause} {e : MergeError}

/-- A member that a complete object has under a name fits it. -/
theorem fits_of_member? (hdescribed : m.catalogue.Described) {p o n : Node}
    (hp : p.Complete m.catalogue) (ho : o.Complete m.catalogue) (hn : n = p ∨ n = o)
    {name : String} {member : Member} (hmember : m.member? n name = some member) :
    n.Fits member := by
  have hcomplete : n.Complete m.catalogue := by
    rcases hn with rfl | rfl
    · exact hp
    · exact ho
  exact hdescribed.fits hcomplete (MemberTable.mem_of_find? hmember)

/-- A turn about complete objects of well described types, whose directive has a path, does not fail
for an internal cause. -/
theorem Fails.not_internal (hm : m.KeepsComplete) (hdescribed : m.catalogue.Described)
    (hpatch : turn.patch.Complete m.catalogue) (horiginal : turn.original.Complete m.catalogue)
    (hpath : turn.directive.path ≠ []) (h : turn.Fails m cause e) :
    cause.isInternal = false := by
  cases h with
  | emptyPath hnil => exact absurd hnil hpath
  | blocked hproceeds _ _ hblocks =>
    obtain ⟨hp, ho⟩ := hproceeds.complete hm hpatch horiginal
    cases hblocks with
    | unknown | mismatch | unmade => rfl
    | table hn hmember hfits => exact absurd (fits_of_member? hdescribed hp ho hn hmember) hfits
  | entry => rfl
  | member hproceeds _ hfails =>
    obtain ⟨hp, ho⟩ := hproceeds.complete hm hpatch horiginal
    cases hfails with
    | override | ordinary => rfl
    | table hn hmember hfits => exact absurd (fits_of_member? hdescribed hp ho hn hmember) hfits
  | element _ hfails =>
    cases hfails with
    | override | foreignItem | unknown | unpatched | ordinary => rfl
    | lostItem hindex hnone => exact absurd hnone (Merger.getElem?_ne_none_of_position? hindex)

/-- Only overrides, the items that they make, and tables that do not describe their types are
errors of the configuration. -/
theorem Fails.cause_of_configuration {path : Path} {message : String}
    (h : turn.Fails m cause (.configuration path message)) :
    cause = .override ∨ cause = .foreignItem ∨ cause = .table := by
  cases h with
  | blocked _ _ _ hblocks =>
    cases hblocks with
    | table => exact .inr (.inr rfl)
  | entry _ _ _ hat => cases hat
  | member _ _ hfails =>
    cases hfails with
    | override => exact .inl rfl
    | table => exact .inr (.inr rfl)
    | ordinary hat => cases hat
  | element _ hfails =>
    cases hfails with
    | override => exact .inl rfl
    | foreignItem => exact .inr (.inl rfl)
    | ordinary hat => cases hat

/-- Only overrides and paths without segments are malformed input. -/
theorem Fails.cause_of_malformedInput {argument message : String}
    (h : turn.Fails m cause (.malformedInput argument message)) :
    cause = .override ∨ cause = .emptyPath := by
  cases h with
  | emptyPath => exact .inr rfl
  | blocked _ _ _ hblocks => cases hblocks
  | entry _ _ _ hat => cases hat
  | member _ _ hfails =>
    cases hfails with
    | override => exact .inl rfl
    | ordinary hat => cases hat
  | element _ hfails =>
    cases hfails with
    | override => exact .inl rfl
    | ordinary hat => cases hat

/-- Only overrides, identities that no item has, and items that are lost are unknown identities. -/
theorem Fails.cause_of_unknownIdentity {path : Path} {id : Uuid} {hint : String}
    (h : turn.Fails m cause (.unknownIdentity path id hint)) :
    cause = .override ∨ cause = .identity ∨ cause = .lostItem := by
  cases h with
  | blocked _ _ _ hblocks => cases hblocks
  | entry _ _ _ hat => cases hat
  | member _ _ hfails =>
    cases hfails with
    | override => exact .inl rfl
    | ordinary hat => cases hat
  | element _ hfails =>
    cases hfails with
    | override => exact .inl rfl
    | unknown | unpatched => exact .inr (.inl rfl)
    | lostItem => exact .inr (.inr rfl)
    | ordinary hat => cases hat

end Turn

/-! ## A whole merge -/

/-- What the errors of a merge of well described types are due to. -/
structure Explained (m : Merger) (patch original : Node) (payload : Json) (minted : Nat) :
    Prop where
  /-- Every error has a cause, at a turn that the merge comes to, unless the payload is no
  object. -/
  cause : ∀ e, (m.merge patch original payload minted).result = .error e →
    (payload.isObject = false ∧ ∃ message, e = Payload.malformed message) ∨
      ∃ turn cause, m.ComesTo (m.outset patch original payload minted) turn ∧ turn.Fails m cause e
  /-- No turn that the merge comes to fails for an internal cause. -/
  notInternal : ∀ turn cause e, m.ComesTo (m.outset patch original payload minted) turn →
    turn.Fails m cause e → cause.isInternal = false
  /-- An error of the configuration is made by an override, or due to a foreign item that a factory
  made. -/
  configuration : ∀ turn cause path message,
    m.ComesTo (m.outset patch original payload minted) turn →
    turn.Fails m cause (.configuration path message) → cause = .override ∨ cause = .foreignItem
  /-- No path is empty: malformed input on the way is that of an override. -/
  malformedInput : ∀ turn cause argument message,
    m.ComesTo (m.outset patch original payload minted) turn →
    turn.Fails m cause (.malformedInput argument message) → cause = .override
  /-- An identity is unknown where no item has it, and not where one was found. -/
  unknownIdentity : ∀ turn cause path id hint,
    m.ComesTo (m.outset patch original payload minted) turn →
    turn.Fails m cause (.unknownIdentity path id hint) → cause = .override ∨ cause = .identity
  /-- A navigation only looks at segments that there are: the one that it has come to, and behind it
  those that it goes through. -/
  inBounds : ∀ turn index p o s, m.ComesTo (m.outset patch original payload minted) turn →
    m.Proceeds turn.directive.path turn.patch turn.original turn.session index p o s →
    index < turn.directive.path.length ∧
      ∀ name, index + 1 < turn.directive.path.length →
        index + m.span p o name ≤ turn.directive.path.length

theorem explained_merge {m : Merger} {patch original : Node} (hm : m.KeepsComplete)
    (hdescribed : m.catalogue.Described) (hpatch : patch.Complete m.catalogue)
    (horiginal : original.Complete m.catalogue) (payload : Json) (minted : Nat) :
    Explained m patch original payload minted := by
  have hinternal : ∀ turn cause e, m.ComesTo (m.outset patch original payload minted) turn →
      turn.Fails m cause e → cause.isInternal = false := by
    intro turn cause e hcomes hfails
    obtain ⟨members, -, hdirectives⟩ := hcomes.isObject
    obtain ⟨hturnPatch, hturnOriginal⟩ := hcomes.complete hm hpatch horiginal
    exact hfails.not_internal hm hdescribed hturnPatch hturnOriginal
      (hcomes.path_ne_nil hdirectives)
  constructor
  case cause => exact fun e herror => Merger.exists_fails_of_merge herror
  case notInternal => exact hinternal
  case configuration =>
    intro turn cause path message hcomes hfails
    rcases hfails.cause_of_configuration with hcause | hcause | rfl
    · exact .inl hcause
    · exact .inr hcause
    · exact absurd (hinternal turn _ _ hcomes hfails) (by decide)
  case malformedInput =>
    intro turn cause argument message hcomes hfails
    rcases hfails.cause_of_malformedInput with hcause | rfl
    · exact hcause
    · exact absurd (hinternal turn _ _ hcomes hfails) (by decide)
  case unknownIdentity =>
    intro turn cause path id hint hcomes hfails
    rcases hfails.cause_of_unknownIdentity with hcause | hcause | rfl
    · exact .inl hcause
    · exact .inr hcause
    · exact absurd (hinternal turn _ _ hcomes hfails) (by decide)
  case inBounds =>
    intro turn index p o s hcomes hproceeds
    obtain ⟨members, -, hdirectives⟩ := hcomes.isObject
    refine ⟨hproceeds.lt_length (hcomes.path_ne_nil hdirectives), fun name hmore => ?_⟩
    have hspan := m.span_le_two p o name
    omega

/-! ## Tables that are laid out by plans -/

/-- A member of a table that plans lay out is read from and written to the field of its plan. -/
theorem Plan.exists_of_mem_members {start : Nat} {plans : List Plan} {member : Member}
    (h : member ∈ Plan.members start plans) :
    ∃ i plan, member.reads = some i ∧ member.writes = some i ∧ plans[i - start]? = some plan ∧
      member.kind = plan.initial.kind := by
  obtain ⟨i, hreads, hwrites⟩ := Plan.derived_members start plans member h
  obtain ⟨plan, -, hplan, hkind⟩ := Sample.exists_plan_of_mem_members h hwrites
  exact ⟨i, plan, hreads, hwrites, hplan, hkind⟩

/-- The table of a type that plans lay out describes it. -/
theorem Plan.describes {c : Catalogue} {type : TypeName} {plans : List Plan}
    (htable : (c type).table.members = Plan.members 0 plans)
    (hfields : (c type).initialFields = plans.map Plan.initial) {member : Member}
    (hmember : member ∈ (c type).table.members) : member.Describes c type := by
  rw [htable] at hmember
  obtain ⟨i, plan, hreads, hwrites, hplan, hkind⟩ := Plan.exists_of_mem_members hmember
  rw [Nat.sub_zero] at hplan
  have hform : c.form? type i = some plan.initial.form := by
    rw [Catalogue.form?, hfields, List.getElem?_map, hplan, Option.map_some, Option.map_some]
  have hsame : plan.initial.form.kind = member.kind := by
    rw [Form.kind_form, hkind]
  exact ⟨⟨i, _, hreads, hform, by rw [hsame]⟩, ⟨i, _, hwrites, hform, hsame⟩⟩

namespace Sample

theorem depot_described : depot.catalogue.Described := by
  intro type member hmember
  by_cases hhouse : type = "House"
  · subst hhouse
    exact Plan.describes rfl rfl hmember
  · by_cases hletter : type = "Letter"
    · subst hletter
      exact Plan.describes rfl rfl hmember
    · have htype : depot.catalogue type = address "" := by
        show ite _ _ _ = _
        rw [if_neg hhouse, if_neg hletter]
      have htable : (depot.catalogue type).table.members =
          Plan.members 0 [.text "Street", .text "City", .leaf "Zip" (.option .text)] := by
        rw [htype]
        rfl
      exact Plan.describes htable (by rw [htype]; rfl) hmember

/-- A payload that takes a street for an object. -/
def insideStreet : Json :=
  .object [("address", .object [("Street", .object [("name", .null)])])]

end Sample

/-- A merge that fails at a hop: the error has an ordinary cause. -/
theorem explained_merge_house :
    (Sample.depot.merge (Sample.house "new") (Sample.house "old") Sample.insideStreet 0).result =
        .error (.typeMismatch ⟨["address", "Street"]⟩ "value" "object") ∧
      Explained Sample.depot (Sample.house "new") (Sample.house "old") Sample.insideStreet 0 :=
  ⟨by decide +kernel,
    explained_merge Sample.depot_keepsComplete Sample.depot_described (Sample.house_complete "new")
      (Sample.house_complete "old") Sample.insideStreet 0⟩

end SelectiveMerge
