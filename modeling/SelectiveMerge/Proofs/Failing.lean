import SelectiveMerge.Declaration.Derivation
import SelectiveMerge.Proofs.Step
import SelectiveMerge.Proofs.Typing

/-!
# Runs that fail

`Run.Fails` says that a run ends with an error. Its lemmas take a chain of steps apart in
the same way as those about `Run.Succeeds`: a chain fails when its first step does, or when
that succeeds and the rest fails from there.

Errors are told apart by their causes, which their wording does not always show. Three of
the causes are internal: no payload could bring them about, only tables that do not describe
their types, or a fault of the merge itself.

* `Run.Fails.bind_iff` — how a chain fails
* `Cause` — what an error is due to
* `MergeError.IsAt` — the ordinary errors at a path
* `Node.Fits` — a member has the kind of what it shows and of what it is written to
* `Merger.FailsAt` — how an assignment of a member fails
-/

namespace SelectiveMerge

open Declaration (SharedView)

namespace Run

variable {α β : Type} {e e' : MergeError} {s : Session}

/-- The run from the record `s` ends with the error `e`. -/
def Fails (x : Run α) (s : Session) (e : MergeError) : Prop := ∃ s', x s = .error e s'

namespace Fails

/-- A chain of two steps fails when the first one does, or the second from where the first
ended. -/
theorem bind_iff {x : Run α} {f : α → Run β} :
    Fails (x >>= f) s e ↔ Fails x s e ∨ ∃ a t, Succeeds x s a t ∧ Fails (f a) t e := by
  cases hrun : x s with
  | ok a t =>
    have hx : Succeeds x s a t := hrun
    constructor
    · rintro ⟨s', h⟩
      rw [hx.bind_eq f] at h
      exact .inr ⟨a, t, hx, s', h⟩
    · rintro (⟨s', h⟩ | ⟨b, u, hb, s', h⟩)
      · rw [hrun] at h
        cases h
      · obtain ⟨rfl, rfl⟩ : a = b ∧ t = u := by
          have heq : EStateM.Result.ok a t = EStateM.Result.ok b u := hrun.symm.trans hb
          exact ⟨(EStateM.Result.ok.inj heq).1, (EStateM.Result.ok.inj heq).2⟩
        exact ⟨s', (hx.bind_eq f).trans h⟩
  | error e' t =>
    have hbind := bind_of_error hrun f
    constructor
    · rintro ⟨s', h⟩
      rw [hbind] at h
      obtain ⟨rfl, rfl⟩ := EStateM.Result.error.inj h
      exact .inl ⟨_, hrun⟩
    · rintro (⟨s', h⟩ | ⟨b, u, hb, -⟩)
      · rw [hrun] at h
        obtain ⟨rfl, rfl⟩ := EStateM.Result.error.inj h
        exact ⟨_, hbind⟩
      · have heq : EStateM.Result.error e' t = EStateM.Result.ok b u := hrun.symm.trans hb
        cases heq

theorem pure_iff {a : α} : Fails (pure a) s e ↔ False := by
  constructor
  · rintro ⟨s', h⟩
    cases h
  · exact False.elim

theorem fail_iff : Fails (fail e' : Run α) s e ↔ e' = e := by
  constructor
  · rintro ⟨s', h⟩
    exact (EStateM.Result.error.inj h).1
  · rintro rfl
    exact ⟨s, rfl⟩

theorem ofExcept_iff {x : Except MergeError α} : Fails (ofExcept x) s e ↔ x = .error e := by
  cases x <;> simp [ofExcept, pure_iff, fail_iff]

theorem require_iff {x : Option α} : Fails (require e' x) s e ↔ x = none ∧ e' = e := by
  cases x <;> simp [require, pure_iff, fail_iff]

theorem record_iff {c : Change} : Fails (record c) s e ↔ False := by
  constructor
  · rintro ⟨s', h⟩
    cases h
  · exact False.elim

/-- A step that populates a new item fails as it does by itself. -/
theorem quietly_iff {x : Run α} :
    Fails (quietly x) s e ↔ Fails x { s with populating := s.populating + 1 } e := by
  unfold Fails quietly
  cases x { s with populating := s.populating + 1 } with
  | ok a t => simp
  | error e' t => simp

/-- A chain whose second step never fails, fails as its first one. -/
theorem of_bind_pure {x : Run α} {f : α → β} (h : Fails (x >>= fun a => pure (f a)) s e) :
    Fails x s e := by
  rcases bind_iff.1 h with hx | ⟨a, t, -, hpure⟩
  · exact hx
  · exact (pure_iff.1 hpure).elim

end Fails

end Run

/-! ## Causes -/

/-- What the error of a merge is due to. -/
inductive Cause where
  /-- An action or a factory of the configuration made the error. -/
  | override
  /-- A factory made an item of another type than the collection holds. -/
  | foreignItem
  /-- No item of the collection, or of its counterpart in the patch, has the identity. -/
  | identity
  /-- Anything else that the payload, the patch, the validator or a type may bring about. -/
  | ordinary
  /-- A member table does not describe its type. -/
  | table
  /-- The path of a member has no segment. -/
  | emptyPath
  /-- There is no item at the position at which one was found. -/
  | lostItem
  deriving DecidableEq

/-- The causes that a merge of well described types is free of. -/
def Cause.isInternal : Cause → Bool
  | .table | .emptyPath | .lostItem => true
  | .override | .foreignItem | .identity | .ordinary => false

/-- The ordinary errors of a place: they point at it, or nowhere. -/
inductive MergeError.IsAt (full : Path) : MergeError → Prop where
  | structuralMismatch {typeName member : String} :
      IsAt full (.structuralMismatch full typeName member)
  | typeMismatch {expected found : String} : IsAt full (.typeMismatch full expected found)
  | invalidIdentity {raw : String} : IsAt full (.invalidIdentity full raw)
  | validationRejected {operation : Operation} : IsAt full (.validationRejected full operation)
  | uninitializable {typeName : String} : IsAt full (.uninitializable full typeName)
  | coercion {value : Json} {sourceType targetType : String} :
      IsAt full (.coercion full value sourceType targetType)
  | serialization {fault : SerializationFault} : IsAt full (.serialization fault)

theorem MergeError.IsAt.path_eq {full path : Path} {e : MergeError} (h : e.IsAt full)
    (hpath : e.path? = some path) : path = full := by
  cases h <;> simp [MergeError.path?] at hpath <;> exact hpath.symm

/-! ## Members that fit -/

/-- What reading a member gives, without whether an object is missing. -/
def View.shared : View → SharedView
  | .leaf .. => .leaf
  | .object .. => .object
  | .collection .. => .collection
  | .dictionary .. => .dictionary
  | .leafDictionary .. => .leafDictionary

theorem Slot.shared_view (slot : Slot) : slot.view.shared = SharedView.ofKind slot.kind := by
  cases slot <;> rfl

/-- A member of an object has the kind of what it shows and of what it is written to. -/
structure Node.Fits (n : Node) (member : Member) : Prop where
  shown : ∃ view, n.read? member = some view ∧ view.shared = SharedView.ofKind member.kind
  written : ∃ i slot, n.target? member = some (i, slot) ∧ slot.kind = member.kind

namespace Node.Fits

variable {n : Node} {member : Member}

theorem read?_ne_none (h : n.Fits member) : n.read? member ≠ none := by
  obtain ⟨view, hread, -⟩ := h.shown
  simp [hread]

theorem target?_ne_none (h : n.Fits member) : n.target? member ≠ none := by
  obtain ⟨i, slot, htarget, -⟩ := h.written
  simp [htarget]

theorem exists_leaf (h : n.Fits member) (hkind : member.kind = .leaf) :
    ∃ i type value, n.target? member = some (i, .leaf type value) := by
  obtain ⟨i, slot, htarget, hslot⟩ := h.written
  rw [hkind] at hslot
  cases slot with
  | leaf type value => exact ⟨i, type, value, htarget⟩
  | _ => cases hslot

theorem exists_optional (h : n.Fits member) (hkind : member.kind = .optionalObject) :
    ∃ i type fields, n.target? member = some (i, .optional type fields) := by
  obtain ⟨i, slot, htarget, hslot⟩ := h.written
  rw [hkind] at hslot
  cases slot with
  | optional type fields => exact ⟨i, type, fields, htarget⟩
  | _ => cases hslot

theorem exists_collection (h : n.Fits member) (hkind : member.kind = .collection) :
    ∃ i type items, n.target? member = some (i, .collection type items) := by
  obtain ⟨i, slot, htarget, hslot⟩ := h.written
  rw [hkind] at hslot
  cases slot with
  | collection type items => exact ⟨i, type, items, htarget⟩
  | _ => cases hslot

theorem shows_collection (h : n.Fits member) (hkind : member.kind = .collection) :
    ∃ type items, n.read? member = some (.collection type items) := by
  obtain ⟨view, hread, hview⟩ := h.shown
  rw [hkind] at hview
  cases view with
  | collection type items => exact ⟨type, items, hread⟩
  | _ => cases hview

end Node.Fits

namespace Merger

open Run (Succeeds Fails)

variable {m : Merger} {s : Session} {e : MergeError} {full : Path} {patch original : Node}
  {name : String} {node : Json}

/-! ## Small steps -/

theorem fails_validate {r : Request} (h : Fails (m.validate r) s e) :
    e = .validationRejected r.path r.operation := by
  obtain ⟨s', h⟩ := h
  unfold validate at h
  split at h
  · cases h
  · exact (EStateM.Result.error.inj h).1.symm

/-- An object can be made from nothing unless its type has no such objects. -/
theorem fails_construct {type : TypeName} (h : Fails (m.construct type full) s e) :
    (m.catalogue type).constructible = false ∧
      e = .uninitializable full (m.catalogue type).typeName := by
  unfold construct at h
  rcases Fails.bind_iff.1 h with ⟨s', h⟩ | ⟨made, t, hmade, h⟩
  · unfold construct? at h
    dsimp only at h
    split at h
    · cases h
    · split at h <;> cases h
  · obtain ⟨rfl, rfl⟩ := Fails.require_iff.1 h
    unfold Succeeds construct? at hmade
    dsimp only at hmade
    split at hmade
    · rename_i hconstructible
      exact ⟨by simpa using hconstructible, rfl⟩
    · split at hmade <;> cases hmade

/-- So an object is missing only if none was found and none can be made. -/
theorem fails_ensure {type : TypeName} {found : Option Fields}
    (h : Fails (m.ensure type full found) s e) :
    found = none ∧ (m.catalogue type).constructible = false ∧
      e = .uninitializable full (m.catalogue type).typeName := by
  cases found with
  | some fields => exact (Fails.pure_iff.1 h).elim
  | none => exact ⟨rfl, fails_construct h⟩

/-- Two objects have no pair of members with a name when one of them has none. -/
theorem memberPair_eq_error (h : m.memberPair full patch original name = .error e) :
    (m.member? patch name = none ∨ m.member? original name = none) ∧
      ∃ typeName, e = .structuralMismatch full typeName name := by
  unfold memberPair at h
  cases hpm : m.member? patch name with
  | none =>
    rw [hpm] at h
    exact ⟨.inl rfl, _, (Except.error.inj h).symm⟩
  | some pm =>
    rw [hpm] at h
    cases hom : m.member? original name with
    | none =>
      rw [hom] at h
      exact ⟨.inr rfl, _, (Except.error.inj h).symm⟩
    | some om =>
      rw [hom] at h
      cases h

theorem encode_mapError_error {f : EncodeFault → MergeError} {source : Cell}
    (h : source.encode.mapError f = .error e) : ∃ fault, e = f fault := by
  cases hencode : source.encode with
  | ok value =>
    rw [hencode] at h
    have h : Except.ok value = Except.error e := h
    cases h
  | error fault =>
    rw [hencode] at h
    have h : Except.error (f fault) = Except.error e := h
    exact ⟨fault, (Except.error.inj h).symm⟩

/-! ## Assignments -/

/-- How what is done at the owners of a member fails: an override makes an error of its own,
a member of one of the owners does not fit, or there is an ordinary error at the path. -/
inductive FailsAt (m : Merger) (full : Path) (patch original : Node) (name : String) :
    Cause → MergeError → Prop where
  | override {action : SetAction} {e : MergeError}
      (haction : m.configuration.setAction? full = some action)
      (hrun : action original patch = .error e) : FailsAt m full patch original name .override e
  | table {n : Node} {member : Member} (hn : n = patch ∨ n = original)
      (hmember : m.member? n name = some member) (hfits : ¬ n.Fits member) :
      FailsAt m full patch original name .table (tableMismatch full (m.catalogue.displayName n))
  | ordinary {e : MergeError} (hat : e.IsAt full) : FailsAt m full patch original name .ordinary e

theorem FailsAt.of_memberPair (h : m.memberPair full patch original name = .error e) :
    m.FailsAt full patch original name .ordinary e := by
  obtain ⟨-, typeName, rfl⟩ := memberPair_eq_error h
  exact .ordinary .structuralMismatch

theorem FailsAt.of_assignLeaf {om : Member} {sourceType : LeafType} {source : Cell}
    (hom : m.member? original name = some om) (hkind : om.kind = .leaf)
    (h : Fails (m.assignLeaf full patch original om sourceType source) s e) :
    ∃ cause, m.FailsAt full patch original name cause e := by
  unfold assignLeaf at h
  rcases Fails.bind_iff.1 h with h | ⟨value, t, -, h⟩
  · obtain ⟨fault, rfl⟩ := encode_mapError_error (Fails.ofExcept_iff.1 h)
    exact ⟨_, .ordinary .serialization⟩
  · rcases Fails.bind_iff.1 h with h | ⟨_, u, -, h⟩
    · obtain rfl := fails_validate h
      exact ⟨_, .ordinary .validationRejected⟩
    · split at h
      · split at h
        · exact (Fails.record_iff.1 h.of_bind_pure).elim
        · obtain rfl := Fails.fail_iff.1 h
          exact ⟨_, .ordinary .coercion⟩
      · rename_i hne
        obtain rfl := Fails.fail_iff.1 h
        refine ⟨_, .table (.inr rfl) hom fun hfits => ?_⟩
        obtain ⟨i, type, old, htarget⟩ := hfits.exists_leaf hkind
        exact hne i type old htarget

theorem FailsAt.of_unsetObject {om : Member} (hom : m.member? original name = some om)
    (hkind : om.kind = .optionalObject)
    (h : Fails (m.unsetObject full patch original om) s e) :
    ∃ cause, m.FailsAt full patch original name cause e := by
  unfold unsetObject at h
  rcases Fails.bind_iff.1 h with h | ⟨_, t, -, h⟩
  · obtain rfl := fails_validate h
    exact ⟨_, .ordinary .validationRejected⟩
  · split at h
    · exact (Fails.record_iff.1 h.of_bind_pure).elim
    · rename_i hne
      obtain rfl := Fails.fail_iff.1 h
      refine ⟨_, .table (.inr rfl) hom fun hfits => ?_⟩
      obtain ⟨i, type, present, htarget⟩ := hfits.exists_optional hkind
      exact hne i type present htarget

theorem FailsAt.of_assignMember
    (h : Fails (m.assignMember full node patch original name) s e) :
    ∃ cause, m.FailsAt full patch original name cause e := by
  unfold assignMember at h
  split at h
  · exact (Fails.pure_iff.1 h).elim
  · split at h
    · rename_i action haction
      rcases Fails.bind_iff.1 h with h | ⟨fields, t, -, h⟩
      · exact ⟨_, .override haction (Fails.ofExcept_iff.1 h)⟩
      · exact (Fails.record_iff.1 h.of_bind_pure).elim
    · rcases Fails.bind_iff.1 h with h | ⟨⟨pm, om⟩, t, hpair, h⟩
      · exact ⟨_, .of_memberPair (Fails.ofExcept_iff.1 h)⟩
      · obtain ⟨hpm, hom⟩ := memberPair_eq_ok.1 (Succeeds.ofExcept_iff.1 hpair).1
        dsimp only at h
        split at h
        · rename_i hkind
          exact FailsAt.of_assignLeaf hom hkind h
        · rename_i hkind
          exact FailsAt.of_unsetObject hom hkind h
        · obtain rfl := Fails.fail_iff.1 h
          exact ⟨_, .ordinary .typeMismatch⟩
        · obtain rfl := Fails.fail_iff.1 h
          exact ⟨_, .ordinary .typeMismatch⟩
        · rename_i hnone
          obtain rfl := Fails.fail_iff.1 h
          exact ⟨_, .table (.inl rfl) hpm fun hfits => hfits.read?_ne_none hnone⟩

theorem FailsAt.of_clearList {om : Member} (hom : m.member? original name = some om)
    (hkind : om.kind = .leaf) (h : Fails (m.clearList full node patch original om) s e) :
    ∃ cause, m.FailsAt full patch original name cause e := by
  unfold clearList at h
  rcases Fails.bind_iff.1 h with h | ⟨_, t, -, h⟩
  · obtain rfl := fails_validate h
    exact ⟨_, .ordinary .validationRejected⟩
  · split at h
    · split at h
      · exact (Fails.record_iff.1 h.of_bind_pure).elim
      · obtain rfl := Fails.fail_iff.1 h
        exact ⟨_, .ordinary .typeMismatch⟩
    · rename_i hne
      obtain rfl := Fails.fail_iff.1 h
      refine ⟨_, .table (.inr rfl) hom fun hfits => ?_⟩
      obtain ⟨i, type, old, htarget⟩ := hfits.exists_leaf hkind
      exact hne i type old htarget

/-- An entry of a dictionary of leaves has ordinary errors only. -/
theorem isAt_of_assignEntry {patchType type : LeafType}
    {patchEntries entries : List (String × Cell)} {key : String}
    (h : Fails (m.assignEntry full patchType patchEntries type entries key) s e) :
    e.IsAt full := by
  unfold assignEntry at h
  rcases Fails.bind_iff.1 h with h | ⟨source, t, -, h⟩
  · obtain ⟨-, rfl⟩ := Fails.require_iff.1 h
    exact .structuralMismatch
  · rcases Fails.bind_iff.1 h with h | ⟨value, u, -, h⟩
    · obtain ⟨fault, rfl⟩ := encode_mapError_error (Fails.ofExcept_iff.1 h)
      exact .serialization
    · rcases Fails.bind_iff.1 h with h | ⟨_, v, -, h⟩
      · obtain rfl := fails_validate h
        exact .validationRejected
      · split at h
        · exact (Fails.record_iff.1 h.of_bind_pure).elim
        · obtain rfl := Fails.fail_iff.1 h
          exact .coercion

end Merger

end SelectiveMerge
