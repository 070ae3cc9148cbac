import SelectiveMerge.Merge.Assignment

/-!
# Runs that succeed

A run is a chain of small steps, each of which passes the record on or fails.
`Run.Succeeds` says that a run ends well, with which result and which record. The
lemmas of this module reduce it, step by step: `bind_iff` takes a chain apart, the
others are about single steps. `quietly_iff` and `validate_iff` are the two places
where the record is more than handed on. `bind`, `of_record` and the like put steps
that succeed together again.
-/

namespace SelectiveMerge

namespace Session

@[simp] theorem requests_asking (s : Session) (r : Request) :
    (s.asking r).requests = s.requests ++ [r] := by
  simp [requests, asking]

@[simp] theorem requests_noting (s : Session) (c : Change) : (s.noting c).requests = s.requests :=
  rfl

/-- A request that was sent for a change is on record. -/
theorem mem_requests_noting (s : Session) (r : Request) (c : Change) :
    r ∈ ((s.asking r).noting c).requests := by
  simp

@[simp] theorem report_asking (s : Session) (r : Request) : (s.asking r).report = s.report := rfl

@[simp] theorem report_noting (s : Session) (c : Change) :
    (s.noting c).report = s.report.push c := rfl

end Session

namespace Run

variable {α β : Type} {e : MergeError} {s s' : Session}

/-- The run from the record `s` ends well, with the result `a` and the record `s'`. -/
def Succeeds (x : Run α) (s : Session) (a : α) (s' : Session) : Prop := x s = .ok a s'

namespace Succeeds

/-- A chain of two steps succeeds when both do, the second from where the first ended. -/
theorem bind_iff {x : Run α} {f : α → Run β} {b : β} :
    Succeeds (x >>= f) s b s' ↔ ∃ a t, Succeeds x s a t ∧ Succeeds (f a) t b s' := by
  show EStateM.bind x f s = _ ↔ ∃ a t, x s = .ok a t ∧ f a t = .ok b s'
  unfold EStateM.bind
  cases x s with
  | ok a t =>
    constructor
    · exact fun h => ⟨a, t, rfl, h⟩
    · rintro ⟨_, _, ⟨⟩, h⟩
      exact h
  | error e t => simp

theorem pure_iff {a b : α} : Succeeds (pure a) s b s' ↔ a = b ∧ s = s' := by
  show EStateM.Result.ok a s = _ ↔ _
  simp

theorem fail_iff {b : α} : Succeeds (fail e) s b s' ↔ False := by
  simp [Succeeds, fail]

theorem ofExcept_iff {x : Except MergeError α} {b : α} :
    Succeeds (ofExcept x) s b s' ↔ x = .ok b ∧ s = s' := by
  cases x <;> simp [ofExcept, pure_iff, fail_iff]

theorem require_iff {x : Option α} {b : α} :
    Succeeds (require e x) s b s' ↔ x = some b ∧ s = s' := by
  cases x <;> simp [require, pure_iff, fail_iff]

theorem record_iff {c : Change} {u : Unit} :
    Succeeds (record c) s u s' ↔ s.noting c = s' := by
  simp [Succeeds, record]

/-- A step that populates a new item counts it while it runs, and leaves no change. -/
theorem quietly_iff {x : Run α} {b : α} :
    Succeeds (quietly x) s b s' ↔
      ∃ t, Succeeds x { s with populating := s.populating + 1 } b t ∧
        { t with report := s.report, populating := s.populating } = s' := by
  unfold Succeeds quietly
  cases x { s with populating := s.populating + 1 } with
  | ok a t =>
    constructor
    · rintro ⟨⟩
      exact ⟨t, rfl, rfl⟩
    · rintro ⟨_, ⟨⟩, rfl⟩
      rfl
  | error e t => simp

/-! Steps that succeed, put together again. -/

variable {t : Session}

theorem bind {x : Run α} {f : α → Run β} {a : α} {b : β} (hx : Succeeds x s a t)
    (hf : Succeeds (f a) t b s') : Succeeds (x >>= f) s b s' :=
  bind_iff.2 ⟨a, t, hx, hf⟩

theorem of_pure {a : α} : Succeeds (pure a) s a s := pure_iff.2 ⟨rfl, rfl⟩

theorem of_ofExcept {x : Except MergeError α} {a : α} (h : x = .ok a) :
    Succeeds (ofExcept x) s a s :=
  ofExcept_iff.2 ⟨h, rfl⟩

theorem of_require {a : α} : Succeeds (require e (some a)) s a s := require_iff.2 ⟨rfl, rfl⟩

theorem of_record (c : Change) : Succeeds (record c) s () (s.noting c) := record_iff.2 rfl

/-- A step that succeeds hands over to what comes after it. -/
theorem bind_eq {x : Run α} {a : α} (h : Succeeds x s a t) (f : α → Run β) :
    (x >>= f) s = f a t := by
  show EStateM.bind x f s = f a t
  rw [EStateM.bind, h]

end Succeeds

/-- A step that fails is the end. -/
theorem bind_of_error {x : Run α} (h : x s = .error e s') (f : α → Run β) :
    (x >>= f) s = .error e s' := by
  show EStateM.bind x f s = .error e s'
  rw [EStateM.bind, h]

/-- A step that fails while it populates a new item leaves no change either. -/
theorem quietly_of_error {x : Run α}
    (h : x { s with populating := s.populating + 1 } = .error e s') :
    quietly x s = .error e { s' with report := s.report, populating := s.populating } := by
  rw [quietly, h]

end Run

namespace Merger

open Run (Succeeds)

variable {m : Merger} {s s' : Session}

/-- A request is granted when the validator approves it after those before it. -/
theorem validate_iff {r : Request} {u : Unit} :
    Succeeds (m.validate r) s u s' ↔
      m.validator.approves s.requests r = true ∧ s.asking r = s' := by
  unfold Succeeds validate
  split <;> simp_all

/-- Every request is granted where all are. -/
theorem succeeds_validate (hvalidator : m.validator = .approveAll) (s : Session) (r : Request) :
    Succeeds (m.validate r) s () (s.asking r) :=
  validate_iff.2 ⟨by rw [hvalidator]; rfl, rfl⟩

/-- Two objects have a pair of members with a name when each of them has one. -/
theorem memberPair_eq_ok {full : Path} {patch original : Node} {name : String} {pm om : Member} :
    m.memberPair full patch original name = .ok (pm, om) ↔
      m.member? patch name = some pm ∧ m.member? original name = some om := by
  unfold memberPair
  cases m.member? patch name with
  | none => simp
  | some a => cases m.member? original name <;> simp

/-- What making an object of a type from nothing gives: what the fields hold at first,
with a fresh identity if the type is to have one. -/
inductive Makes (m : Merger) (type : TypeName) (s : Session) : Fields → Session → Prop where
  | plain (hfresh : (m.catalogue type).needsFreshIdentity = false)
      (hconstructible : (m.catalogue type).constructible = true) :
      Makes m type s (m.catalogue type).initialFields s
  | fresh (hfresh : (m.catalogue type).needsFreshIdentity = true)
      (hconstructible : (m.catalogue type).constructible = true) :
      Makes m type s
        ((m.catalogue type).withIdentity (m.mint s.minted) (m.catalogue type).initialFields)
        { s with minted := s.minted + 1 }

theorem Makes.of_construct {type : TypeName} {path : Path} {fields : Fields}
    (h : Succeeds (m.construct type path) s fields s') : m.Makes type s fields s' := by
  unfold construct at h
  simp only [Succeeds.bind_iff, Succeeds.require_iff] at h
  obtain ⟨made, t, hmade, rfl, rfl⟩ := h
  unfold Succeeds construct? at hmade
  simp only at hmade
  split at hmade
  · simp at hmade
  · rename_i hconstructible
    split at hmade
    · rename_i hfresh
      obtain ⟨⟩ := hmade
      exact .fresh hfresh (by simpa using hconstructible)
    · rename_i hfresh
      obtain ⟨⟩ := hmade
      exact .plain (by simpa using hfresh) (by simpa using hconstructible)

/-- An object that was found, or else one that is made from nothing. -/
inductive Ensures (m : Merger) (type : TypeName) (s : Session) :
    Option Fields → Fields → Session → Prop where
  | found {fields : Fields} : Ensures m type s (some fields) fields s
  | made {fields : Fields} {t : Session} (hmade : m.Makes type s fields t) :
      Ensures m type s none fields t

theorem Ensures.of_ensure {type : TypeName} {path : Path} {found : Option Fields}
    {fields : Fields} (h : Succeeds (m.ensure type path found) s fields s') :
    m.Ensures type s found fields s' := by
  cases found with
  | some present =>
    obtain ⟨rfl, rfl⟩ := Succeeds.pure_iff.1 h
    exact .found
  | none => exact .made (.of_construct h)

end Merger

end SelectiveMerge
