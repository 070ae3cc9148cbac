import SelectiveMerge.Proofs.Blocked

/-!
# The causes of errors

A merge that fails does so at one of the turns that it comes to: the navigation of the turn
is stuck, or what is done at the owners of its member fails, or an element of its array does.
For each of these there is a relation between the cause and the error.

* `Merger.ElementFails` — how an element fails, apart from the walk over it
* `Turn.Fails` — how a turn fails, apart from the walks that it enters
* `Merger.exists_fails` — a walk that fails comes to a turn that does
-/

namespace SelectiveMerge

open Run (Succeeds)

namespace Merger

variable {m : Merger} {s t : Session} {e : MergeError} {patch original : Node}

/-! ## Elements -/

/-- How an element that is an object with these members fails, apart from the walk over it. -/
inductive ElementFails (m : Merger) (r : Reconciliation) (position : Nat)
    (members : List (String × Json)) (state : Reconciled) : Cause → MergeError → Prop where
  | override {make : ItemFactory} {patchItem : Node} {e : MergeError}
      (hpatch : Collection.item? r.patchType r.patchItems position = some patchItem)
      (hmake : m.configuration.itemFactory? r.full = some make)
      (hrun : make patchItem = .error e) : ElementFails m r position members state .override e
  | foreignItem {make : ItemFactory} {patchItem item : Node} {message : String}
      (hpatch : Collection.item? r.patchType r.patchItems position = some patchItem)
      (hmake : m.configuration.itemFactory? r.full = some make)
      (hrun : make patchItem = .ok item) (htype : item.type ≠ r.type) :
      ElementFails m r position members state .foreignItem (.configuration r.full message)
  /-- No item has the identity that is to be updated or removed. -/
  | unknown {id : Uuid} {hint : String}
      (hintent : Intent.ofMembers m.options r.full members = .ok (.update id) ∨
        Intent.ofMembers m.options r.full members = .ok (.remove id))
      (hnone : m.catalogue.position? r.type state.items id = none) :
      ElementFails m r position members state .identity (.unknownIdentity r.full id hint)
  /-- No item of the patch has the identity that is to be updated. -/
  | unpatched {id : Uuid} {hint : String}
      (hintent : Intent.ofMembers m.options r.full members = .ok (.update id))
      (hnone : m.catalogue.itemWithId? r.patchType r.patchItems id = none) :
      ElementFails m r position members state .identity (.unknownIdentity r.full id hint)
  | lostItem {id : Uuid} {index : Nat} {hint : String}
      (hindex : m.catalogue.position? r.type state.items id = some index)
      (hnone : state.items[index]? = none) :
      ElementFails m r position members state .lostItem (.unknownIdentity r.full id hint)
  | ordinary {e : MergeError} (hat : e.IsAt r.full) :
      ElementFails m r position members state .ordinary e

variable {r : Reconciliation} {position : Nat} {members : List (String × Json)}
  {directives : List Directive} {state : Reconciled} {id : Uuid}

/-- Where an item was found there is one. -/
theorem getElem?_ne_none_of_position? {type : TypeName} {items : List Fields} {index : Nat}
    (h : m.catalogue.position? type items id = some index) : items[index]? ≠ none := by
  obtain ⟨hlt, -⟩ := List.findIdx?_eq_some_iff_getElem.1 h
  simp [hlt]

theorem ElementFails.of_intent
    (h : Intent.ofMembers m.options r.full members = .error e) :
    m.ElementFails r position members state .ordinary e := by
  unfold Intent.ofMembers at h
  dsimp only at h
  split at h
  · cases h
  · cases h
  · rename_i text _
    split at h
    · cases h
    · cases hid : Uuid.ofText? (Text.trim text) with
      | some id =>
        rw [hid] at h
        cases h
      | none =>
        rw [hid] at h
        obtain rfl := Except.error.inj h
        exact .ordinary .invalidIdentity
  · obtain rfl := Except.error.inj h
    exact .ordinary .invalidIdentity

theorem ElementFails.of_removeItem {value : Json}
    (hintent : Intent.ofMembers m.options r.full members = .ok (.remove id))
    (h : Run.Fails (m.removeItem r value id state) s e) :
    ∃ cause, m.ElementFails r position members state cause e := by
  unfold removeItem removeAt at h
  rcases Run.Fails.bind_iff.1 h with h | ⟨index, t, -, h⟩
  · obtain ⟨hnone, rfl⟩ := Run.Fails.require_iff.1 h
    exact ⟨_, .unknown (.inr hintent) hnone⟩
  · rcases Run.Fails.bind_iff.1 h.of_bind_pure with h | ⟨_, u, -, h⟩
    · obtain rfl := fails_validate h
      exact ⟨_, .ordinary .validationRejected⟩
    · exact (Run.Fails.record_iff.1 h.of_bind_pure).elim

theorem ElementFails.of_itemPair
    (hintent : Intent.ofMembers m.options r.full members = .ok (.update id))
    (h : Run.Fails (m.itemPair r id state) s e) :
    ∃ cause, m.ElementFails r position members state cause e := by
  unfold itemPair at h
  rcases Run.Fails.bind_iff.1 h with h | ⟨index, t, hindex, h⟩
  · obtain ⟨hnone, rfl⟩ := Run.Fails.require_iff.1 h
    exact ⟨_, .unknown (.inl hintent) hnone⟩
  · rcases Run.Fails.bind_iff.1 h with h | ⟨patchItem, u, -, h⟩
    · obtain ⟨hnone, rfl⟩ := Run.Fails.require_iff.1 h
      exact ⟨_, .unpatched hintent hnone⟩
    · obtain ⟨hnone, rfl⟩ := Run.Fails.require_iff.1 h.of_bind_pure
      exact ⟨_, .lostItem (Succeeds.require_iff.1 hindex).1 hnone⟩

theorem ElementFails.of_freshItem {patchItem : Node}
    (hpatch : Collection.item? r.patchType r.patchItems position = some patchItem)
    (h : Run.Fails (m.freshItem r patchItem) s e) :
    ∃ cause, m.ElementFails r position members state cause e := by
  unfold freshItem at h
  split at h
  · rename_i make hmake
    exact ⟨_, .override hpatch hmake (Run.Fails.ofExcept_iff.1 h)⟩
  · obtain ⟨-, rfl⟩ := fails_construct h.of_bind_pure
    exact ⟨_, .ordinary .uninitializable⟩

/-- An item that is not taken is of another type, so a factory made it. -/
theorem ElementFails.of_pushItem {patchItem fresh : Node} {value : Json} {fields : Fields}
    (hpatch : Collection.item? r.patchType r.patchItems position = some patchItem)
    (hfresh : m.MakesItem r patchItem s fresh t) {u : Session}
    (h : Run.Fails (m.pushItem r value patchItem ⟨fresh.type, fields⟩ state) u e) :
    ∃ cause, m.ElementFails r position members state cause e := by
  unfold pushItem at h
  rcases Run.Fails.bind_iff.1 h with h | ⟨_, v, -, h⟩
  · obtain rfl := fails_validate h
    exact ⟨_, .ordinary .validationRejected⟩
  · split at h
    · exact (Run.Fails.record_iff.1 h.of_bind_pure).elim
    · rename_i found hpush
      obtain rfl := Run.Fails.fail_iff.1 h
      have htype : fresh.type ≠ r.type := by
        intro htype
        unfold Collection.push at hpush
        rw [if_pos htype] at hpush
        cases hpush
      cases hfresh with
      | factory hmake hrun => exact ⟨_, .foreignItem hpatch hmake hrun htype⟩
      | construct => exact absurd rfl htype

/-- An element that fails does so by itself, or the walk over it fails. -/
theorem fails_runElement
    (h : Run.Fails (m.runElement r position (.mk (.object members) directives) state) s e) :
    (∃ cause, m.ElementFails r position members state cause e) ∨
    (∃ id index item patchItem, Intent.ofMembers m.options r.full members = .ok (.update id) ∧
      m.catalogue.position? r.type state.items id = some index ∧
      state.items[index]? = some item ∧
      m.catalogue.itemWithId? r.patchType r.patchItems id = some patchItem ∧
      Run.Fails (m.runDirectives r.full.segments patchItem r.type directives item) s e) ∨
    ∃ patchItem fresh t, Intent.ofMembers m.options r.full members = .ok .add ∧
      Collection.item? r.patchType r.patchItems position = some patchItem ∧
      m.MakesItem r patchItem s fresh t ∧
      Run.Fails (m.runDirectives r.full.segments patchItem fresh.type directives fresh.fields)
        { t with populating := t.populating + 1 } e := by
  unfold runElement at h
  rcases Run.Fails.bind_iff.1 h with h | ⟨intent, t, hok, h⟩
  · exact .inl ⟨_, .of_intent (Run.Fails.ofExcept_iff.1 h)⟩
  · obtain ⟨hintent, rfl⟩ := Succeeds.ofExcept_iff.1 hok
    cases intent with
    | remove id => exact .inl (ElementFails.of_removeItem hintent h)
    | update id =>
      rcases Run.Fails.bind_iff.1 h with h | ⟨⟨index, item, patchItem⟩, t, hpair, h⟩
      · exact .inl (ElementFails.of_itemPair hintent h)
      · simp only [itemPair, Succeeds.bind_iff, Succeeds.require_iff, Succeeds.pure_iff] at hpair
        obtain ⟨_, _, ⟨hindex, rfl⟩, _, _, ⟨hpatch, rfl⟩, _, _, ⟨hitem, rfl⟩, heq, rfl⟩ := hpair
        obtain ⟨rfl, rfl, rfl⟩ : _ = index ∧ _ = item ∧ _ = patchItem := by
          simpa using heq
        exact .inr (.inl ⟨id, _, _, _, hintent, hindex, hitem, hpatch, h.of_bind_pure⟩)
    | add =>
      rcases Run.Fails.bind_iff.1 h with h | ⟨patchItem, t, hitem, h⟩
      · obtain ⟨-, rfl⟩ := Run.Fails.require_iff.1 h
        exact .inl ⟨_, .ordinary .structuralMismatch⟩
      · obtain ⟨hpatch, rfl⟩ := Succeeds.require_iff.1 hitem
        rcases Run.Fails.bind_iff.1 h with h | ⟨fresh, t, hfresh, h⟩
        · exact .inl (ElementFails.of_freshItem hpatch h)
        · have hmade := MakesItem.of_freshItem hfresh
          rcases Run.Fails.bind_iff.1 h with h | ⟨fields, u, -, h⟩
          · exact .inr (.inr ⟨patchItem, fresh, t, hintent, hpatch, hmade,
              Run.Fails.quietly_iff.1 h⟩)
          · exact .inl (ElementFails.of_pushItem hpatch hmade h)

/-- A list of elements fails at one of them, before which all have succeeded. -/
theorem fails_runElements {elements : List Element}
    (hobjects : ∀ e ∈ elements, e.value.isObject = true)
    (h : Run.Fails (m.runElements r position elements state) s e) :
    ∃ k members directives state' t,
      m.ElementsRun r position (elements.take k) state s state' t ∧
      elements[k]? = some (.mk (.object members) directives) ∧
      Run.Fails (m.runElement r (position + k) (.mk (.object members) directives) state') t e := by
  induction elements generalizing position state s with
  | nil =>
    rw [runElements] at h
    exact (Run.Fails.pure_iff.1 h).elim
  | cons element elements ih =>
    obtain ⟨value, directives⟩ := element
    obtain ⟨members, rfl⟩ := Json.exists_of_isObject (hobjects _ (List.mem_cons_self ..))
    rw [runElements] at h
    rcases Run.Fails.bind_iff.1 h with h | ⟨mid, t, hstep, h⟩
    · exact ⟨0, members, directives, state, s, .nil, rfl, h⟩
    · have hrest : ∀ e ∈ elements, e.value.isObject = true :=
        fun e he => hobjects e (List.mem_cons_of_mem _ he)
      obtain ⟨k, members', directives', state', u, hrun, helement, hfails⟩ := ih hrest h
      refine ⟨k + 1, members', directives', state', u, ?_, by simpa using helement, ?_⟩
      · rw [List.take_succ_cons]
        exact .cons (.of_runElement hstep) hrun
      · rwa [Nat.add_right_comm, Nat.add_assoc] at hfails

/-! ## Arrays -/

variable {full : Path} {node : Json} {name : String} {pm om : Member} {elements : List Element}

theorem FailsAt.of_patchCollection (hpm : m.member? patch name = some pm)
    (h : Run.Fails (m.patchCollection full patch pm) s e) :
    ∃ cause, m.FailsAt full patch original name cause e := by
  unfold patchCollection at h
  split at h
  · exact (Run.Fails.pure_iff.1 h).elim
  · obtain rfl := Run.Fails.fail_iff.1 h
    exact ⟨_, .ordinary .typeMismatch⟩
  · rename_i hnone
    obtain rfl := Run.Fails.fail_iff.1 h
    exact ⟨_, .table (.inl rfl) hpm fun hfits => hfits.read?_ne_none hnone⟩

theorem FailsAt.of_itemsIdentified (hom : m.member? original name = some om)
    (hkind : om.kind = .collection) (h : Run.Fails (m.itemsIdentified full original om) s e) :
    ∃ cause, m.FailsAt full patch original name cause e := by
  unfold itemsIdentified at h
  split at h
  · exact (Run.Fails.pure_iff.1 h).elim
  · rename_i hne
    obtain rfl := Run.Fails.fail_iff.1 h
    refine ⟨_, .table (.inr rfl) hom fun hfits => ?_⟩
    obtain ⟨type, items, hread⟩ := hfits.shows_collection hkind
    exact hne type items hread

theorem FailsAt.of_askToClear {clears : Bool}
    (h : Run.Fails (m.askToClear full node patch original om clears) s e) :
    m.FailsAt full patch original name .ordinary e := by
  cases clears with
  | false => exact (Run.Fails.pure_iff.1 h).elim
  | true =>
    obtain rfl := fails_validate h
    exact .ordinary .validationRejected

theorem not_fails_clearItems {clears : Bool} {items : List Fields} :
    ¬ Run.Fails (clearItems full clears items) s e := by
  intro h
  unfold clearItems at h
  split at h
  · split at h
    · exact Run.Fails.pure_iff.1 h
    · exact Run.Fails.record_iff.1 h.of_bind_pure
  · exact Run.Fails.pure_iff.1 h

theorem isAt_of_dropUnmentioned {mentioned : List Uuid} {items : List Fields}
    (h : Run.Fails (m.dropUnmentioned r mentioned items) s e) : e.IsAt r.full := by
  induction items generalizing s with
  | nil => exact (Run.Fails.pure_iff.1 h).elim
  | cons item items ih =>
    unfold dropUnmentioned at h
    split at h
    · split at h
      · exact ih h.of_bind_pure
      · rcases Run.Fails.bind_iff.1 h with h | ⟨_, t, -, h⟩
        · obtain rfl := fails_validate h
          exact .validationRejected
        · rcases Run.Fails.bind_iff.1 h with h | ⟨_, u, -, h⟩
          · exact (Run.Fails.record_iff.1 h).elim
          · exact ih h
    · exact ih h.of_bind_pure

theorem isAt_of_keepMentioned {drops : Bool} (h : Run.Fails (m.keepMentioned r drops state) s e) :
    e.IsAt r.full := by
  cases drops with
  | false => exact (Run.Fails.pure_iff.1 h).elim
  | true => exact isAt_of_dropUnmentioned h

/-- The elements of an array are run on a collection, which has been cleared if need be, and fail
there. -/
inductive ElementsFail (m : Merger) (full : Path) (node : Json) (elements : List Element)
    (patch original : Node) (pm om : Member) (s : Session) (e : MergeError) : Prop where
  | intro {patchType type readType : TypeName} {patchItems items readItems found : List Fields}
      {i : Nat} {t : Session} (hobjects : ∀ e ∈ elements, e.value.isObject = true)
      (hpatch : patch.read? pm = some (.collection patchType patchItems))
      (hread : original.read? om = some (.collection readType readItems))
      (htarget : original.target? om = some (i, .collection type items))
      (hclears : m.Clears full node patch original om (!(m.catalogue readType).identified &&
        (elements.isEmpty || m.configuration.forcesReplace full)) items s found t)
      (hfails : Run.Fails (m.runElements ⟨full, om.name, patchType, patchItems, type⟩ 0 elements
        ⟨found, []⟩) t e)

/-- A collection that is reconciled fails by itself, or one of its elements does. -/
theorem fails_reconcile (hpm : m.member? patch name = some pm)
    (hom : m.member? original name = some om) (hkind : om.kind = .collection)
    (h : Run.Fails (m.reconcile full node elements
      (fun r state => m.runElements r 0 elements state) patch original pm om) s e) :
    (∃ cause, m.FailsAt full patch original name cause e) ∨
      m.ElementsFail full node elements patch original pm om s e := by
  unfold reconcile at h
  split at h
  · obtain rfl := Run.Fails.fail_iff.1 h
    exact .inl ⟨_, .ordinary .typeMismatch⟩
  · rename_i hstray
    have hobjects : ∀ e ∈ elements, e.value.isObject = true := by
      simpa using hstray
    rcases Run.Fails.bind_iff.1 h with h | ⟨⟨patchType, patchItems⟩, t, hshows, h⟩
    · exact .inl (FailsAt.of_patchCollection hpm h)
    · obtain ⟨hpatch, rfl⟩ := patchCollection_iff.1 hshows
      rcases Run.Fails.bind_iff.1 h with h | ⟨identified, t, hasks, h⟩
      · exact .inl (FailsAt.of_itemsIdentified hom hkind h)
      · obtain ⟨readType, readItems, hread, rfl, rfl⟩ := itemsIdentified_iff.1 hasks
        rcases Run.Fails.bind_iff.1 h with h | ⟨_, t, hask, h⟩
        · exact .inl ⟨_, FailsAt.of_askToClear h⟩
        · split at h
          · rename_i i type items htarget
            split at h
            · exact (Run.Fails.pure_iff.1 h).elim
            · rcases Run.Fails.bind_iff.1 h with h | ⟨found, u, hclear, h⟩
              · exact (not_fails_clearItems h).elim
              · rcases Run.Fails.bind_iff.1 h with h | ⟨state, v, -, h⟩
                · exact .inr (.intro hobjects hpatch hread htarget
                    (.of_clearItems hask hclear) h)
                · exact .inl ⟨_, .ordinary (isAt_of_keepMentioned h.of_bind_pure)⟩
          · rename_i hne
            obtain rfl := Run.Fails.fail_iff.1 h
            refine .inl ⟨_, .table (.inr rfl) hom fun hfits => ?_⟩
            obtain ⟨i, type, items, htarget⟩ := hfits.exists_collection hkind
            exact hne i type items htarget

/-- An array at a member fails as what is done at its owners, or as its elements. -/
theorem fails_arrayMember
    (h : Run.Fails (m.arrayMember full node elements
      (fun r state => m.runElements r 0 elements state) patch original name) s e) :
    (∃ cause, m.FailsAt full patch original name cause e) ∨
      ∃ pm om, isIdentityKey name = false ∧ m.member? patch name = some pm ∧
        m.member? original name = some om ∧ om.kind = .collection ∧
        m.ElementsFail full node elements patch original pm om s e := by
  unfold arrayMember at h
  split at h
  · exact (Run.Fails.pure_iff.1 h).elim
  · rename_i hid
    rcases Run.Fails.bind_iff.1 h with h | ⟨⟨pm, om⟩, t, hpair, h⟩
    · exact .inl ⟨_, .of_memberPair (Run.Fails.ofExcept_iff.1 h)⟩
    · obtain ⟨⟨hpm, hom⟩, rfl⟩ := (Succeeds.ofExcept_iff.1 hpair).imp_left memberPair_eq_ok.1
      dsimp only at h
      split at h
      · rename_i hclear
        exact .inl (FailsAt.of_clearList hom hclear.1 h)
      · split at h
        · exact .inl (FailsAt.of_assignMember h)
        · rename_i hkind
          have hkind : om.kind = .collection := by simpa using hkind
          rcases fails_reconcile hpm hom hkind h with hfails | hfails
          · exact .inl hfails
          · exact .inr ⟨pm, om, by simpa using hid, hpm, hom, hkind, hfails⟩

end Merger

/-! ## Turns -/

/-- How a turn fails, apart from the walks that it enters. -/
inductive Turn.Fails (m : Merger) (turn : Turn) : Cause → MergeError → Prop where
  | emptyPath (hpath : turn.directive.path = []) :
      Fails m turn .emptyPath (.malformedInput "path" "empty member path")
  /-- The navigation is stuck in front of a member. -/
  | blocked {index : Nat} {p o : Node} {s : Session} {name key : String} {rest : List String}
      {cause : Cause} {e : MergeError}
      (hproceeds : m.Proceeds turn.directive.path turn.patch turn.original turn.session index p o s)
      (hrest : turn.directive.path.drop index = name :: key :: rest)
      (hstuck : m.Stuck p o s (turn.directive.path.drop index))
      (hblocks : m.Blocks turn.full
        ⟨turn.base ++ turn.directive.path.take (index + m.span p o name)⟩ p o name cause e) :
      Fails m turn cause e
  /-- An entry of a dictionary of leaves is not assigned. -/
  | entry {index : Nat} {p o : Node} {s : Session} {name key : String} {e : MergeError}
      (hproceeds : m.Proceeds turn.directive.path turn.patch turn.original turn.session index p o s)
      (hlast : turn.directive.path.drop index = [name, key]) (hspan : m.span p o name = 2)
      (hat : e.IsAt turn.full) : Fails m turn .ordinary e
  /-- What is done at the owners of the member fails. -/
  | member {index : Nat} {p o : Node} {s : Session} {name : String} {cause : Cause}
      {e : MergeError}
      (hproceeds : m.Proceeds turn.directive.path turn.patch turn.original turn.session index p o s)
      (hlast : turn.directive.path.drop index = [name])
      (hfails : m.FailsAt turn.full p o name cause e) : Fails m turn cause e
  /-- An element fails by itself. -/
  | element {r : Reconciliation} {position : Nat} {members : List (String × Json)}
      {directives : List Directive} {state : Reconciled} {s : Session} {cause : Cause}
      {e : MergeError} (hat : turn.AtElement m r position members directives state s)
      (hfails : m.ElementFails r position members state cause e) : Fails m turn cause e

/-- The walk fails. -/
def Outset.Fails (w : Outset) (m : Merger) (e : MergeError) : Prop :=
  Run.Fails (m.runDirectives w.base w.patch w.original.type w.directives w.original.fields)
    w.session e

namespace Turn

variable {m : Merger} {turn : Turn} {e : MergeError}

/-- An array fails with its turn, or with a walk that the turn enters. -/
theorem fails_of_elements {path : List String} {elements : List Element} {index : Nat}
    {p o : Node} {s : Session} {name : String} {pm om : Member}
    (hdirective : turn.directive = .array path elements)
    (hproceeds : m.Proceeds path turn.patch turn.original turn.session index p o s)
    (hlast : path.drop index = [name]) (hid : isIdentityKey name = false)
    (hpm : m.member? p name = some pm) (hom : m.member? o name = some om)
    (hkind : om.kind = .collection)
    (h : m.ElementsFail turn.full (.array (elements.map Element.value)) elements p o pm om s e) :
    (∃ cause, turn.Fails m cause e) ∨ ∃ w, turn.Enters m w ∧ w.Fails m e := by
  obtain ⟨hobjects, hpatch, hread, htarget, hclears, hfails⟩ := h
  obtain ⟨k, members, directives, state, t, hearlier, helement, hfails⟩ :=
    Merger.fails_runElements hobjects hfails
  have hat := AtElement.intro hdirective hproceeds hlast hid hpm hom hkind hpatch hread htarget
    hclears hearlier helement
  rw [Nat.zero_add] at hfails
  rcases Merger.fails_runElement hfails with ⟨cause, hfails⟩ |
    ⟨id, index, item, patchItem, hintent, hindex, hitem, hfind, hfails⟩ |
    ⟨patchItem, fresh, u, hintent, hfind, hfresh, hfails⟩
  · exact .inl ⟨cause, .element hat hfails⟩
  · exact .inr ⟨_, .update hat hintent hindex hitem hfind, hfails⟩
  · exact .inr ⟨_, .add hat hintent hfind hfresh, hfails⟩

/-- A directive that fails does so at its turn, or in a walk that the turn enters. -/
theorem fails_or_enters
    (h : Run.Fails (m.runDirective turn.base turn.patch turn.original turn.directive)
      turn.session e) :
    (∃ cause, turn.Fails m cause e) ∨ ∃ w, turn.Enters m w ∧ w.Fails m e := by
  cases hdirective : turn.directive with
  | scalar path value =>
    have hpath : turn.directive.path = path := by rw [hdirective, Directive.path]
    rw [hdirective, Merger.runDirective] at h
    split at h
    · exact (Run.Fails.pure_iff.1 h).elim
    · rcases Merger.fails_visit h with ⟨rfl, rfl⟩ | ⟨index, p, o, t, hproceeds, hhalts⟩
      · exact .inl ⟨_, .emptyPath hpath⟩
      · rw [← hpath] at hproceeds hhalts
        cases hhalts with
        | member hlast hfails =>
          obtain ⟨cause, hfails⟩ := Merger.FailsAt.of_assignMember hfails
          exact .inl ⟨cause, .member hproceeds hlast hfails⟩
        | entry hlast hspan hat => exact .inl ⟨_, .entry hproceeds hlast hspan hat⟩
        | blocked hrest hstuck hblocks => exact .inl ⟨_, .blocked hproceeds hrest hstuck hblocks⟩
  | array path elements =>
    have hpath : turn.directive.path = path := by rw [hdirective, Directive.path]
    have hfull : turn.full = ⟨turn.base ++ path⟩ := by rw [full, hpath]
    rw [hdirective, Merger.runDirective] at h
    rcases Merger.fails_visit h with ⟨rfl, rfl⟩ | ⟨index, p, o, t, hproceeds, hhalts⟩
    · exact .inl ⟨_, .emptyPath hpath⟩
    · cases hhalts with
      | member hlast hfails =>
        rw [← hfull] at hfails
        rcases Merger.fails_arrayMember hfails with
          ⟨cause, hfails⟩ | ⟨pm, om, hid, hpm, hom, hkind, hfails⟩
        · rw [← hpath] at hproceeds hlast
          exact .inl ⟨cause, .member hproceeds hlast hfails⟩
        · exact fails_of_elements hdirective hproceeds hlast hid hpm hom hkind hfails
      | entry hlast hspan hat =>
        rw [← hpath] at hproceeds hlast hat
        exact .inl ⟨_, .entry hproceeds hlast hspan hat⟩
      | blocked hrest hstuck hblocks =>
        rw [← hpath] at hproceeds hrest hstuck hblocks
        exact .inl ⟨_, .blocked hproceeds hrest hstuck hblocks⟩

end Turn

namespace Merger

variable {m : Merger} {e : MergeError}

/-- A walk that fails comes to a turn that fails. -/
theorem exists_fails (directives : List Directive) :
    ∀ {base : List String} {patch original : Node} {s : Session},
      Outset.Fails ⟨base, patch, original, directives, s⟩ m e →
      ∃ turn cause, m.ComesTo ⟨base, patch, original, directives, s⟩ turn ∧
        turn.Fails m cause e := by
  induction directives using Directive.forall_of_elements with
  | nil =>
    intro base patch original s h
    rw [Outset.Fails, runDirectives] at h
    exact (Run.Fails.pure_iff.1 h).elim
  | cons directive directives hdirective ih =>
    intro base patch original s h
    rw [Outset.Fails, runDirectives] at h
    rcases Run.Fails.bind_iff.1 h with h | ⟨mid, t, hhead, h⟩
    · have hturn : Outset.HasTurn ⟨base, patch, original, directive :: directives, s⟩ m
          ⟨base, patch, original, directive, s⟩ := hasTurn_head
      rcases @Turn.fails_or_enters _ ⟨base, patch, original, directive, s⟩ _ h with
        ⟨cause, hfails⟩ | ⟨w, henters, hfails⟩
      · exact ⟨_, cause, .own hturn, hfails⟩
      · obtain ⟨-, position, members, helement⟩ := henters.exists_element
        obtain ⟨turn, cause, hcomes, hfails⟩ :=
          hdirective _ (List.mem_of_getElem? helement) hfails
        exact ⟨turn, cause, .inner hturn henters hcomes, hfails⟩
    · have hrest : Outset.Fails ⟨base, patch, ⟨original.type, mid⟩, directives, t⟩ m e := h
      obtain ⟨turn, cause, hcomes, hfails⟩ := ih hrest
      exact ⟨turn, cause, hcomes.tail hhead, hfails⟩

/-- A merge that fails with an error of one of its steps comes to a turn that fails with it. -/
theorem exists_fails_of_merge {patch original : Node} {payload : Json}
    {minted : Nat}
    (h : (m.merge patch original payload minted).result = .error e) :
    (payload.isObject = false ∧ ∃ message, e = Payload.malformed message) ∨
      ∃ turn cause, m.ComesTo (m.outset patch original payload minted) turn ∧
        turn.Fails m cause e := by
  cases payload with
  | object members =>
    unfold merge at h
    simp only [Payload.members?] at h
    cases hrun : m.applyMembers patch original members (Session.start minted) with
    | ok fields s =>
      rw [hrun] at h
      cases h
    | error e' s =>
      rw [hrun] at h
      obtain rfl := Except.error.inj h
      exact .inr (exists_fails _ ⟨s, hrun⟩)
  | _ => exact .inl ⟨rfl, _, (Except.error.inj h).symm⟩

end Merger

end SelectiveMerge
