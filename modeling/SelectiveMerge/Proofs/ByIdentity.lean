import Mathlib.Data.List.Nodup
import SelectiveMerge.Proofs.Fates

/-!
# Reconciliation by identity

Where the items of a collection have identities, all different and in a member called `id`,
an array neither loses, duplicates nor reorders items. The items that it removes are gone,
the others are still there in their old order, and the new ones come after them in the order
of the array. How many items have an identity that the array names follows from the elements
alone, since updates keep identities and new items have fresh ones.

* `Intent.LacksIdentity`, `Intent.Names` — which identity an element has
* `Merger.Fresh` — new items have none of some identities
* `ElementsRun.having_items`, `ElementsRun.length_items` — how many items there are in the end
* `ByIdentity` — what is left of a collection, and what is recorded
* `reconciles_by_identity` — one array of a payload
-/

namespace SelectiveMerge

/-! ## Identities of elements -/

namespace Intent

variable {options : Options} {item : Json} {items : List Json} {id : Uuid}
  {members : List (String × Json)}

/-- The value of an element at its first identity key. -/
def identityValue? (members : List (String × Json)) : Option Json :=
  (members.find? fun member => isIdentityKey member.1).map (·.2)

/-- An element has no identity: there is none, or it is null, blank or nil. -/
def LacksIdentity (members : List (String × Json)) : Prop :=
  ∀ value, identityValue? members = some value → value = .null ∨
    ∃ text, value = .string text ∧
      (Text.isBlankText text = true ∨ Uuid.ofText? (Text.trim text) = some Uuid.nil)

/-- An element has an identity, which is not nil. -/
def Names (members : List (String × Json)) (id : Uuid) : Prop :=
  id ≠ Uuid.nil ∧ ∃ text, identityValue? members = some (.string text) ∧
    Uuid.ofText? (Text.trim text) = some id

/-- An element with an identity asks for an update or a removal, unless it is nil. -/
theorem ofIdentity_cases (options : Options) (members : List (String × Json)) (id : Uuid) :
    (id = Uuid.nil ∧ ofIdentity options members id = .add) ∨
      (id ≠ Uuid.nil ∧ (ofIdentity options members id = .update id ∨
        ofIdentity options members id = .remove id)) := by
  unfold ofIdentity
  by_cases hnil : id = Uuid.nil
  · exact .inl ⟨hnil, if_pos (by rw [hnil]; rfl)⟩
  · rw [if_neg (by simpa [Uuid.isNil] using hnil)]
    refine .inr ⟨hnil, ?_⟩
    split
    · exact .inr rfl
    · exact .inl rfl

/-- An element asks for a new item when it lacks an identity, and else for an update or a
removal of the item that has it. -/
theorem ofMembers_cases {full : Path} {intent : Intent}
    (h : ofMembers options full members = .ok intent) :
    (intent = .add ∧ LacksIdentity members) ∨
      ∃ id, Names members id ∧ (intent = .update id ∨ intent = .remove id) := by
  have hvalue : (members.find? fun member => isIdentityKey member.1).map (·.2) =
      identityValue? members := rfl
  unfold ofMembers at h
  dsimp only at h
  rw [hvalue] at h
  split at h
  · rename_i hnone
    refine .inl ⟨(Except.ok.inj h).symm, fun value hsome => ?_⟩
    rw [hnone] at hsome
    cases hsome
  · rename_i hnull
    refine .inl ⟨(Except.ok.inj h).symm, fun value hsome => .inl ?_⟩
    exact (Option.some_inj.1 (hnull.symm.trans hsome)).symm
  · rename_i text htext
    have heq : ∀ value, identityValue? members = some value → value = .string text :=
      fun value hsome => (Option.some_inj.1 (htext.symm.trans hsome)).symm
    by_cases hblank : Text.isBlankText text = true
    · rw [if_pos hblank] at h
      exact .inl ⟨(Except.ok.inj h).symm, fun value hsome =>
        .inr ⟨text, heq value hsome, .inl hblank⟩⟩
    · rw [if_neg hblank] at h
      cases hid : Uuid.ofText? (Text.trim text) with
      | none =>
        rw [hid] at h
        cases h
      | some id =>
        rw [hid] at h
        obtain rfl := Except.ok.inj h
        rcases ofIdentity_cases options members id with ⟨rfl, hadd⟩ | ⟨hnil, hasks⟩
        · exact .inl ⟨hadd, fun value hsome => .inr ⟨text, heq value hsome, .inr hid⟩⟩
        · exact .inr ⟨id, ⟨hnil, text, htext, hid⟩, hasks⟩
  · cases h

/-- The identities that the elements of an array name. -/
def named (options : Options) (items : List Json) : Set Uuid :=
  {id | id ∈ updates options items ∨ id ∈ removals options items}

/-- None of them is nil. -/
theorem ne_nil_of_mem_named (h : id ∈ named options items) : id ≠ Uuid.nil := by
  obtain ⟨item, intent, hintent, hasks⟩ : ∃ (item : Json) (intent : Intent),
      item.intent? options = some intent ∧ (intent = .update id ∨ intent = .remove id) := by
    rcases h with h | h
    · obtain ⟨item, -, hasks⟩ := mem_updates.1 h
      exact ⟨item, _, hasks, .inl rfl⟩
    · obtain ⟨item, -, hasks⟩ := mem_removals.1 h
      exact ⟨item, _, hasks, .inr rfl⟩
  obtain ⟨members, -, hok⟩ := intent?_eq_some_iff.1 hintent
  rcases ofMembers_cases hok with ⟨rfl, -⟩ | ⟨other, ⟨hnil, -⟩, hother⟩
  · rcases hasks with ⟨⟨⟩⟩ | ⟨⟨⟩⟩
  · rcases hasks with rfl | rfl <;> rcases hother with ⟨⟨⟩⟩ | ⟨⟨⟩⟩ <;> exact hnil

end Intent

namespace Merger

open Intent (additions updates removals named)

/-- Items that are made from nothing have none of some identities: neither is one of these
given out, nor have objects of the type one of them at first. -/
structure Fresh (m : Merger) (type : TypeName) (minted : Nat) (ids : Set Uuid) : Prop where
  mint : ∀ n, minted ≤ n → m.mint n ∉ ids
  initial : ∀ id ∈ ids, m.identity? type (m.catalogue type).initialFields ≠ some id

/-- The number of items that have an identity. -/
def having (m : Merger) (type : TypeName) (id : Uuid) (items : List Fields) : Nat :=
  (items.map (m.identity? type)).count (some id)

variable {m : Merger} {r : Reconciliation} {s s' : Session} {items : List Json}
  {state state' : Reconciled} {position minted : Nat} {type : TypeName} {ids : Set Uuid}
  {id : Uuid}

/-- It is enough that objects of the type have the nil identity at first, or none. -/
theorem Fresh.of_nil (hmint : ∀ n, minted ≤ n → m.mint n ∉ named m.options items)
    (hinitial : ∀ id, m.identity? type (m.catalogue type).initialFields = some id →
      id = Uuid.nil) : m.Fresh type minted (named m.options items) where
  mint := hmint
  initial := fun id hid heq => Intent.ne_nil_of_mem_named hid (hinitial id heq)

theorem Fresh.mono {minted' : Nat} (hle : minted ≤ minted') (h : m.Fresh type minted ids) :
    m.Fresh type minted' ids where
  mint := fun n hn => h.mint n (hle.trans hn)
  initial := h.initial

theorem Makes.identity?_ne {fields : Fields} (hfresh : m.Fresh type minted ids)
    (hminted : minted ≤ s.minted) (hid : id ∈ ids) (h : m.Makes type s fields s') :
    m.identity? type fields ≠ some id := by
  cases h with
  | plain => exact hfresh.initial id hid
  | fresh hneeds =>
    obtain ⟨i, hfield, hslot⟩ := Schema.identity_field_of_needsFreshIdentity hneeds
    obtain ⟨hi, -⟩ := List.getElem?_eq_some_iff.1 hslot
    have hidentity : m.identity? type ((m.catalogue type).withIdentity (m.mint s.minted)
        (m.catalogue type).initialFields) = some (m.mint s.minted) := by
      simp only [identity?, Schema.identity?, Schema.withIdentity, hfield, Option.bind_some,
        List.getElem?_set_self hi]
    rw [hidentity]
    intro heq
    exact hfresh.mint _ hminted (Option.some_inj.1 heq ▸ hid)

/-- A new item has a fresh identity, if it has one. -/
theorem Adds.identity?_ne (hactions : m.configuration.NoActions)
    (hderived : m.catalogue.Derived) (hnames : m.NamesIdentity r.type)
    (hfactory : m.configuration.itemFactory? r.full = none)
    (hfresh : m.Fresh r.type minted ids) {element : Json × Nat} {fields : Fields}
    (h : m.Adds r minted element fields) (hid : id ∈ ids) :
    m.identity? r.type fields ≠ some id := by
  obtain ⟨members, patchItem, fresh, s, t, u, v, -, -, hminted, hmakes, -, hwalk⟩ := h
  cases hmakes with
  | factory hmake =>
    rw [hfactory] at hmake
    cases hmake
  | construct _ hmade =>
    have hkept := identity?_runDirectives hactions hderived (.inl (hnames.protects Set.univ))
      (fun _ _ _ _ => Set.mem_univ _) hwalk
    rw [hkept]
    exact hmade.identity?_ne hfresh hminted hid

/-! ## How many items there are -/

theorem having_append_of_ne {olds : List Fields} {new : Fields}
    (h : m.identity? type new ≠ some id) :
    m.having type id (olds ++ [new]) = m.having type id olds := by
  rw [having, List.map_append, List.map_singleton, List.count_append, having,
    List.count_singleton, if_neg (by simpa using h), Nat.add_zero]

theorem having_set {olds : List Fields} {index : Nat} {old new : Fields}
    (hitem : olds[index]? = some old) (h : m.identity? type new = m.identity? type old) :
    m.having type id (olds.set index new) = m.having type id olds := by
  rw [having, List.map_set, h, set_eq_self (by rw [List.getElem?_map, hitem, Option.map_some]),
    having]

theorem having_eraseIdx {olds : List Fields} {index : Nat} {old : Fields} {other : Uuid}
    (hitem : olds[index]? = some old) (hother : m.identity? type old = some other) :
    m.having type id (olds.eraseIdx index) + [other].count id = m.having type id olds := by
  obtain ⟨hi, rfl⟩ := List.getElem?_eq_some_iff.1 hitem
  have hperm := ((List.getElem_cons_eraseIdx_perm hi).map (m.identity? type)).count_eq (some id)
  rw [List.map_cons, hother, List.count_cons] at hperm
  rw [having, having, ← hperm, List.count_singleton]
  simp

/-- Where identities are different, there is one item at most. -/
theorem having_le_one {olds : List Fields} (h : (olds.filterMap (m.identity? type)).Nodup)
    (id : Uuid) : m.having type id olds ≤ 1 := by
  have hcount := List.nodup_iff_count_le_one.1 h id
  rw [List.count_filterMap] at hcount
  rwa [having, List.count_eq_countP, List.countP_map]

/-- Of the items with an identity that is never given to a new item, those that the elements
remove are gone, and there are no more. -/
theorem ElementsRun.having_items (hactions : m.configuration.NoActions)
    (hderived : m.catalogue.Derived) (hnames : m.NamesIdentity r.type)
    (hfactory : m.configuration.itemFactory? r.full = none)
    (hfresh : m.Fresh r.type s.minted ids) (hid : id ∈ ids)
    (h : m.ElementsRun r position (Directive.elements m.options items) state s state' s') :
    m.having r.type id state'.items + (removals m.options items).count id =
      m.having r.type id state.items := by
  induction items generalizing position state s with
  | nil =>
    obtain ⟨rfl, -⟩ := h.of_nil
    rfl
  | cons item items ih =>
    obtain ⟨members, mid, t, rfl, hstep, hrest⟩ := h.of_cons
    have hminted := (hstep.extends (m.runsExtend _)).counters.2
    have hlater := ih (hfresh.mono hminted) hrest
    cases hstep with
    | @add patchItem fresh fields u v hintent hpatch hmakes htype hrun =>
      have hadds : m.Adds r s.minted (.object members, position) fields :=
        ⟨members, patchItem, fresh, s, u, _, v, rfl, hpatch, le_rfl, hmakes, htype, hrun⟩
      -- a fresh item does not count, so all that elements remove was there to begin with
      have hne := hadds.identity?_ne hactions hderived hnames hfactory hfresh hid
      rw [having_append_of_ne hne] at hlater
      rw [Intent.removals_cons_of_ne (by simp [Intent.intent?_of_ofMembers hintent])]
      exact hlater
    | @update other index item fields patchItem _ hintent hindex hitem hpatch hrun =>
      have hkept := identity?_runDirectives hactions hderived (.inl (hnames.protects Set.univ))
        (fun _ _ _ _ => Set.mem_univ _) hrun
      rw [having_set hitem hkept] at hlater
      rw [Intent.removals_cons_of_ne (by simp [Intent.intent?_of_ofMembers hintent])]
      exact hlater
    | @remove other index hintent hindex =>
      obtain ⟨hlt, -⟩ := List.findIdx?_eq_some_iff_getElem.1 hindex
      have hitem := List.getElem?_eq_getElem hlt
      have hfewer : m.having r.type id (state.items.eraseIdx index) + [other].count id =
          m.having r.type id state.items :=
        having_eraseIdx hitem (identity?_of_position? hindex hitem)
      rw [Intent.removals_cons_of_remove (Intent.intent?_of_ofMembers hintent),
        ← List.singleton_append, List.count_append, ← hfewer, ← hlater]
      omega

/-- Each new item is one more, and each removal leaves one less. -/
theorem ElementsRun.length_items
    (h : m.ElementsRun r position (Directive.elements m.options items) state s state' s') :
    state'.items.length + (removals m.options items).length =
      state.items.length + (additions m.options position items).length := by
  induction items generalizing position state s with
  | nil =>
    obtain ⟨rfl, -⟩ := h.of_nil
    rfl
  | cons item items ih =>
    obtain ⟨members, mid, t, rfl, hstep, hrest⟩ := h.of_cons
    have hlater := ih hrest
    cases hstep with
    | add hintent =>
      have hasks := Intent.intent?_of_ofMembers hintent
      rw [Intent.additions_cons_of_add hasks, Intent.removals_cons_of_ne (by simp [hasks]), hlater,
        List.length_append, List.length_singleton, List.length_cons]
      omega
    | update hintent =>
      have hasks := Intent.intent?_of_ofMembers hintent
      rw [Intent.additions_cons_of_ne (by simp [hasks]),
        Intent.removals_cons_of_ne (by simp [hasks]), hlater, List.length_set]
    | remove hintent hindex =>
      have hasks := Intent.intent?_of_ofMembers hintent
      obtain ⟨hlt, -⟩ := List.findIdx?_eq_some_iff_getElem.1 hindex
      rw [List.length_eraseIdx_of_lt hlt] at hlater
      rw [Intent.additions_cons_of_ne (by simp [hasks]), Intent.removals_cons_of_remove hasks,
        List.length_cons]
      omega

/-! ## What becomes of single items -/

/-- Without an element that names its identity an item is not updated. -/
theorem Becomes.eq_of_unnamed {old new : Fields}
    (hunnamed : ∀ id ∈ updates m.options items, m.identity? r.type old ≠ some id)
    (h : m.Becomes r items old new) : new = old := by
  rcases Relation.ReflTransGen.cases_head h with heq | ⟨next, hupdate, -⟩
  · exact heq.symm
  · obtain ⟨members, id, patchItem, s, s', hmem, hasks, hid, -⟩ := hupdate
    exact absurd hid (hunnamed id (Intent.mem_updates.2 ⟨_, hmem, hasks⟩))

/-- Without an element that names its identity nothing becomes of an item. -/
theorem Fate.eq_of_unnamed {old : Fields} {new : Option Fields}
    (hunnamed : ∀ id ∈ named m.options items, m.identity? r.type old ≠ some id)
    (h : m.Fate r items old new) : new = some old := by
  have hsame : ∀ last, m.Becomes r items old last → last = old :=
    fun last hlast => hlast.eq_of_unnamed fun id hid => hunnamed id (.inl hid)
  cases h with
  | left h => rw [hsame _ h]
  | removed h hid hasked =>
    rw [hsame _ h] at hid
    exact absurd hid (hunnamed _ (.inr hasked))

/-- An element names the identity of an item and asks for its removal. -/
def IsRemoved (m : Merger) (r : Reconciliation) (items : List Json) (item : Fields) : Prop :=
  ∃ id ∈ removals m.options items, m.identity? r.type item = some id

instance (item : Fields) : Decidable (m.IsRemoved r items item) :=
  inferInstanceAs (Decidable (∃ id ∈ removals m.options items, m.identity? r.type item = some id))

/-- Which items are removed depends on their identities. -/
theorem isRemoved_congr {old new : Fields}
    (h : m.identity? r.type new = m.identity? r.type old) :
    m.IsRemoved r items new ↔ m.IsRemoved r items old := by
  rw [IsRemoved, IsRemoved, h]

/-- An item is left: it has its identity, only elements that name it have changed it, and
without such an element it is the same. -/
structure Keeps (m : Merger) (r : Reconciliation) (items : List Json) (old new : Fields) :
    Prop where
  identity : m.identity? r.type new = m.identity? r.type old
  becomes : m.Becomes r items old new
  same : (∀ id ∈ updates m.options items, m.identity? r.type old ≠ some id) → new = old

/-- An array was reconciled with a collection by the identities of its items. What is left are
the items that it does not remove, in their order, and after them the new ones, in the order
of the array. These additions and removals were recorded, and no others. -/
structure ByIdentity (m : Merger) (r : Reconciliation) (minted : Nat) (items : List Json)
    (olds kept added : List Fields) (s s' : Session) : Prop where
  keeps : List.Forall₂ (m.Keeps r items) (olds.filter fun old => ¬ m.IsRemoved r items old) kept
  adds : List.Forall₂ (m.Adds r minted) (additions m.options 0 items) added
  length_eq : (kept ++ added).length + (removals m.options items).length =
    olds.length + (additions m.options 0 items).length
  records : Records r.full s s' (added.map (m.identity? r.type))
    ((removals m.options items).map some)
  of_empty : items = [] → kept = olds ∧ added = [] ∧ Elsewhere r.full s s'

/-- Items that are added stay as they are, when no element names their identities. -/
theorem Fates.newFates_eq {firsts : List Fields} {fates newFates : List (Option Fields)}
    (hunnamed : ∀ first ∈ firsts, ∀ id ∈ named m.options items,
      m.identity? r.type first ≠ some id)
    (h : m.Fates r minted position items state state' firsts fates newFates) :
    newFates = firsts.map some := by
  have hsame : List.Forall₂ (fun first fate => some first = fate) firsts newFates :=
    ((List.forall₂_and_left _ _).2 ⟨hunnamed, h.news⟩).imp
      fun _ _ hfate => (hfate.2.eq_of_unnamed hfate.1).symm
  rw [← List.forall₂_map_left_iff, List.forall₂_eq_eq_eq] at hsame
  exact hsame.symm

/-- Of different identities, there is no item left of one that an element removes. -/
theorem ElementsRun.not_isRemoved (hactions : m.configuration.NoActions)
    (hderived : m.catalogue.Derived) (hnames : m.NamesIdentity r.type)
    (hfactory : m.configuration.itemFactory? r.full = none)
    (hfresh : m.Fresh r.type s.minted (named m.options items))
    (hdistinct : (state.items.filterMap (m.identity? r.type)).Nodup)
    (h : m.ElementsRun r position (Directive.elements m.options items) state s state' s')
    {item : Fields} (hitem : item ∈ state'.items) : ¬ m.IsRemoved r items item := by
  rintro ⟨id, hremoved, hid⟩
  have hcount := h.having_items hactions hderived hnames hfactory hfresh (.inr hremoved)
  have hbefore := having_le_one hdistinct id
  have hafter : 0 < m.having r.type id state'.items :=
    List.count_pos_iff.2 (List.mem_map.2 ⟨item, hitem, hid⟩)
  have hasked := List.count_pos_iff.2 hremoved
  omega

/-- The items that are left are those which no element removes, where elements leave none of
the others. -/
theorem forall₂_keeps (hactions : m.configuration.NoActions) (hderived : m.catalogue.Derived)
    (hnames : m.NamesIdentity r.type) {olds : List Fields} {fates : List (Option Fields)}
    (hgone : ∀ item ∈ fates.reduceOption, ¬ m.IsRemoved r items item)
    (h : List.Forall₂ (m.Fate r items) olds fates) :
    List.Forall₂ (m.Keeps r items) (olds.filter fun old => ¬ m.IsRemoved r items old)
      fates.reduceOption := by
  have hleft : ∀ fate ∈ fates, ∀ item, fate = some item → ¬ m.IsRemoved r items item := by
    rintro _ hfate item rfl
    exact hgone item (List.reduceOption_mem_iff.2 hfate)
  have hflip : List.Forall₂ (fun fate old => m.Fate r items old fate) fates olds := .flip h
  have hboth : List.Forall₂ (fun old fate => (∀ item, fate = some item →
      ¬ m.IsRemoved r items item) ∧ m.Fate r items old fate) olds fates :=
    .flip ((List.forall₂_and_left _ _).2 ⟨hleft, hflip⟩)
  refine forall₂_filter_reduceOption (fun old hfate => ?_) (fun old new hfate => ?_) hboth
  · cases hfate.2 with
    | removed hbecomes hid hasked =>
      have hsame := hbecomes.identity?_eq hactions hderived (.inl hnames)
      simpa using ⟨_, hasked, hsame.symm.trans hid⟩
  · cases hfate.2 with
    | left hbecomes =>
      have hsame := hbecomes.identity?_eq hactions hderived (.inl hnames)
      refine ⟨?_, hsame, hbecomes, hbecomes.eq_of_unnamed⟩
      simpa using fun hremoved => hfate.1 new rfl ((isRemoved_congr hsame).2 hremoved)

/-- The elements of an array are reconciled with items of different identities. -/
theorem ElementsRun.byIdentity (hactions : m.configuration.NoActions)
    (hderived : m.catalogue.Derived) (hnames : m.NamesIdentity r.type)
    (hfactory : m.configuration.itemFactory? r.full = none)
    (hfresh : m.Fresh r.type s.minted (named m.options items))
    (hdistinct : (state.items.filterMap (m.identity? r.type)).Nodup)
    (h : m.ElementsRun r 0 (Directive.elements m.options items) state s state' s') :
    ∃ kept added, state'.items = kept ++ added ∧
      m.ByIdentity r s.minted items state.items kept added s s' := by
  obtain ⟨firsts, fates, newFates, hfates, hrecords⟩ := h.exists_fates hactions
  have hunnamed : ∀ first ∈ firsts, ∀ id ∈ named m.options items,
      m.identity? r.type first ≠ some id := by
    intro first hfirst id hid
    obtain ⟨element, -, hadds⟩ := exists_of_forall₂_of_mem hfates.adds hfirst
    exact hadds.identity?_ne hactions hderived hnames hfactory hfresh hid
  have hitems : state'.items = fates.reduceOption ++ firsts := by
    rw [hfates.items_eq, hfates.newFates_eq hunnamed, reduceOption_map_some]
  have hgone : ∀ item ∈ fates.reduceOption, ¬ m.IsRemoved r items item := by
    intro item hitem
    refine h.not_isRemoved hactions hderived hnames hfactory hfresh hdistinct ?_
    rw [hitems]
    exact List.mem_append_left _ hitem
  refine ⟨fates.reduceOption, firsts, hitems,
    forall₂_keeps hactions hderived hnames hgone hfates.olds, hfates.adds, ?_, hrecords, ?_⟩
  · rw [← hitems]
    exact h.length_items
  · rintro rfl
    obtain ⟨rfl, rfl⟩ := h.of_nil
    cases hfates.adds
    exact ⟨by rw [hitems, List.append_nil], rfl, .refl ..⟩

/-- What happens elsewhere before and after does not matter. -/
theorem ByIdentity.widen {olds kept added : List Fields} {t u : Session}
    (hbefore : Elsewhere r.full s t) (hafter : Elsewhere r.full u s')
    (h : m.ByIdentity r t.minted items olds kept added t u) :
    m.ByIdentity r s.minted items olds kept added s s' where
  keeps := h.keeps
  adds := h.adds.imp fun _ _ => Adds.mono hbefore.minted_le
  length_eq := h.length_eq
  records := by
    have hrecords := ((Records.of_elsewhere hbefore).trans h.records).trans (.of_elsewhere hafter)
    simpa only [List.nil_append, List.append_nil] using hrecords
  of_empty := fun hempty => by
    obtain ⟨hkept, hadded, hinner⟩ := h.of_empty hempty
    exact ⟨hkept, hadded, (hbefore.trans hinner).trans hafter⟩

/-- Where nothing is replaced the elements come to the items that were there. -/
theorem Settles.exists_run {elements : List Element} {olds left : List Fields}
    (hforce : m.configuration.forcesReplace r.full = false)
    (hidentified : (m.catalogue r.type).identified = true)
    (h : m.Settles r elements olds s left s') :
    ∃ state, state.items = left ∧ m.ElementsRun r 0 elements ⟨olds, []⟩ s state s' := by
  cases h with
  | ignored _ _ helements =>
    subst helements
    exact ⟨⟨olds, []⟩, rfl, .nil⟩
  | run hclears hrun hdrops =>
    rw [hidentified] at hclears
    rw [hforce] at hdrops
    cases hclears with
    | kept =>
      cases hdrops with
      | kept => exact ⟨_, rfl, hrun⟩
      | dropped hfalse => cases hfalse
    | cleared hfalse | empty hfalse => cases hfalse

/-- One array of a payload that alone leads to a collection, whose items have different
identities in a member called `id`, is reconciled with it by identity, unless an override has
the collection replaced or makes its items. -/
theorem reconciles_by_identity {patch original : Node} {base path : List String}
    {members : List (String × Json)} {made : Fields} {olds : List Fields}
    (hactions : m.configuration.NoActions) (hwell : m.catalogue.WellTyped)
    (hderived : m.catalogue.Derived) (hfactories : m.configuration.FactoriesTyped m.catalogue)
    (hfactory : m.configuration.itemFactory? ⟨base ++ path⟩ = none)
    (hforce : m.configuration.forcesReplace ⟨base ++ path⟩ = false)
    (hidentified : (m.catalogue type).identified = true) (hnames : m.NamesIdentity type)
    (hdistinct : (olds.filterMap (m.identity? type)).Nodup)
    (hfresh : m.Fresh type s.minted (named m.options items))
    (horiginal : Typed m.catalogue (.object original.type original.fields))
    (hbegun : m.begun? (.object original.type original.fields) path =
      some (.slot (.collection type olds)))
    (haddresses : m.Addresses original.type members path items)
    (hwalk : m.Walks base patch original members s made s') :
    ∃ r kept added, r.full = ⟨base ++ path⟩ ∧ r.type = type ∧
      m.shown? patch path = some (.slot (.collection r.patchType r.patchItems)) ∧
      m.held? (.object original.type made) path =
        some (.slot (.collection type (kept ++ added))) ∧
      m.ByIdentity r s.minted items olds kept added s s' := by
  obtain ⟨r, left, t, u, hfull, rfl, hsettles⟩ := hwalk.exists_settlesAlone hactions hwell
    hderived hfactories horiginal haddresses hbegun
  rw [← hfull] at hfactory hforce
  obtain ⟨state, rfl, hrun⟩ := hsettles.settles.exists_run hforce hidentified
  obtain ⟨kept, added, hitems, hidentity⟩ := hrun.byIdentity hactions hderived hnames hfactory
    (hfresh.mono hsettles.before.minted_le) hdistinct
  refine ⟨r, kept, added, hfull, rfl, hsettles.shown, ?_, ?_⟩
  · rw [← hitems]
    exact hsettles.held
  · exact hidentity.widen hsettles.before hsettles.after

end Merger

/-! ## A nursery -/

namespace Sample

/-- A merger of trees that gives out identities, whose first bit is set. -/
def nursery : Merger := .plain (fun _ => tree "") fun n => ⟨.cons true (.ofNat 127 n)⟩

theorem nursery_noActions : nursery.configuration.NoActions := Configuration.noActions_empty

theorem nursery_derived : nursery.catalogue.Derived := fun _ => Plan.derived_members 0 _

theorem nursery_wellTyped : nursery.catalogue.WellTyped := by
  intro type
  refine .of_forms rfl fun slot hslot => ?_
  simp only [nursery, Merger.plain, Schema.initialFields, tree, Plan.identifiedSchema,
    Plan.schema, Plan.fields, List.map_cons, List.map_nil, List.mem_cons, List.not_mem_nil,
    or_false] at hslot
  rcases hslot with rfl | rfl | rfl | rfl
  · exact .leaf
  · exact .leaf
  · exact .collection (by simp)
  · exact .dictionary (by simp)

theorem nursery_namesIdentity (type : TypeName) : nursery.NamesIdentity type := by
  have hnames : ∀ member ∈ (tree "").table.members, member.writes = some 0 →
      isIdentityKey member.name = true := by
    decide +kernel
  intro member hmember i hwrites hfield
  obtain rfl : 0 = i := Option.some_inj.1 hfield
  exact hnames member hmember hwrites

theorem sapling_typed (id : Nat) (name : String) {children : List Fields}
    (h : ∀ child ∈ children, Typed nursery.catalogue (.object "Tree" child)) :
    Typed nursery.catalogue (.object "Tree" (sapling id name children)) := by
  refine .of_forms rfl fun slot hslot => ?_
  simp only [sapling, List.mem_cons, List.not_mem_nil, or_false] at hslot
  rcases hslot with rfl | rfl | rfl | rfl
  · exact .leaf
  · exact .leaf
  · exact .collection h
  · exact .dictionary (by simp)

theorem oakAndElm_typed :
    Typed nursery.catalogue (.object oakAndElm.type oakAndElm.fields) := by
  refine sapling_typed 1 "root" fun child hchild => ?_
  rcases List.mem_pair.1 hchild with rfl | rfl
  · exact sapling_typed 10 "oak" (by simp)
  · exact sapling_typed 11 "elm" (by simp)

/-- An ash and the elm under another name. -/
def ashAndElm : Node := ⟨"Tree", sapling 1 "Root" [sapling 11 "Elm" [], sapling 12 "ash" []]⟩

/-- Elements that remove the oak, add the ash and rename the elm. -/
def plantings : List Json :=
  [.object [("Id", .string "00000000-0000-0000-0000-00000000000a"), ("remove", .bool true)],
    .object [("Id", .null), ("Name", .null)],
    .object [("Id", .string "00000000-0000-0000-0000-00000000000b"), ("Name", .null)]]

/-- The members of a payload with these elements, and with the name of the root. -/
def replanting : List (String × Json) := [("Name", .null), ("Children", .array plantings)]

/-- The report of what it changes. -/
def reportOfPlantings : Report :=
  ⟨[⟨⟨["Name"]⟩, .updated, none⟩, ⟨⟨["Children"]⟩, .removed, some ⟨10⟩⟩,
    ⟨⟨["Children"]⟩, .added, some ⟨.cons true 0⟩⟩,
    ⟨⟨["Children", "Name"]⟩, .updated, none⟩]⟩

theorem replanting_addresses :
    nursery.Addresses "Tree" replanting ["Children"] plantings := by
  refine ⟨by decide, [.scalar ["Name"] .null], [], rfl, ?_⟩
  intro d hd hmeets
  obtain rfl := List.mem_singleton.1 hd
  have hsame := (Merger.meets_cons_iff.1 hmeets).1
  have hne : nursery.number? Member.writes "Tree" "Name" ≠
      nursery.number? Member.writes "Tree" "Children" := by
    decide +kernel
  exact hne hsame

theorem plantings_fresh :
    nursery.Fresh "Tree" 0 (Intent.named nursery.options plantings) := by
  have hupdates : Intent.updates nursery.options plantings = [⟨11⟩] := by decide +kernel
  have hremovals : Intent.removals nursery.options plantings = [⟨10⟩] := by decide +kernel
  refine .of_nil (fun n _ hn => ?_) fun id hid => ?_
  · have hfirst : (nursery.mint n).bits.msb = true := BitVec.msb_cons
    rw [Intent.named, Set.mem_ofPred_eq, hupdates, hremovals, List.mem_singleton,
      List.mem_singleton] at hn
    rcases hn with hn | hn <;> rw [hn] at hfirst <;> exact absurd hfirst (by decide)
  · exact (Option.some_inj.1 hid).symm

end Sample

/-- The oak is gone, the elm has its identity, and the ash comes after it, with a fresh one. -/
theorem reconciles_by_identity_nursery :
    (Sample.nursery.merge Sample.ashAndElm Sample.oakAndElm (.object Sample.replanting) 0).result =
        .ok Sample.reportOfPlantings ∧
      ∃ made s r kept added, Sample.nursery.Walks [] Sample.ashAndElm Sample.oakAndElm
          Sample.replanting (Session.start 0) made s ∧
        r.full = ⟨["Children"]⟩ ∧ r.type = "Tree" ∧
        Sample.nursery.shown? Sample.ashAndElm ["Children"] =
          some (.slot (.collection r.patchType r.patchItems)) ∧
        Sample.nursery.held? (.object "Tree" made) ["Children"] =
          some (.slot (.collection "Tree" (kept ++ added))) ∧
        Sample.nursery.ByIdentity r 0 Sample.plantings
          [Sample.sapling 10 "oak" [], Sample.sapling 11 "elm" []] kept added (Session.start 0)
          s := by
  have hok : (Sample.nursery.merge Sample.ashAndElm Sample.oakAndElm
      (.object Sample.replanting) 0).result =
        .ok Sample.reportOfPlantings := by
    decide +kernel
  obtain ⟨members, made, s, hmembers, hwalk, -, -⟩ := Merger.Walks.of_merge hok
  obtain rfl := Json.object.inj hmembers
  have hdistinct : ([Sample.sapling 10 "oak" [], Sample.sapling 11 "elm" []].filterMap
      (Sample.nursery.identity? "Tree")).Nodup := by
    decide +kernel
  obtain ⟨r, kept, added, h⟩ := Merger.reconciles_by_identity Sample.nursery_noActions
    Sample.nursery_wellTyped Sample.nursery_derived (Configuration.factoriesTyped_empty _) rfl rfl
    rfl (Sample.nursery_namesIdentity "Tree") hdistinct Sample.plantings_fresh
    Sample.oakAndElm_typed rfl Sample.replanting_addresses hwalk
  exact ⟨hok, made, s, r, kept, added, hwalk, h⟩

end SelectiveMerge
