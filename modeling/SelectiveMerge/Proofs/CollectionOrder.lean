import SelectiveMerge.Proofs.KeyOrder
import SelectiveMerge.Proofs.PatchOrder

/-!
# Independence of the order of items

An array whose elements name different items of a collection says the same in every order, and
so does the patch with its items in every order. The merge succeeds as well, leaves the same
items in the same places and makes the same changes in some order, up to the names of the
identities that it gives out inside of these items.

* `Merger.Unseen.permuted`, `Merger.Unseen.rearranged` — identities that occur nowhere else do
  not do so either in another order
* `Merger.reorders_of_rearranges` — a payload and a patch in another order have the same effect
* `Merger.merge_rearranged` — so merges do the same
-/

namespace SelectiveMerge

/-! ## Identities that occur nowhere else -/

theorem Dictionary.mem_replace {α : Type} {key : String} {value : α}
    {entries : List (String × α)} {entry : String × α} (h : entry ∈ replace key value entries) :
    entry = (key, value) ∨ entry ∈ entries := by
  induction entries with
  | nil => cases h
  | cons first rest ih =>
    rw [replace] at h
    split at h
    · exact (List.mem_cons.1 h).imp_right (List.mem_cons_of_mem _)
    · rcases List.mem_cons.1 h with rfl | h
      · exact .inr (List.mem_cons_self ..)
      · exact (ih h).imp_right (List.mem_cons_of_mem _)

/-- An element concerns the item that it names. -/
theorem Intent.concerns_iff {options : Options} {members : List (String × Json)} {id : Uuid} :
    Concerns options members id ↔ (Json.object members).named? options = some id := by
  rw [Json.named?_eq_some_iff]
  constructor
  · rintro ⟨full, hasks⟩
    exact hasks.imp intent?_of_ofMembers intent?_of_ofMembers
  · rintro (hasks | hasks) <;> obtain ⟨_, ⟨⟩, hasks⟩ := intent?_eq_some_iff.1 hasks
    · exact ⟨_, .inl hasks⟩
    · exact ⟨_, .inr hasks⟩

namespace Merger

variable {m : Merger} {patch patch' original : Node} {payload payload' : Json}
  {minted limit : Nat} {values : Set Json} {ids : Set Uuid} {patchPlace place : Place}

theorem Rearranges.avoids {slot slot' : Slot} (h : m.Rearranges values slot slot')
    (hslot : slot.Avoids ids) : slot'.Avoids ids := by
  induction h with
  | items hperm =>
    cases hslot with
    | collection hitems => exact .collection fun item hitem => hitems item (hperm.mem_iff.2 hitem)
  | field hold _ ih =>
    cases hslot with
    | object hfields =>
      refine .object fun slot hmem => ?_
      rcases List.mem_or_eq_of_mem_set hmem with hmem | rfl
      · exact hfields slot hmem
      · exact ih (hfields _ (List.mem_of_getElem? hold))
  | optional _ ih =>
    cases hslot with
    | optional hpresent => exact .optional (ih hpresent)
  | item hitem _ ih =>
    cases hslot with
    | collection hitems =>
      refine .collection fun item hmem => ?_
      rcases List.mem_or_eq_of_mem_set hmem with hmem | rfl
      · exact hitems item hmem
      · exact ih (hitems _ (List.mem_of_getElem? hitem))
  | entry hentry _ ih =>
    cases hslot with
    | dictionary hentries =>
      refine .dictionary fun entry hmem => ?_
      rw [Dictionary.insert, if_pos (by rw [hentry]; rfl)] at hmem
      rcases Dictionary.mem_replace hmem with rfl | hmem
      · obtain ⟨found, hfound, rfl⟩ := Option.map_eq_some_iff.1 hentry
        exact ih (hentries found (List.mem_of_find?_eq_some hfound))
      · exact hentries entry hmem

/-- A property of objects that does not depend on the order of arrays inside is kept. -/
theorem Permutes.everyObject {p : List (String × Json) → Prop}
    (hp : ∀ {patchPlace place : Place} {members members' : List (String × Json)},
      m.Permutes patchPlace place (.object members) (.object members') → p members → p members')
    (h : m.Permutes patchPlace place payload payload') (hpayload : payload.EveryObject p) :
    payload'.EveryObject p := by
  induction h with
  | items hperm =>
    cases hpayload with
    | array hitems => exact .array fun item hitem => hitems item (hperm.mem_iff.2 hitem)
  | member hvalue ih =>
    obtain ⟨hobject, hmembers⟩ := hpayload
    refine .object (hp (.member hvalue) hobject) ?_
    rw [List.forall_mem_append, List.forall_mem_cons] at hmembers ⊢
    exact ⟨hmembers.1, ih hmembers.2.1, hmembers.2.2⟩
  | item _ ih =>
    cases hpayload with
    | array hitems =>
      refine .array ?_
      rw [List.forall_mem_append, List.forall_mem_cons] at hitems ⊢
      exact ⟨hitems.1, ih hitems.2.1, hitems.2.2⟩

theorem Unseen.permuted (h : m.Unseen patch original payload minted limit)
    (hpayload : m.Permutes patchPlace place payload payload') :
    m.Unseen patch original payload' minted limit where
  mint_inj := h.mint_inj
  original := h.original
  patch := h.patch
  initial := h.initial
  payload := by
    refine hpayload.everyObject (fun hmembers hnone id hid hconcerns => hnone id hid ?_) h.payload
    obtain ⟨full, hasks⟩ := hconcerns
    exact ⟨full, hasks.imp (hmembers.symm.asksAlike.intent rfl rfl)
      (hmembers.symm.asksAlike.intent rfl rfl)⟩

theorem Unseen.rearranged (h : m.Unseen patch original payload minted limit)
    (hpatch : m.Rearranges values (.object patch.type patch.fields)
      (.object patch'.type patch'.fields)) :
    m.Unseen patch' original payload minted limit :=
  { h with patch := hpatch.avoids h.patch }

/-! ## A whole merge -/

/-- With an array of a payload in another order, and with a collection of the patch in another
order, the directives have the same effect. -/
theorem reorders_of_rearranges (hderived : m.catalogue.Derived)
    (hpatchTyped : Typed m.catalogue (.object patch.type patch.fields))
    {members members' : List (String × Json)} {type : TypeName}
    (hpatch : m.Rearranges {.object members} (.object patch.type patch.fields)
      (.object patch'.type patch'.fields))
    (hpayload : m.Permutes (.owner patch.type) (.owner type) (.object members)
      (.object members')) (base : List String) :
    Effect.Reorders (m.effects base patch type (Directive.ofMembers m.options members))
        (m.effects base patch' type (Directive.ofMembers m.options members')) ∧
      Effect.Reorders (m.effects base patch' type (Directive.ofMembers m.options members'))
        (m.effects base patch type (Directive.ofMembers m.options members)) := by
  have hpatchTyped' := hpatch.typed hpatchTyped
  have htype : patch'.type = patch.type := Form.object.inj hpatch.form_eq
  obtain ⟨patchType, fields⟩ := patch
  obtain ⟨_, fields'⟩ := patch'
  subst htype
  have hdirectives : ∀ d ∈ Directive.ofMembers m.options members,
      ∃ value ∈ ({.object members} : Set Json), ∃ path leaf,
        Leads m.options value path leaf ∧ d = .ofValue m.options path leaf :=
    fun d hd => ⟨_, rfl, Directive.mem_ofMembers_iff.1 hd⟩
  have hpatches := (hpatch.within _ hdirectives base type).reorders
  have hpatches' := (hpatch.symm.within _ hdirectives base type).reorders
  exact ⟨hpatches.trans (reorders_of_permutes hderived hpatchTyped' hpayload),
    (reorders_of_permutes hderived hpatchTyped' hpayload.symm).trans hpatches'⟩

/-- The order of items does not matter. An array whose elements name different items can have
them in another order, and a collection of the patch, whose items have different identities and
are all named by elements, can have its items in another order. The merge succeeds just when it
did so before. It leaves the same object, with all items in their places, and makes the same
changes in some order, up to the names of the identities that it gives out. -/
theorem merge_rearranged (hempty : m.configuration = .empty)
    (hvalidator : m.validator = .approveAll) (hwell : m.catalogue.WellTyped)
    (hderived : m.catalogue.Derived)
    (horiginal : Typed m.catalogue (.object original.type original.fields))
    (hpatchTyped : Typed m.catalogue (.object patch.type patch.fields))
    (hpatch : m.Rearranges {payload} (.object patch.type patch.fields)
      (.object patch'.type patch'.fields))
    (hpayload : m.Permutes (.owner patch.type) (.owner original.type) payload payload')
    (hunseen : m.Unseen patch original payload minted limit)
    (hlimit : (m.merge patch original payload minted).minted ≤ limit)
    (hlimit' : (m.merge patch' original payload' minted).minted ≤ limit) :
    ((∃ report, (m.merge patch original payload minted).result = .ok report) ↔
      ∃ report', (m.merge patch' original payload' minted).result = .ok report') ∧
    ((∃ report, (m.merge patch original payload minted).result = .ok report) →
      ∃ ρ : Equiv.Perm Uuid,
        (∀ id, id ∉ m.supply minted (m.merge patch original payload minted).minted →
          ρ id = id) ∧
        (m.merge patch original payload minted).SameUpTo ρ
          (m.merge patch' original payload' minted)) := by
  cases hobject : payload.isObject with
  | false =>
    -- what is no object is no payload
    obtain ⟨_, hfail⟩ := merge_of_not_isObject hobject patch original minted (m := m)
    obtain ⟨_, hfail'⟩ := merge_of_not_isObject (hpayload.isObject_eq.trans hobject) patch'
      original minted (m := m)
    simp [hfail, hfail']
  | true =>
    obtain ⟨members, rfl⟩ := Json.exists_of_isObject hobject
    obtain ⟨members', rfl⟩ := Json.exists_of_isObject hpayload.isObject_eq
    obtain ⟨hforth, hback⟩ := reorders_of_rearranges hderived hpatchTyped hpatch hpayload []
    have hunseen' := (hunseen.permuted hpayload).rearranged hpatch
    refine ⟨⟨?_, ?_⟩, ?_⟩
    · rintro ⟨report, hok⟩
      obtain ⟨-, -, ⟨-, report', -, hok', -⟩, -, -⟩ := merge_of_reorders hempty hvalidator hwell
        hderived horiginal hforth hunseen' hlimit hok
      exact ⟨report', hok'⟩
    · rintro ⟨report', hok'⟩
      obtain ⟨-, -, ⟨-, report, -, hok, -⟩, -, -⟩ := merge_of_reorders hempty hvalidator hwell
        hderived horiginal hback hunseen hlimit' hok'
      exact ⟨report, hok⟩
    · rintro ⟨report, hok⟩
      exact merge_of_reorders hempty hvalidator hwell hderived horiginal hforth hunseen' hlimit hok

end Merger

/-! ## Seeds under trees -/

namespace Sample

/-- A root with an oak, an elm and an ash. -/
def mixedGrove : Node :=
  ⟨"Tree", sapling 1 "root" [sapling 10 "oak" [], sapling 11 "elm" [], sapling 12 "ash" []]⟩

/-- An oak with an acorn. -/
def oakWithAcorn : Fields := sapling 10 "Oak" [sapling 2 "acorn" []]

/-- An elm with a samara. -/
def elmWithSamara : Fields := sapling 11 "Elm" [sapling 3 "samara" []]

/-- A root with two trees. -/
def rootOf (first second : Fields) : Node := ⟨"Tree", sapling 1 "Root" [first, second]⟩

/-- An element that plants a seed under the tree with an identity. -/
def seed (id : String) : Json :=
  .object [("Id", .string id), ("Children", .array [.object [("Name", .null)]])]

/-- An element that removes the ash. -/
def felling : Json :=
  .object [("Id", .string "00000000-0000-0000-0000-00000000000c"), ("remove", .bool true)]

/-- Elements that plant seeds under the oak and the elm and remove the ash. -/
def seeds : List Json :=
  [seed "00000000-0000-0000-0000-00000000000a", seed "00000000-0000-0000-0000-00000000000b",
    felling]

/-- The elements from the last to the first. -/
def seedsBackwards : List Json :=
  [felling, seed "00000000-0000-0000-0000-00000000000b",
    seed "00000000-0000-0000-0000-00000000000a"]

/-- A payload with these elements for the trees. -/
def sowing (elements : List Json) : Json := .object [("Children", .array elements)]

theorem seeds_namesApart : Json.NamesApart nursery.options seeds where
  named := by decide +kernel
  distinct := by decide +kernel

theorem seeds_permutes :
    nursery.Permutes (.owner "Tree") (.owner "Tree") (sowing seeds) (sowing seedsBackwards) := by
  have hunder : nursery.under (.owner "Tree") "Children" = .items "Tree" := by decide +kernel
  have hperm : seeds.Perm seedsBackwards := by decide +kernel
  have hitems : nursery.Permutes (nursery.under (.owner "Tree") "Children")
      (nursery.under (.owner "Tree") "Children") (.array seeds) (.array seedsBackwards) := by
    rw [hunder]
    exact .items hperm seeds_namesApart
  exact @Merger.Permutes.member nursery _ _ [] [] "Children" _ _ hitems

theorem seeds_rearranges :
    nursery.Rearranges {sowing seeds} (.object "Tree" (rootOf oakWithAcorn elmWithSamara).fields)
      (.object "Tree" (rootOf elmWithSamara oakWithAcorn).fields) := by
  refine .field (i := 2) rfl (.items (.swap ..) (by decide +kernel) ?_)
  rintro elements ⟨members, key, hmembers, hkey, -, -⟩
  obtain rfl := Json.object.inj hmembers
  obtain ⟨-, helements⟩ := Prod.ext_iff.1 (List.mem_singleton.1 hkey)
  obtain rfl := Json.array.inj helements
  exact seeds_namesApart.named

theorem rootOf_typed :
    Typed nursery.catalogue (.object "Tree" (rootOf oakWithAcorn elmWithSamara).fields) := by
  refine sapling_typed 1 "Root" fun tree htree => ?_
  rcases List.mem_pair.1 htree with rfl | rfl
  · refine sapling_typed 10 "Oak" fun tree htree => ?_
    obtain rfl := List.mem_singleton.1 htree
    exact sapling_typed 2 "acorn" (by simp)
  · refine sapling_typed 11 "Elm" fun tree htree => ?_
    obtain rfl := List.mem_singleton.1 htree
    exact sapling_typed 3 "samara" (by simp)

theorem mixedGrove_typed :
    Typed nursery.catalogue (.object mixedGrove.type mixedGrove.fields) := by
  refine sapling_typed 1 "root" fun tree htree => ?_
  simp only [List.mem_cons, List.not_mem_nil, or_false] at htree
  rcases htree with rfl | rfl | rfl <;> exact sapling_typed _ _ (by simp)

/-- The payload is about the three trees alone. -/
theorem sowing_everyObject {minted limit : Nat} :
    (sowing seeds).EveryObject fun members =>
      ∀ id ∈ nursery.supply minted limit, ¬ Intent.Concerns nursery.options members id := by
  -- what names no item, or one of the trees, does not name one that is yet to be made
  have hnamed {members : List (String × Json)}
      (h : ((Json.object members).named? nursery.options).all (·.bits.msb = false)) :
      ∀ id ∈ nursery.supply minted limit, ¬ Intent.Concerns nursery.options members id := by
    intro id hid hconcerns
    rw [Intent.concerns_iff.1 hconcerns] at h
    exact notMem_nursery_supply (by simpa using h) hid
  have hseed (id : String) (h : ((seed id).named? nursery.options).all (·.bits.msb = false)) :
      (seed id).EveryObject fun members =>
        ∀ id ∈ nursery.supply minted limit, ¬ Intent.Concerns nursery.options members id := by
    refine .object (hnamed h) fun a ha => ?_
    rcases List.mem_pair.1 ha with rfl | rfl
    · exact .string
    · refine .array fun item hitem => ?_
      obtain rfl := List.mem_singleton.1 hitem
      refine .object (hnamed (by decide +kernel)) fun a ha => ?_
      obtain rfl := List.mem_singleton.1 ha
      exact .null
  refine .object (hnamed (by decide +kernel)) fun a ha => ?_
  obtain rfl := List.mem_singleton.1 ha
  refine .array fun item hitem => ?_
  simp only [seeds, List.mem_cons, List.not_mem_nil, or_false] at hitem
  rcases hitem with rfl | rfl | rfl
  · exact hseed _ (by decide +kernel)
  · exact hseed _ (by decide +kernel)
  · refine .object (hnamed (by decide +kernel)) fun a ha => ?_
    rcases List.mem_pair.1 ha with rfl | rfl
    · exact .string
    · exact .bool

theorem seeds_unseen :
    nursery.Unseen (rootOf oakWithAcorn elmWithSamara) mixedGrove (sowing seeds) 0 8 where
  mint_inj := fun a b _ hlt hlimit => nursery_mint_inj b hlimit a hlt
  original := by
    refine sapling_avoids (by decide) (by decide) fun tree htree => ?_
    simp only [List.mem_cons, List.not_mem_nil, or_false] at htree
    rcases htree with rfl | rfl | rfl <;>
      exact sapling_avoids (by decide) (by decide) (by simp)
  patch := by
    refine sapling_avoids (by decide) (by decide) fun tree htree => ?_
    rcases List.mem_pair.1 htree with rfl | rfl <;>
    · refine sapling_avoids (by decide) (by decide) fun tree htree => ?_
      obtain rfl := List.mem_singleton.1 htree
      exact sapling_avoids (by decide) (by decide) (by simp)
  initial := initial_avoids
  payload := sowing_everyObject

end Sample

/-- The seeds are planted and the ash is removed in either order, and it depends on the order of
the elements which seed gets which of the first two identities. -/
theorem merge_rearranged_nursery :
    (Sample.nursery.merge (Sample.rootOf Sample.oakWithAcorn Sample.elmWithSamara)
        Sample.mixedGrove (Sample.sowing Sample.seeds) 0).result =
      .ok ⟨[⟨⟨["Children", "Children"]⟩, .added, some ⟨.cons true 0⟩⟩,
        ⟨⟨["Children", "Children"]⟩, .added, some ⟨.cons true 1⟩⟩,
        ⟨⟨["Children"]⟩, .removed, some ⟨12⟩⟩]⟩ ∧
      (Sample.nursery.merge (Sample.rootOf Sample.oakWithAcorn Sample.elmWithSamara)
        Sample.mixedGrove (Sample.sowing Sample.seeds) 0).minted = 2 ∧
      ∃ ρ : Equiv.Perm Uuid,
        (∀ id, id ∉ Sample.nursery.supply 0 2 → ρ id = id) ∧
        (Sample.nursery.merge (Sample.rootOf Sample.oakWithAcorn Sample.elmWithSamara)
          Sample.mixedGrove (Sample.sowing Sample.seeds) 0).SameUpTo ρ
          (Sample.nursery.merge (Sample.rootOf Sample.elmWithSamara Sample.oakWithAcorn)
            Sample.mixedGrove (Sample.sowing Sample.seedsBackwards) 0) := by
  have hok : (Sample.nursery.merge (Sample.rootOf Sample.oakWithAcorn Sample.elmWithSamara)
      Sample.mixedGrove (Sample.sowing Sample.seeds) 0).result =
        .ok ⟨[⟨⟨["Children", "Children"]⟩, .added, some ⟨.cons true 0⟩⟩,
          ⟨⟨["Children", "Children"]⟩, .added, some ⟨.cons true 1⟩⟩,
          ⟨⟨["Children"]⟩, .removed, some ⟨12⟩⟩]⟩ := by
    decide +kernel
  have hminted : (Sample.nursery.merge (Sample.rootOf Sample.oakWithAcorn Sample.elmWithSamara)
      Sample.mixedGrove (Sample.sowing Sample.seeds) 0).minted = 2 := by
    decide +kernel
  have hminted' : (Sample.nursery.merge (Sample.rootOf Sample.elmWithSamara Sample.oakWithAcorn)
      Sample.mixedGrove (Sample.sowing Sample.seedsBackwards) 0).minted ≤ 8 := by
    decide +kernel
  obtain ⟨-, hsame⟩ := Merger.merge_rearranged rfl rfl Sample.nursery_wellTyped
    Sample.nursery_derived Sample.mixedGrove_typed Sample.rootOf_typed Sample.seeds_rearranges
    Sample.seeds_permutes Sample.seeds_unseen (hminted.trans_le (by decide)) hminted'
  refine ⟨hok, hminted, ?_⟩
  have hsame := hsame ⟨_, hok⟩
  rwa [hminted] at hsame

end SelectiveMerge
