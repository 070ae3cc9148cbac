import Mathlib.Logic.Equiv.Basic
import SelectiveMerge.Proofs.Comparison
import SelectiveMerge.Proofs.EffectRuns
import SelectiveMerge.Proofs.Renaming
import SelectiveMerge.Proofs.Reordering
import SelectiveMerge.Proofs.Usable

/-!
# Independence of key order

The order of the keys of a payload decides in which order a merge does what it does, and so
which of the identities that it gives out an item or an object gets. Nothing else depends on
it: with the keys in another order the merge succeeds as well, with the same changes in some
order, and leaves the same object, up to the names of the identities that were given out.

* `exists_perm_map_eq` — a rearrangement is a renaming
* `Merger.Unseen` — identities to be given out that occur nowhere else
* `Merger.merge_of_reorders` — a merge that succeeds does so with what can do the same
* `Merger.merge_of_shuffled` — in particular with its keys in another order
* `Merger.merge_shuffled` — and the other way round
-/

namespace SelectiveMerge

/-- A list without repetitions is taken to each of its rearrangements by a renaming of what
is in it. -/
theorem exists_perm_map_eq {α : Type} [DecidableEq α] {xs ys : List α} (h : xs.Perm ys)
    (hnodup : xs.Nodup) :
    ∃ σ : Equiv.Perm α, xs.map σ = ys ∧ ∀ a, a ∉ xs → σ a = a := by
  induction h with
  | nil => exact ⟨.refl α, rfl, fun _ _ => rfl⟩
  | cons a _ ih =>
    obtain ⟨ha, hrest⟩ := List.nodup_cons.1 hnodup
    obtain ⟨σ, hmap, hfixes⟩ := ih hrest
    refine ⟨σ, by rw [List.map_cons, hmap, hfixes a ha], fun b hb => hfixes b ?_⟩
    exact fun hmem => hb (List.mem_cons_of_mem _ hmem)
  | swap a b rest =>
    rw [List.nodup_cons, List.nodup_cons, List.mem_cons, not_or] at hnodup
    obtain ⟨⟨-, hb⟩, ha, -⟩ := hnodup
    have hrest : rest.map (Equiv.swap b a) = rest := by
      refine (List.map_congr_left fun c hc => ?_).trans (List.map_id' rest)
      refine Equiv.swap_apply_of_ne_of_ne ?_ ?_ <;> rintro rfl
      · exact hb hc
      · exact ha hc
    refine ⟨Equiv.swap b a, ?_, fun c hc => ?_⟩
    · rw [List.map_cons, List.map_cons, hrest, Equiv.swap_apply_left, Equiv.swap_apply_right]
    · rw [List.mem_cons, List.mem_cons, not_or, not_or] at hc
      exact Equiv.swap_apply_of_ne_of_ne hc.1 hc.2.1
  | trans hfirst _ ih ih' =>
    obtain ⟨σ, hmap, hfixes⟩ := ih hnodup
    obtain ⟨τ, hmap', hfixes'⟩ := ih' (hfirst.nodup_iff.1 hnodup)
    refine ⟨σ.trans τ, ?_, fun a ha => ?_⟩
    · rw [← hmap', ← hmap, List.map_map]
      rfl
    · rw [Equiv.trans_apply, hfixes a ha, hfixes' a fun hmem => ha (hfirst.mem_iff.2 hmem)]

/-! ## Objects of a payload -/

namespace Json.EveryObject

variable {p q : List (String × Json) → Prop} {value : Json} {options : Options}

theorem and (h : value.EveryObject p) (h' : value.EveryObject q) :
    value.EveryObject fun members => p members ∧ q members := by
  induction h with
  | object hobject _ ih =>
    cases h' with
    | object hobject' hmembers' =>
      exact .object ⟨hobject, hobject'⟩ fun a ha => ih a ha (hmembers' a ha)
  | array _ ih =>
    cases h' with
    | array hitems' => exact .array fun item hitem => ih item hitem (hitems' item hitem)
  | string => exact .string
  | number => exact .number
  | bool => exact .bool
  | null => exact .null

theorem mono (hsub : ∀ members, p members → q members) (h : value.EveryObject p) :
    value.EveryObject q := by
  induction h with
  | object hobject _ ih => exact .object (hsub _ hobject) ih
  | array _ ih => exact .array ih
  | string => exact .string
  | number => exact .number
  | bool => exact .bool
  | null => exact .null

/-- The elements of the arrays that keys lead to, and those inside, have the property. -/
theorem every_of_leads (h : value.EveryObject p) {path : List String} {items : List Json}
    (hleads : Leads options value path (.array items)) :
    ∀ item ∈ items, Element.Every p (.mk item (Directive.ofItem options item)) := by
  induction h generalizing path items with
  | object _ _ ih =>
    cases hleads with
    | member hmember _ hrest => exact ih _ hmember hrest
  | array hitems ih =>
    cases hleads with
    | here =>
      intro item hitem
      refine .mk ?_ fun d hd e he => ?_
      · rintro members rfl
        cases hitems _ hitem with
        | object hobject => exact hobject
      · cases item with
        | object members =>
          obtain ⟨rest, leaf, hrest, rfl⟩ := Directive.mem_ofMembers_iff.1 hd
          cases leaf with
          | array inner =>
            rw [Directive.ofValue, Directive.arrayElements, Directive.elements_eq_map] at he
            obtain ⟨element, helement, rfl⟩ := List.mem_map.1 he
            exact ih _ hitem hrest element helement
          | _ => cases he
        | _ => cases hd
  | _ => cases hleads

/-- The elements of a payload have the property. -/
theorem every_ofMembers {members : List (String × Json)}
    (h : Json.EveryObject p (.object members)) :
    ∀ d ∈ Directive.ofMembers options members, ∀ e ∈ d.arrayElements, e.Every p := by
  intro d hd e he
  obtain ⟨path, leaf, hleads, rfl⟩ := Directive.mem_ofMembers_iff.1 hd
  cases leaf with
  | array items =>
    rw [Directive.ofValue, Directive.arrayElements, Directive.elements_eq_map] at he
    obtain ⟨item, hitem, rfl⟩ := List.mem_map.1 he
    exact h.every_of_leads hleads item hitem
  | _ => cases he

end Json.EveryObject

/-! ## Identities that occur nowhere else -/

theorem Json.Shuffled.exists_members {members : List (String × Json)} {value : Json}
    (h : Json.Shuffled (.object members) value) : ∃ members', value = .object members' := by
  induction h with
  | refl => exact ⟨members, rfl⟩
  | tail _ hlast ih =>
    obtain ⟨members', rfl⟩ := ih
    exact Json.exists_of_isObject hlast.isObject_eq

theorem Json.Shuffled.unambiguous {m : Merger} {place : Place} {value value' : Json}
    (h : value.Shuffled value') (hclear : m.Unambiguous place value) :
    m.Unambiguous place value' := by
  induction h with
  | refl => exact hclear
  | tail _ hlast ih => exact hlast.unambiguous ih

/-- A property of objects that does not depend on the order of keys is kept. -/
theorem Json.Shuffled.everyObject {p : List (String × Json) → Prop} {value value' : Json}
    (hp : ∀ {members members' : List (String × Json)},
      Json.Shuffles (.object members) (.object members') → p members → p members')
    (h : value.Shuffled value') (hvalue : value.EveryObject p) : value'.EveryObject p := by
  induction h with
  | refl => exact hvalue
  | tail _ hlast ih => exact hlast.everyObject hp ih

/-- Two merges succeed with the same changes in some order, leave the same object and give out
as many identities, when those in the second one go by other names. -/
structure Outcome.SameUpTo (ρ : Uuid → Uuid) (o o' : Outcome) : Prop where
  changes : ∃ report report', o.result = .ok report ∧ o'.result = .ok report' ∧
    report'.changes.Perm (report.changes.map (Change.rename ρ))
  original : o'.original = o.original.rename ρ
  minted : o'.minted = o.minted

namespace Merger

/-- The identities that are given out from one number up to another one. -/
def supply (m : Merger) (minted limit : Nat) : Set Uuid :=
  {id | ∃ n, minted ≤ n ∧ n < limit ∧ m.mint n = id}

/-- The identities to be given out, up to a limit, are different and occur nowhere else:
neither in the two objects, nor in what objects hold at first, nor as the identity of an
element. -/
structure Unseen (m : Merger) (patch original : Node) (payload : Json) (minted limit : Nat) :
    Prop where
  mint_inj : ∀ a b, minted ≤ a → a < b → b < limit → m.mint a ≠ m.mint b
  original : (Slot.object original.type original.fields).Avoids (m.supply minted limit)
  patch : (Slot.object patch.type patch.fields).Avoids (m.supply minted limit)
  initial : ∀ type,
    (Slot.object type (m.catalogue type).initialFields).Avoids (m.supply minted limit)
  payload : payload.EveryObject fun members =>
    ∀ id ∈ m.supply minted limit, ¬ Intent.Concerns m.options members id

variable {m : Merger} {patch original : Node} {payload payload' : Json} {minted limit : Nat}
  {ids : List Uuid}

theorem Issues.mem_supply (h : m.Issues minted ids) {id : Uuid} (hid : id ∈ ids) :
    id ∈ m.supply minted (minted + ids.length) := by
  induction ids generalizing minted with
  | nil => cases hid
  | cons first ids ih =>
    obtain ⟨hfirst, hrest⟩ := h
    rw [List.length_cons]
    rcases List.mem_cons.1 hid with rfl | hid
    · exact ⟨minted, le_rfl, by omega, hfirst⟩
    · obtain ⟨n, hn, hlt, hmint⟩ := ih hrest hid
      exact ⟨n, by omega, by omega, hmint⟩

theorem Issues.nodup (h : m.Issues minted ids) (hlimit : minted + ids.length ≤ limit)
    (hinj : ∀ a b, minted ≤ a → a < b → b < limit → m.mint a ≠ m.mint b) : ids.Nodup := by
  induction ids generalizing minted with
  | nil => exact List.nodup_nil
  | cons first ids ih =>
    obtain ⟨hfirst, hrest⟩ := h
    rw [List.length_cons] at hlimit
    refine List.nodup_cons.2 ⟨fun hmem => ?_,
      ih hrest (by omega) fun a b ha => hinj a b (by omega)⟩
    obtain ⟨n, hn, hlt, hmint⟩ := hrest.mem_supply hmem
    exact hinj minted n le_rfl (by omega) (by omega) (hfirst.trans hmint.symm)

theorem supply_mono {limit' : Nat} (hle : limit ≤ limit') :
    m.supply minted limit ⊆ m.supply minted limit' := by
  rintro id ⟨n, hn, hlt, hmint⟩
  exact ⟨n, hn, hlt.trans_le hle, hmint⟩

/-- What an element asks for does not depend on the order of its keys. -/
theorem not_concerns_of_shuffles {options : Options} {ids : Set Uuid}
    {members members' : List (String × Json)}
    (h : Json.Shuffles (.object members) (.object members'))
    (hmembers : Json.SingleIdentity members ∧
      ∀ id ∈ ids, ¬ Intent.Concerns options members id) :
    Json.SingleIdentity members' ∧ ∀ id ∈ ids, ¬ Intent.Concerns options members' id := by
  obtain ⟨hsingle, hnone⟩ := hmembers
  have hsingle' := h.singleIdentity hsingle
  refine ⟨hsingle', fun id hid hconcerns => hnone id hid ?_⟩
  obtain ⟨full, hasks⟩ := hconcerns
  exact ⟨full, hasks.imp (Intent.ofMembers_of_shuffles h.symm hsingle')
    (Intent.ofMembers_of_shuffles h.symm hsingle')⟩

/-- What occurs nowhere else does not do so either when keys are in another order. -/
theorem Unseen.shuffled (h : m.Unseen patch original payload minted limit)
    (hsingle : payload.EveryObject Json.SingleIdentity) (hshuffled : payload.Shuffled payload') :
    m.Unseen patch original payload' minted limit where
  mint_inj := h.mint_inj
  original := h.original
  patch := h.patch
  initial := h.initial
  payload := (hshuffled.everyObject not_concerns_of_shuffles (hsingle.and h.payload)).mono
    fun _ h => h.2

/-! ## A whole merge -/

section

variable (hempty : m.configuration = .empty) (hvalidator : m.validator = .approveAll)
  (hwell : m.catalogue.WellTyped) (hderived : m.catalogue.Derived)
  (horiginal : Typed m.catalogue (.object original.type original.fields))

include hempty hvalidator hwell hderived horiginal

/-- A merge that succeeds does so with another patch and another payload that can do what the
first ones do, and does the same up to the names of the identities that it gives out. -/
theorem merge_of_reorders {patch' : Node} {members members' : List (String × Json)}
    {report : Report}
    (hreorders : Effect.Reorders
      (m.effects [] patch original.type (Directive.ofMembers m.options members))
      (m.effects [] patch' original.type (Directive.ofMembers m.options members')))
    (hunseen : m.Unseen patch' original (.object members') minted limit)
    (hlimit : (m.merge patch original (.object members) minted).minted ≤ limit)
    (hok : (m.merge patch original (.object members) minted).result = .ok report) :
    ∃ ρ : Equiv.Perm Uuid,
      (∀ id, id ∉ m.supply minted (m.merge patch original (.object members) minted).minted →
        ρ id = id) ∧
      (m.merge patch original (.object members) minted).SameUpTo ρ
        (m.merge patch' original (.object members') minted) := by
  obtain ⟨_, made, s, ⟨⟩, hwalk, rfl, heq⟩ := Walks.of_merge hok
  rw [heq] at hlimit ⊢
  obtain ⟨ids, changes, heffect, hadvances⟩ :=
    runsEffect hempty hwell hderived _ horiginal hwalk
  obtain ⟨ids', changes', hids, hchanges, heffect'⟩ := hreorders heffect
  have hminted : s.minted = minted + ids.length := hadvances.minted_eq
  -- the identities that are given out take the places of those that were taken up
  obtain ⟨ρ, hmap, hfixes⟩ := exists_perm_map_eq hids
    (hids.nodup_iff.2 (hadvances.issued.nodup (hminted ▸ hlimit) hunseen.mint_inj))
  have hkept : ∀ id, id ∉ m.supply minted s.minted → ρ id = id := fun id hid =>
    hfixes id fun hmem => hid (hminted ▸ hadvances.issued.mem_supply (hids.mem_iff.1 hmem))
  have hrenames : m.Renames (m.supply minted limit) ρ :=
    ⟨ρ.injective, fun id hid => hkept id fun hmem => hid (supply_mono hlimit hmem),
      hunseen.initial⟩
  have hrenamed := renamesEffect hrenames (Directive.ofMembers m.options members')
    hunseen.payload.every_ofMembers hunseen.patch heffect'
  have hsame : Slot.renameFields ρ original.fields = original.fields :=
    (Slot.object.inj (Slot.rename_eq_self hrenames.fixes hunseen.original)).2
  rw [hsame, hmap] at hrenamed
  obtain ⟨s', hrun, hadvances'⟩ :=
    effectsRun hvalidator hempty hderived _ hrenamed hadvances.issued
  have heq' : m.merge patch' original (.object members') minted =
      ⟨.ok s'.report, ⟨original.type, Slot.renameFields ρ made⟩, s'.sent, s'.minted⟩ := by
    have hrun : m.applyMembers patch' original members' (Session.start minted) =
        .ok (Slot.renameFields ρ made) s' := hrun
    rw [merge_object, hrun]
    rfl
  rw [heq']
  refine ⟨ρ, hkept, ⟨s.report, s'.report, rfl, rfl, ?_⟩, rfl, ?_⟩
  · rw [hadvances'.changes_eq, hadvances.changes_eq, List.map_append]
    exact hchanges.map _
  · exact hadvances'.minted_eq.trans hadvances.minted_eq.symm

/-- A merge that succeeds does so with the keys of its payload in another order, and does the
same up to the names of the identities that it gives out. -/
theorem merge_of_shuffled {report : Report} (hshuffled : payload.Shuffled payload')
    (hclear : m.Unambiguous (.owner original.type) payload)
    (hsingle : payload.EveryObject Json.SingleIdentity)
    (hunseen : m.Unseen patch original payload minted limit)
    (hlimit : (m.merge patch original payload minted).minted ≤ limit)
    (hok : (m.merge patch original payload minted).result = .ok report) :
    ∃ ρ : Equiv.Perm Uuid,
      (∀ id, id ∉ m.supply minted (m.merge patch original payload minted).minted → ρ id = id) ∧
      (m.merge patch original payload minted).SameUpTo ρ
        (m.merge patch original payload' minted) := by
  obtain ⟨members, -, -, rfl, -⟩ := Walks.of_merge hok
  obtain ⟨members', rfl⟩ := hshuffled.exists_members
  exact merge_of_reorders hempty hvalidator hwell hderived horiginal
    (reorders_of_shuffled hshuffled hclear hsingle) (hunseen.shuffled hsingle hshuffled) hlimit hok

/-- The order of the keys of a payload neither decides whether a merge succeeds, nor which
changes it makes, nor what it leaves, up to the names of the identities that it gives out. -/
theorem merge_shuffled (hshuffled : payload.Shuffled payload')
    (hclear : m.Unambiguous (.owner original.type) payload)
    (hsingle : payload.EveryObject Json.SingleIdentity)
    (hunseen : m.Unseen patch original payload minted limit)
    (hlimit : (m.merge patch original payload minted).minted ≤ limit)
    (hlimit' : (m.merge patch original payload' minted).minted ≤ limit) :
    ((∃ report, (m.merge patch original payload minted).result = .ok report) ↔
      ∃ report', (m.merge patch original payload' minted).result = .ok report') ∧
    ((∃ report, (m.merge patch original payload minted).result = .ok report) →
      ∃ ρ : Equiv.Perm Uuid,
        (∀ id, id ∉ m.supply minted (m.merge patch original payload minted).minted →
          ρ id = id) ∧
        (m.merge patch original payload minted).SameUpTo ρ
          (m.merge patch original payload' minted)) := by
  refine ⟨⟨?_, ?_⟩, ?_⟩
  · rintro ⟨report, hok⟩
    obtain ⟨-, -, ⟨-, report', -, hok', -⟩, -, -⟩ := merge_of_shuffled hempty hvalidator hwell
      hderived horiginal hshuffled hclear hsingle hunseen hlimit hok
    exact ⟨report', hok'⟩
  · rintro ⟨report', hok'⟩
    obtain ⟨-, -, ⟨-, report, -, hok, -⟩, -, -⟩ := merge_of_shuffled hempty hvalidator hwell
      hderived horiginal hshuffled.symm (hshuffled.unambiguous hclear)
      (hshuffled.everyObject Json.Shuffles.singleIdentity hsingle)
      (hunseen.shuffled hsingle hshuffled) hlimit' hok'
    exact ⟨report, hok⟩
  · rintro ⟨report, hok⟩
    exact merge_of_shuffled hempty hvalidator hwell hderived horiginal hshuffled hclear hsingle
      hunseen hlimit hok

end

end Merger

/-! ## Branches of a tree -/

namespace Sample

/-- A tree without branches. -/
def stem : Node := ⟨"Tree", sapling 1 "stem" []⟩

/-- The tree with a branch to either side. -/
def fork : Node :=
  ⟨"Tree", [.leaf .uuid (.uuid ⟨1⟩), .leaf .text (.text "stem"), .collection "Tree" [],
    .dictionary "Tree" [("east", sapling 2 "East" []), ("west", sapling 3 "West" [])]]⟩

/-- A payload with the names of two branches. -/
def namesOfBranches (first second : String) : Json :=
  .object [("Branches",
    .object [(first, .object [("Name", .null)]), (second, .object [("Name", .null)])])]

theorem namesOfBranches_shuffled (first second : String) :
    (namesOfBranches first second).Shuffled (namesOfBranches second first) :=
  .single (@Json.Shuffles.member [] [] "Branches" _ _ (.keys (.swap ..)))

theorem namesOfBranches_unambiguous {first second : String} (hne : first ≠ second) :
    nursery.Unambiguous (.owner "Tree") (namesOfBranches first second) := by
  have hname : nursery.Unambiguous (.owner "Tree") (.object [("Name", .null)]) := by
    refine .of_owner (by decide) (by simp) fun a ha => ?_
    obtain rfl := List.mem_singleton.1 ha
    exact .null
  refine .of_owner (List.nodup_singleton _) (by simp) fun a ha => ?_
  obtain rfl := List.mem_singleton.1 ha
  have hunder : nursery.under (.owner "Tree") "Branches" = .entries "Tree" := by decide +kernel
  rw [hunder]
  refine .object (by simpa using hne) (by rintro _ _ ⟨⟩) fun a ha => ?_
  rcases List.mem_pair.1 ha with rfl | rfl <;> exact hname

/-- The payload is about no element of an array. -/
theorem namesOfBranches_everyObject {p : List (String × Json) → Prop} {first second : String}
    (hp : ∀ members : List (String × Json), (∀ a ∈ members, isIdentityKey a.1 = false) → p members)
    (hfirst : isIdentityKey first = false) (hsecond : isIdentityKey second = false) :
    (namesOfBranches first second).EveryObject p := by
  have hname : Json.EveryObject p (.object [("Name", .null)]) := by
    refine .object (hp _ (by decide)) fun a ha => ?_
    obtain rfl := List.mem_singleton.1 ha
    exact .null
  have hbranches : isIdentityKey "Branches" = false := by decide
  refine .object (hp _ (by simp [hbranches])) fun a ha => ?_
  obtain rfl := List.mem_singleton.1 ha
  refine .object (hp _ (by simp [hfirst, hsecond])) fun a ha => ?_
  rcases List.mem_pair.1 ha with rfl | rfl <;> exact hname

theorem notMem_nursery_supply {id : Uuid} {minted limit : Nat} (hfirst : id.bits.msb = false) :
    id ∉ nursery.supply minted limit := by
  rintro ⟨n, -, -, rfl⟩
  rw [nursery_mint_msb] at hfirst
  cases hfirst

theorem uuid_avoids {id : Uuid} {minted limit : Nat} (hfirst : id.bits.msb = false) :
    (Slot.leaf .uuid (.uuid id)).Avoids (nursery.supply minted limit) := by
  refine .leaf fun other hother hreads => ?_
  obtain rfl := Cell.reads_uuid_iff.1 hreads
  exact notMem_nursery_supply hfirst hother

theorem text_avoids {name : String} {ids : Set Uuid} (hname : Uuid.ofText? name = none) :
    (Slot.leaf .text (.text name)).Avoids ids := by
  refine .leaf fun id _ hreads => ?_
  have hread := hreads.of_text rfl
  rw [hname] at hread
  cases hread

theorem sapling_avoids {id : Nat} {name : String} {children : List Fields} {minted limit : Nat}
    (hfirst : (BitVec.ofNat 128 id).msb = false) (hname : Uuid.ofText? name = none)
    (hchildren : ∀ child ∈ children,
      (Slot.object "Tree" child).Avoids (nursery.supply minted limit)) :
    (Slot.object "Tree" (sapling id name children)).Avoids (nursery.supply minted limit) := by
  refine .object fun slot hslot => ?_
  simp only [sapling, List.mem_cons, List.not_mem_nil, or_false] at hslot
  rcases hslot with rfl | rfl | rfl | rfl
  · exact uuid_avoids hfirst
  · exact text_avoids hname
  · exact .collection hchildren
  · exact .dictionary (by simp)

theorem initial_avoids {minted limit : Nat} (type : TypeName) :
    (Slot.object type (nursery.catalogue type).initialFields).Avoids
      (nursery.supply minted limit) := by
  refine .object fun slot hslot => ?_
  simp only [nursery, Merger.plain, Schema.initialFields, tree, Plan.identifiedSchema,
    Plan.schema, Plan.fields, List.map_cons, List.map_nil, List.mem_cons, List.not_mem_nil,
    or_false] at hslot
  rcases hslot with rfl | rfl | rfl | rfl
  · exact uuid_avoids (by decide)
  · exact text_avoids (by decide)
  · exact .collection (by simp)
  · exact .dictionary (by simp)

theorem not_concerns {options : Options} {members : List (String × Json)} {id : Uuid}
    (h : ∀ a ∈ members, isIdentityKey a.1 = false) : ¬ Intent.Concerns options members id := by
  have hnone : members.find? (fun a => isIdentityKey a.1) = none := by simpa using h
  rintro ⟨full, hasks | hasks⟩ <;> simp [Intent.ofMembers, hnone] at hasks

theorem branches_unseen :
    nursery.Unseen fork stem (namesOfBranches "east" "west") 0 8 where
  mint_inj := fun a b _ hlt hlimit => nursery_mint_inj b hlimit a hlt
  original := sapling_avoids (by decide) (by decide) (by simp)
  patch := by
    refine .object fun slot hslot => ?_
    simp only [fork, List.mem_cons, List.not_mem_nil, or_false] at hslot
    rcases hslot with rfl | rfl | rfl | rfl
    · exact uuid_avoids (by decide)
    · exact text_avoids (by decide)
    · exact .collection (by simp)
    · refine .dictionary fun entry hentry => ?_
      rcases List.mem_pair.1 hentry with rfl | rfl <;>
        exact sapling_avoids (by decide) (by decide) (by simp)
  initial := initial_avoids
  payload := namesOfBranches_everyObject (fun _ hnone _ _ => not_concerns hnone) (by decide)
    (by decide)

end Sample

/-- Both branches are made, and it depends on the order of their keys which of the first two
identities which of them gets. -/
theorem merge_shuffled_nursery :
    (Sample.nursery.merge Sample.fork Sample.stem
        (Sample.namesOfBranches "east" "west") 0).minted = 2 ∧
      (Sample.nursery.merge Sample.fork Sample.stem
          (Sample.namesOfBranches "east" "west") 0).result =
        .ok ⟨[⟨⟨["Branches", "east", "Name"]⟩, .updated, none⟩,
          ⟨⟨["Branches", "west", "Name"]⟩, .updated, none⟩]⟩ ∧
      ∃ ρ : Equiv.Perm Uuid,
        (∀ id, id ∉ Sample.nursery.supply 0 2 → ρ id = id) ∧
        (Sample.nursery.merge Sample.fork Sample.stem
          (Sample.namesOfBranches "east" "west") 0).SameUpTo ρ
          (Sample.nursery.merge Sample.fork Sample.stem
            (Sample.namesOfBranches "west" "east") 0) := by
  have hminted : (Sample.nursery.merge Sample.fork Sample.stem
      (Sample.namesOfBranches "east" "west") 0).minted = 2 := by
    decide +kernel
  have hminted' : (Sample.nursery.merge Sample.fork Sample.stem
      (Sample.namesOfBranches "west" "east") 0).minted ≤ 8 := by
    decide +kernel
  have hok : (Sample.nursery.merge Sample.fork Sample.stem
      (Sample.namesOfBranches "east" "west") 0).result =
        .ok ⟨[⟨⟨["Branches", "east", "Name"]⟩, .updated, none⟩,
          ⟨⟨["Branches", "west", "Name"]⟩, .updated, none⟩]⟩ := by
    decide +kernel
  have hsingle : (Sample.namesOfBranches "east" "west").EveryObject Json.SingleIdentity := by
    refine Sample.namesOfBranches_everyObject (fun members hnone => ?_) (by decide) (by decide)
    rw [Json.SingleIdentity, List.countP_eq_zero.2 (by simpa using hnone)]
    exact Nat.zero_le 1
  obtain ⟨-, hrenamed⟩ := Merger.merge_shuffled rfl rfl Sample.nursery_wellTyped
    Sample.nursery_derived (Sample.sapling_typed 1 "stem" (by simp))
    (Sample.namesOfBranches_shuffled "east" "west")
    (Sample.namesOfBranches_unambiguous (by decide)) hsingle Sample.branches_unseen
    (hminted.trans_le (by decide)) hminted'
  refine ⟨hminted, hok, ?_⟩
  have hrenamed := hrenamed ⟨_, hok⟩
  rwa [hminted] at hrenamed

end SelectiveMerge
