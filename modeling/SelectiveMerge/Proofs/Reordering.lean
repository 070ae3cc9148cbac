import Mathlib.Logic.Relation
import SelectiveMerge.Proofs.Exchange

/-!
# Keys in another order

The keys of an object in a payload can be put in another order, and so can those of the
objects inside. When no two keys of an object denote one member, and no object has two
identity keys, the directives of such a payload have the same effect.

* `Json.Shuffles`, `Json.Shuffled` — the keys of one object, or of some, in another order
* `Merger.pairwise_apart_levels` — the directives of a payload lead past each other
* `Merger.reorders_of_shuffled` — so their effect does not depend on the order of the keys
-/

namespace SelectiveMerge

namespace Json

/-- One object in a value, at any depth, has its keys in another order. -/
inductive Shuffles : Json → Json → Prop where
  | keys {members members' : List (String × Json)} (hperm : members.Perm members') :
      Shuffles (.object members) (.object members')
  | member {before after : List (String × Json)} {key : String} {value value' : Json}
      (hvalue : Shuffles value value') :
      Shuffles (.object (before ++ (key, value) :: after))
        (.object (before ++ (key, value') :: after))
  | item {before after : List Json} {value value' : Json} (hvalue : Shuffles value value') :
      Shuffles (.array (before ++ value :: after)) (.array (before ++ value' :: after))

/-- The objects in a value have their keys in any order. -/
def Shuffled : Json → Json → Prop := Relation.ReflTransGen Shuffles

/-- All objects in a value have members with a property. -/
inductive EveryObject (p : List (String × Json) → Prop) : Json → Prop where
  | object {members : List (String × Json)} (hobject : p members)
      (hmembers : ∀ a ∈ members, EveryObject p a.2) : EveryObject p (.object members)
  | array {items : List Json} (hitems : ∀ item ∈ items, EveryObject p item) :
      EveryObject p (.array items)
  | string {text : String} : EveryObject p (.string text)
  | number {n : JsonNumber} : EveryObject p (.number n)
  | bool {b : Bool} : EveryObject p (.bool b)
  | null : EveryObject p .null

/-- An object has one identity key at most. -/
def SingleIdentity (members : List (String × Json)) : Prop :=
  members.countP (fun a => isIdentityKey a.1) ≤ 1

variable {value value' : Json} {p : List (String × Json) → Prop}

theorem Shuffles.symm (h : Shuffles value value') : Shuffles value' value := by
  induction h with
  | keys hperm => exact .keys hperm.symm
  | member _ ih => exact .member ih
  | item _ ih => exact .item ih

theorem Shuffled.symm (h : Shuffled value value') : Shuffled value' value := by
  induction h with
  | refl => exact .refl
  | tail _ hlast ih => exact .head hlast.symm ih

/-- A value stays an object, or stays none. -/
theorem Shuffles.isObject_eq (h : Shuffles value value') : value'.isObject = value.isObject := by
  cases h <;> rfl

theorem Shuffles.asksRemoval_eq (h : Shuffles value value') :
    Intent.asksRemoval value' = Intent.asksRemoval value := by
  cases h <;> rfl

/-- A property of objects that does not depend on the order of keys is kept. -/
theorem Shuffles.everyObject
    (hp : ∀ {members members' : List (String × Json)},
      Shuffles (.object members) (.object members') → p members → p members')
    (h : Shuffles value value') (hvalue : EveryObject p value) : EveryObject p value' := by
  induction h with
  | keys hperm =>
    obtain ⟨hobject, hmembers⟩ := hvalue
    exact .object (hp (.keys hperm) hobject) fun a ha => hmembers a (hperm.mem_iff.2 ha)
  | member hinner ih =>
    obtain ⟨hobject, hmembers⟩ := hvalue
    refine .object (hp (.member hinner) hobject) ?_
    rw [List.forall_mem_append, List.forall_mem_cons] at hmembers ⊢
    exact ⟨hmembers.1, ih hmembers.2.1, hmembers.2.2⟩
  | item _ ih =>
    cases hvalue with
    | array hitems =>
      rw [List.forall_mem_append, List.forall_mem_cons] at hitems
      refine .array ?_
      rw [List.forall_mem_append, List.forall_mem_cons]
      exact ⟨hitems.1, ih hitems.2.1, hitems.2.2⟩

theorem Shuffles.singleIdentity {members members' : List (String × Json)}
    (h : Shuffles (.object members) (.object members')) (hsingle : SingleIdentity members) :
    SingleIdentity members' := by
  unfold SingleIdentity at hsingle ⊢
  cases h with
  | keys hperm => rwa [← hperm.countP_eq]
  | member => rwa [List.countP_append, List.countP_cons] at hsingle ⊢

end Json

/-! ## What the keys of an element say -/

/-- What is found once at most is found in any order. -/
theorem find?_perm {α : Type} {p : α → Bool} {xs ys : List α} (hperm : xs.Perm ys)
    (hcount : xs.countP p ≤ 1) : ys.find? p = xs.find? p := by
  have hfilter := hperm.filter p
  rw [List.countP_eq_length_filter] at hcount
  rw [← List.head?_filter, ← List.head?_filter]
  generalize xs.filter p = found at hfilter hcount
  cases found with
  | nil => rw [List.nil_perm.1 hfilter]
  | cons x rest =>
    obtain rfl : rest = [] := List.length_eq_zero_iff.1 (by simpa using hcount)
    rw [List.singleton_perm.1 hfilter]

namespace Intent

variable {options : Options} {full : Path} {members members' : List (String × Json)}
  {intent : Intent}

/-- An element asks for the same with its keys in another order. -/
theorem ofMembers_of_shuffles (h : Json.Shuffles (.object members) (.object members'))
    (hsingle : Json.SingleIdentity members)
    (hok : ofMembers options full members = .ok intent) :
    ofMembers options full members' = .ok intent := by
  rw [← hok]
  cases h with
  | keys hperm =>
    unfold ofMembers ofIdentity
    rw [find?_perm hperm hsingle, hperm.any_eq]
  | @member before after key value value' hvalue =>
    unfold ofMembers ofIdentity at hok ⊢
    simp only [List.find?_append, List.find?_cons, List.any_append, List.any_cons,
      hvalue.asksRemoval_eq] at hok ⊢
    cases hbefore : before.find? fun a => isIdentityKey a.1 with
    | some a => rfl
    | none =>
      cases hid : isIdentityKey key with
      | false => rfl
      | true =>
        -- the identity would have to be an object or an array
        rw [hbefore, hid] at hok
        cases hvalue <;> cases hok

end Intent

/-- Two values that are objects alike, of which the second one asks for what the first one asks
for when they are elements of an array. -/
structure Json.AsksAlike (options : Options) (value value' : Json) : Prop where
  isObject_eq : value'.isObject = value.isObject
  intent : ∀ {members members' : List (String × Json)} {full : Path} {intent : Intent},
    value = .object members → value' = .object members' →
    Intent.ofMembers options full members = .ok intent →
    Intent.ofMembers options full members' = .ok intent

theorem Json.Shuffles.asksAlike {options : Options} {value value' : Json}
    (h : value.Shuffles value') (hsingle : value.EveryObject Json.SingleIdentity) :
    value.AsksAlike options value' where
  isObject_eq := h.isObject_eq
  intent := by
    rintro members members' full intent rfl rfl
    obtain ⟨hsingle, -⟩ := hsingle
    exact Intent.ofMembers_of_shuffles h hsingle

/-! ## The directives lead past each other -/

open Merger (Unambiguous)

/-- A payload in another order is as unambiguous. -/
theorem Json.Shuffles.unambiguous {m : Merger} {place : Place} {value value' : Json}
    (h : value.Shuffles value') (hclear : m.Unambiguous place value) :
    m.Unambiguous place value' := by
  induction h generalizing place with
  | keys hperm =>
    obtain ⟨hkeys, hdenotes, hmembers⟩ := hclear
    exact .object ((hperm.map _).nodup_iff.1 hkeys)
      (fun type i htype a ha b hb => hdenotes type i htype a (hperm.mem_iff.2 ha) b
        (hperm.mem_iff.2 hb))
      fun a ha => hmembers a (hperm.mem_iff.2 ha)
  | @member before after key value value' _ ih =>
    obtain ⟨hkeys, hdenotes, hmembers⟩ := hclear
    have hsame : (before ++ (key, value') :: after).map (·.1) =
        (before ++ (key, value) :: after).map (·.1) := by simp
    -- each member has a counterpart with its key
    have hcounterpart : ∀ a ∈ before ++ (key, value') :: after,
        ∃ b ∈ before ++ (key, value) :: after, b.1 = a.1 := by
      intro a ha
      have hkey := List.mem_map_of_mem (f := (·.1)) ha
      rw [hsame] at hkey
      exact List.mem_map.1 hkey
    refine .object (hsame ▸ hkeys) ?_ ?_
    · intro type i htype a ha b hb hi hi'
      obtain ⟨a', ha', haa⟩ := hcounterpart a ha
      obtain ⟨b', hb', hbb⟩ := hcounterpart b hb
      rw [← haa] at hi
      rw [← hbb] at hi'
      rw [← haa, ← hbb]
      exact hdenotes type i htype a' ha' b' hb' hi hi'
    · rw [List.forall_mem_append, List.forall_mem_cons] at hmembers ⊢
      exact ⟨hmembers.1, ih hmembers.2.1, hmembers.2.2⟩
  | item _ ih =>
    cases hclear with
    | array hitems =>
      rw [List.forall_mem_append, List.forall_mem_cons] at hitems
      refine .array ?_
      rw [List.forall_mem_append, List.forall_mem_cons]
      exact ⟨hitems.1, ih hitems.2.1, hitems.2.2⟩

namespace Merger

variable {m : Merger} {place : Place} {keys rest rest' : List String}

theorem apart_append_iff :
    m.Apart place (keys ++ rest) (keys ++ rest') ↔
      m.Apart (keys.foldl m.under place) rest rest' := by
  induction keys generalizing place with
  | nil => rfl
  | cons key keys ih =>
    rw [List.cons_append, List.cons_append, apart_cons_iff, List.foldl_cons, ← ih]
    simp

open Directive (levels memberLevels)

mutual

/-- The directives of a value lead past each other. -/
theorem pairwise_apart_levels (path : List String) : (value : Json) →
    m.Unambiguous (path.foldl m.under place) value →
    (levels m.options path value).flatten.Pairwise fun d d' => m.Apart place d.path d'.path
  | .object members, h => by
    obtain ⟨hkeys, hdenotes, hmembers⟩ := h
    rw [levels, List.flatten_cons, List.nil_append]
    exact pairwise_apart_memberLevels path members hkeys hdenotes hmembers
  | .array _, _ | .null, _ | .bool _, _ | .number _, _ | .string _, _ => by
    rw [levels, List.flatten_cons, List.flatten_nil, List.append_nil]
    exact List.pairwise_singleton ..

theorem pairwise_apart_memberLevels (path : List String) : (members : List (String × Json)) →
    (members.map (·.1)).Nodup →
    (∀ type i, path.foldl m.under place = .owner type → ∀ a ∈ members, ∀ b ∈ members,
      m.number? Member.writes type a.1 = some i → m.number? Member.writes type b.1 = some i →
      a.1 = b.1) →
    (∀ a ∈ members, m.Unambiguous (m.under (path.foldl m.under place) a.1) a.2) →
    (memberLevels m.options path members).flatten.Pairwise
      fun d d' => m.Apart place d.path d'.path
  | [], _, _, _ => by simp [memberLevels]
  | (key, value) :: members, hkeys, hdenotes, hmembers => by
    rw [List.map_cons, List.nodup_cons] at hkeys
    have htail := pairwise_apart_memberLevels path members hkeys.2
      (fun type i htype a ha b hb => hdenotes type i htype a (List.mem_cons_of_mem _ ha) b
        (List.mem_cons_of_mem _ hb))
      fun a ha => hmembers a (List.mem_cons_of_mem _ ha)
    have hhead := pairwise_apart_levels (path ++ [key]) value
      (by simpa using hmembers _ (List.mem_cons_self ..))
    rw [memberLevels]
    split
    · exact htail
    · rw [(Directive.perm_flatten_joinLevels _ _).pairwise_iff fun h => h.symm,
        List.pairwise_append]
      refine ⟨hhead, htail, ?_⟩
      -- those of two members part at their keys
      intro d hd d' hd'
      obtain ⟨rest, leaf, -, rfl⟩ := (Directive.mem_levels_iff (path ++ [key]) value).1 hd
      obtain ⟨other, value', rest', leaf', hmember, -, -, rfl⟩ :=
        (Directive.mem_memberLevels_iff path members).1 hd'
      rw [Directive.path_ofValue, Directive.path_ofValue, List.append_assoc, apart_append_iff]
      refine apart_cons_iff.2 (.inr ⟨?_, fun type i htype hi hi' => ?_⟩)
      · rintro rfl
        exact hkeys.1 (List.mem_map.2 ⟨_, hmember, rfl⟩)
      · obtain rfl : key = other := hdenotes type i htype _ (List.mem_cons_self ..) _
          (List.mem_cons_of_mem _ hmember) hi hi'
        exact hkeys.1 (List.mem_map.2 ⟨_, hmember, rfl⟩)

end

/-! ## What keys lead to -/

variable {full : Path} {act act' : Act} {view : Option View} {old new : Slot}
  {ids : List Uuid} {changes : List Change}

/-- What is done where keys lead to may be done with identities and changes in another
order. -/
theorem Lands.reorder
    (hact : ∀ {view : Option View} {inner made : Slot} {ids : List Uuid} {changes : List Change},
      inner.place = keys.foldl m.under old.place → act view inner ids changes made →
      ∃ ids' changes', ids'.Perm ids ∧ changes'.Perm changes ∧ act' view inner ids' changes' made)
    (h : m.Lands full act keys view old ids changes new) :
    ∃ ids' changes', ids'.Perm ids ∧ changes'.Perm changes ∧
      m.Lands full act' keys view old ids' changes' new := by
  induction h with
  | here h =>
    obtain ⟨ids', changes', hids, hchanges, h'⟩ := hact rfl h
    exact ⟨ids', changes', hids, hchanges, .here h'⟩
  | identity hid => exact ⟨_, _, .refl _, .refl _, .identity hid⟩
  | @field name rest patch type fields pm om i inner made ids changes hid hpm hom hwrites hslot
      hplace hkind _ ih =>
    obtain ⟨ids', changes', hids, hchanges, hrest⟩ := ih fun hinner =>
      hact (by rw [List.foldl_cons, Slot.place, hplace]; exact hinner)
    exact ⟨ids', changes', hids, hchanges,
      .field hid hpm hom hwrites hslot hplace hkind hrest⟩
  | optional hprovides _ ih =>
    obtain ⟨ids', changes', hids, hchanges, hrest⟩ := ih hact
    exact ⟨_, changes', hids.append_left _, hchanges, .optional hprovides hrest⟩
  | entry hpatch hprovides _ ih =>
    obtain ⟨ids', changes', hids, hchanges, hrest⟩ := ih hact
    exact ⟨_, changes', hids.append_left _, hchanges, .entry hpatch hprovides hrest⟩
  | cell hsource hencode hcoerce =>
    exact ⟨_, _, .refl _, .refl _, .cell hsource hencode hcoerce⟩

theorem ArrayTakes.reorder {elements elements' : List Element}
    {inner inner' : TypeName → List Fields → TypeName → Effect (List Fields)}
    (hnil : elements' = [] ↔ elements = [])
    (hobjects : (∀ e ∈ elements, e.value.isObject = true) →
      ∀ e ∈ elements', e.value.isObject = true)
    (hinner : ∀ patchType patchItems type, view = some (.collection patchType patchItems) →
      old.place = .items type →
      Effect.Reorders (inner patchType patchItems type) (inner' patchType patchItems type))
    (h : m.ArrayTakes full elements inner view old ids changes new) :
    ∃ ids' changes', ids'.Perm ids ∧ changes'.Perm changes ∧
      m.ArrayTakes full elements' inner' view old ids' changes' new := by
  cases h with
  | emptied helements hcell =>
    exact ⟨_, _, .refl _, .refl _, .emptied (hnil.2 helements) hcell⟩
  | assigned helements htakes =>
    exact ⟨_, _, .refl _, .refl _,
      .assigned (fun hkind hnone => helements hkind (hnil.1 hnone)) htakes⟩
  | cleared helements hidentified =>
    exact ⟨_, _, .refl _, .refl _, .cleared (hnil.2 helements) hidentified⟩
  | reconciled hkept hall hitems =>
    obtain ⟨ids', changes', hids, hchanges, hitems'⟩ := hinner _ _ _ rfl rfl hitems
    exact ⟨ids', changes', hids, hchanges,
      .reconciled (fun hnone => hkept (hnil.1 hnone)) (hobjects hall) hitems'⟩

variable {patchType type : TypeName} {patchItems : List Fields} {position : Nat}
  {before after : List Element} {element element' : Element}

/-- An element asks for the same when its directives can be done in another order. -/
theorem ElementTakes.reorders {members members' : List (String × Json)}
    {inner inner' : Node → Effect Fields}
    (hintent : ∀ intent, Intent.ofMembers m.options full members = .ok intent →
      Intent.ofMembers m.options full members' = .ok intent)
    (hinner : ∀ patchItem ∈ patchItems,
      Effect.Reorders (inner ⟨patchType, patchItem⟩) (inner' ⟨patchType, patchItem⟩)) :
    Effect.Reorders (m.ElementTakes full patchType patchItems type position members inner)
      (m.ElementTakes full patchType patchItems type position members' inner') := by
  rintro items _ _ left h
  cases h with
  | add hasks hpatch hprovides h =>
    obtain ⟨ids', changes', hids, -, h'⟩ := hinner _ (List.mem_of_getElem? hpatch) h
    exact ⟨_, _, hids.append_left _, .refl _, .add (hintent _ hasks) hpatch hprovides h'⟩
  | @update id index item made patchItem _ _ hasks hindex hitem hpatch h =>
    obtain ⟨fields, hfields, rfl⟩ := Option.map_eq_some_iff.1 hpatch
    obtain ⟨found, -, hfound⟩ := Option.bind_eq_some_iff.1 hfields
    obtain ⟨ids', changes', hids, hchanges, h'⟩ := hinner _ (List.mem_of_getElem? hfound) h
    exact ⟨ids', changes', hids, hchanges, .update (hintent _ hasks) hindex hitem hpatch h'⟩
  | remove hasks hindex => exact ⟨_, _, .refl _, .refl _, .remove (hintent _ hasks) hindex⟩

/-- One element may be replaced by another one that asks for the same. -/
theorem elementsEffect_reorders
    (h : ∀ position, Effect.Reorders
      (m.elementEffect full patchType patchItems type position element)
      (m.elementEffect full patchType patchItems type position element')) :
    Effect.Reorders
      (m.elementsEffect full patchType patchItems type position (before ++ element :: after))
      (m.elementsEffect full patchType patchItems type position (before ++ element' :: after)) := by
  induction before generalizing position with
  | nil =>
    simp only [List.nil_append, elementsEffect]
    exact (h position).seq (.refl _)
  | cons e before ih =>
    simp only [List.cons_append, elementsEffect]
    exact (Effect.Reorders.refl _).seq ih

/-! ## Payloads in another order -/

/-- The directives below one key of an object. -/
def directivesBelow (options : Options) (path : List String) (a : String × Json) :
    List Directive :=
  if options.isRemoveMarker a.1 then [] else (levels options (path ++ [a.1]) a.2).flatten

/-- The directives of the members of an object, one member after the other. -/
theorem perm_flatten_memberLevels (options : Options) (path : List String)
    (members : List (String × Json)) :
    (memberLevels options path members).flatten.Perm
      (members.flatMap (directivesBelow options path)) := by
  induction members with
  | nil => exact .refl _
  | cons a members ih =>
    obtain ⟨key, value⟩ := a
    rw [memberLevels, List.flatMap_cons, directivesBelow]
    split
    · simpa using ih
    · exact (Directive.perm_flatten_joinLevels _ _).trans (ih.append_left _)

/-- The directives below one key of an object may come first. -/
theorem perm_directivesBelow (options : Options) (path : List String)
    (before after : List (String × Json)) (a : String × Json) :
    (levels options path (.object (before ++ a :: after))).flatten.Perm
      (directivesBelow options path a ++
        (before ++ after).flatMap (directivesBelow options path)) := by
  rw [levels, List.flatten_cons, List.nil_append]
  refine (perm_flatten_memberLevels ..).trans ?_
  rw [List.flatMap_append, List.flatMap_append, List.flatMap_cons]
  exact List.perm_append_comm_assoc ..

theorem elementEffect_of_not_isObject {value : Json} {directives : List Directive}
    (h : value.isObject = false) :
    m.elementEffect full patchType patchItems type position (.mk value directives) =
      Effect.Idle := by
  cases value with
  | object => cases h
  | _ => rw [elementEffect]; rintro _ ⟨⟩

theorem elementEffect_reorders {value value' : Json} (h : value.AsksAlike m.options value')
    (hinner : ∀ patchItem ∈ patchItems, Effect.Reorders
      (m.effects full.segments ⟨patchType, patchItem⟩ type (levels m.options [] value).flatten)
      (m.effects full.segments ⟨patchType, patchItem⟩ type
        (levels m.options [] value').flatten)) :
    Effect.Reorders
      (m.elementEffect full patchType patchItems type position
        (.mk value (Directive.ofItem m.options value)))
      (m.elementEffect full patchType patchItems type position
        (.mk value' (Directive.ofItem m.options value'))) := by
  cases hvalue : value.isObject with
  | true =>
    obtain ⟨members, rfl⟩ := Json.exists_of_isObject hvalue
    obtain ⟨members', rfl⟩ := Json.exists_of_isObject (h.isObject_eq.trans hvalue)
    simp only [elementEffect]
    exact ElementTakes.reorders (fun _ => h.intent rfl rfl) hinner
  | false =>
    rw [elementEffect_of_not_isObject hvalue,
      elementEffect_of_not_isObject (h.isObject_eq.trans hvalue)]
    exact .refl _

/-- An array does the same when one of its elements does the same. -/
theorem arrayAct_reorder {before after : List Json} {value value' : Json}
    (h : value.AsksAlike m.options value')
    (hinner : ∀ {patchType : TypeName} {patchItems : List Fields} {itemType : TypeName},
      view = some (.collection patchType patchItems) → old.place = .items itemType →
      ∀ patchItem ∈ patchItems, Effect.Reorders
        (m.effects full.segments ⟨patchType, patchItem⟩ itemType
          (levels m.options [] value).flatten)
        (m.effects full.segments ⟨patchType, patchItem⟩ itemType
          (levels m.options [] value').flatten))
    (htakes : m.arrayAct full (Directive.elements m.options (before ++ value :: after)) view old
      ids changes new) :
    ∃ ids' changes', ids'.Perm ids ∧ changes'.Perm changes ∧
      m.arrayAct full (Directive.elements m.options (before ++ value' :: after)) view old ids'
        changes' new := by
  simp only [Directive.elements_eq_map, List.map_append, List.map_cons] at htakes ⊢
  refine htakes.reorder (by simp) ?_ fun patchType patchItems itemType hview hitems =>
    elementsEffect_reorders fun position => elementEffect_reorders h (hinner hview hitems)
  intro hobjects
  rw [List.forall_mem_append, List.forall_mem_cons] at hobjects ⊢
  exact ⟨hobjects.1, h.isObject_eq.trans hobjects.2.1, hobjects.2.2⟩

/-- An array has the same effect when one of its elements has the same effect. -/
theorem effect_array_reorders {base path : List String} {patch : Node} {type : TypeName}
    {before after : List Json} {value value' : Json} (h : value.AsksAlike m.options value')
    (hinner : ∀ {base : List String} {patchItem : Node} {itemType : TypeName},
      path.foldl m.under (.owner type) = .items itemType →
      Effect.Reorders (m.effects base patchItem itemType (levels m.options [] value).flatten)
        (m.effects base patchItem itemType (levels m.options [] value').flatten)) :
    Effect.Reorders
      (m.effect base patch type
        (.array path (Directive.elements m.options (before ++ value :: after))))
      (m.effect base patch type
        (.array path (Directive.elements m.options (before ++ value' :: after)))) := by
  simp only [effect]
  exact fun fields ids changes made hlands => hlands.reorder fun hplace htakes =>
    arrayAct_reorder h (fun _ hitems _ _ => hinner (hplace.symm.trans hitems)) htakes

/-- Directives have the same effect when one object of a payload has its keys in another
order. -/
theorem reorders_of_shuffles {value value' : Json} (h : value.Shuffles value') :
    ∀ {base path : List String} {patch : Node} {type : TypeName},
      m.Unambiguous (path.foldl m.under (.owner type)) value →
      value.EveryObject Json.SingleIdentity →
      Effect.Reorders (m.effects base patch type (levels m.options path value).flatten)
        (m.effects base patch type (levels m.options path value').flatten) := by
  induction h with
  | keys hperm =>
    intro base path patch type hclear _
    refine effects_perm ?_ (pairwise_apart_levels path _ hclear)
    simp only [levels, List.flatten_cons, List.nil_append]
    exact (perm_flatten_memberLevels ..).trans
      ((hperm.flatMap_right _).trans (perm_flatten_memberLevels ..).symm)
  | @member before after key value value' hvalue ih =>
    intro base path patch type hclear hsingle
    have hclear' := hvalue.member.unambiguous hclear
    obtain ⟨-, hmembers⟩ := hsingle
    have hbelow : Effect.Reorders
        (m.effects base patch type (directivesBelow m.options path (key, value)))
        (m.effects base patch type (directivesBelow m.options path (key, value'))) := by
      unfold directivesBelow
      split
      · exact .refl _
      · have hmember : (key, value) ∈ before ++ (key, value) :: after := by simp
        refine ih ?_ (hmembers _ hmember)
        rw [List.foldl_append]
        exact hclear.member hmember
    -- the directives below the key come first, then the other ones
    have hperm := perm_directivesBelow m.options path before after (key, value)
    have hperm' := perm_directivesBelow m.options path before after (key, value')
    refine (effects_perm hperm (pairwise_apart_levels path _ hclear)).trans ?_
    refine .trans ?_ (effects_perm hperm'.symm ?_)
    · rw [effects_append, effects_append]
      exact hbelow.seq (.refl _)
    · exact (hperm'.pairwise_iff fun h => h.symm).1 (pairwise_apart_levels path _ hclear')
  | @item before after value value' hvalue ih =>
    intro base path patch type hclear hsingle
    have hsingle : value.EveryObject Json.SingleIdentity := by
      cases hsingle with
      | array hitems => exact hitems value (by simp)
    simp only [levels, List.flatten_cons, List.flatten_nil, List.append_nil, effects]
    refine (effect_array_reorders (hvalue.asksAlike hsingle) fun hplace => ih ?_ hsingle).seq
      (.refl _)
    rw [hplace] at hclear
    exact hclear.item (by simp)

/-- A payload has the same effect with its keys in any order. -/
theorem reorders_of_shuffled {base : List String} {patch : Node} {type : TypeName}
    {members members' : List (String × Json)}
    (h : Json.Shuffled (.object members) (.object members'))
    (hclear : m.Unambiguous (.owner type) (.object members))
    (hsingle : Json.EveryObject Json.SingleIdentity (.object members)) :
    Effect.Reorders (m.effects base patch type (Directive.ofMembers m.options members))
      (m.effects base patch type (Directive.ofMembers m.options members')) := by
  have hvalues {value : Json} (h : Json.Shuffled (.object members) value) :
      m.Unambiguous (.owner type) value ∧ value.EveryObject Json.SingleIdentity ∧
        Effect.Reorders
          (m.effects base patch type (levels m.options [] (.object members)).flatten)
          (m.effects base patch type (levels m.options [] value).flatten) := by
    induction h with
    | refl => exact ⟨hclear, hsingle, .refl _⟩
    | tail _ hlast ih =>
      obtain ⟨hclear, hsingle, heffect⟩ := ih
      exact ⟨hlast.unambiguous hclear, hlast.everyObject Json.Shuffles.singleIdentity hsingle,
        heffect.trans (reorders_of_shuffles hlast hclear hsingle)⟩
  obtain ⟨-, -, heffect⟩ := hvalues h
  simp only [levels, List.flatten_cons, List.nil_append] at heffect
  exact heffect

end Merger

end SelectiveMerge
