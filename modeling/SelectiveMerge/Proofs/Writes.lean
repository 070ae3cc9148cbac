import SelectiveMerge.Proofs.Unambiguous

/-!
# Writing at the end of a path

What a directive does to an object is to write at the end of its path. The objects that
are missing on the way are made, nothing else changes: another path of an unambiguous
payload is spared.

* `Merger.Writes` — what is at the end of a path is replaced
* `Writes.held?_eq`, `Writes.conforms` — what was written is there, as it is declared
* `Writes.spares` — other paths of the payload are spared
* `Hop.writes` — a write further on is a write from where a hop started
-/

namespace SelectiveMerge.Merger

/-- At the end of a path, `before` is replaced by `after`; if these are `none`, nothing is
written. -/
inductive Writes (m : Merger) :
    List String → (before after : Option Spot) → (old new : Slot) → Prop where
  | here {old new : Slot} : Writes m [] (some (.slot old)) (some (.slot new)) old new
  | idle {key : String} {rest : List String} {slot : Slot} :
      Writes m (key :: rest) none none slot slot
  | member {name : String} {rest : List String} {before after : Option Spot} {type : TypeName}
      {fields : Fields} {i : Nat} {old new : Slot}
      (hnumber : m.number? Member.writes type name = some i) (hslot : fields[i]? = some old)
      (hrest : Writes m rest before after old new) :
      Writes m (name :: rest) before after (.object type fields)
        (.object type (fields.set i new))
  | optional {key : String} {rest : List String} {before after : Option Spot}
      {type : TypeName} {present : Option Fields} {fields made : Fields} {s t : Session}
      (hensures : m.Ensures type s present fields t)
      (hinner : Writes m (key :: rest) before after (.object type fields) (.object type made)) :
      Writes m (key :: rest) before after (.optional type present) (.optional type (some made))
  | entry {key : String} {rest : List String} {before after : Option Spot} {type : TypeName}
      {entries : List (String × Fields)} {fields made : Fields} {s t : Session}
      (hensures : m.Ensures type s (Dictionary.find? key entries) fields t)
      (hrest : Writes m rest before after (.object type fields) (.object type made)) :
      Writes m (key :: rest) before after (.dictionary type entries)
        (.dictionary type (Dictionary.insert key made entries))
  | cell {key : String} {type : LeafType} {entries : List (String × Cell)} {cell : Cell} :
      Writes m [key] ((Dictionary.find? key entries).map (.entry type))
        (some (.entry type cell)) (.leafDictionary type entries)
        (.leafDictionary type (Dictionary.insert key cell entries))

variable {m : Merger} {s s' : Session} {path : List String} {before after : Option Spot}
  {old new : Slot}

namespace Writes

/-- What was written is there afterwards. -/
theorem held?_eq (h : m.Writes path before after old new) {spot : Spot}
    (hafter : after = some spot) : m.held? new path = some spot := by
  induction h with
  | here => exact hafter
  | idle => cases hafter
  | member hnumber hslot _ ih =>
    obtain ⟨hi, -⟩ := List.getElem?_eq_some_iff.1 hslot
    rw [held?, spot?_object_of_number? hnumber (List.getElem?_set_self hi)]
    exact ih hafter
  | optional _ _ ih =>
    rw [held?, spot?_optional_cons]
    exact ih hafter
  | entry _ _ ih =>
    rw [held?, spot?_dictionary_cons, Dictionary.find?_insert_self]
    exact ih hafter
  | cell =>
    rw [held?, spot?_leafDictionary_cons, if_pos rfl, Dictionary.find?_insert_self]
    exact hafter

/-- A collection that was written to was there before, if only as one that objects have at
first. -/
theorem begun?_eq (h : m.Writes path before after old new) {type : TypeName}
    {items : List Fields} (hbefore : before = some (.slot (.collection type items))) :
    m.begun? old path = some (.slot (.collection type items)) := by
  induction h with
  | here => exact hbefore
  | idle => cases hbefore
  | member hnumber hslot _ ih =>
    rw [begun?, spot?_object_of_number? hnumber hslot]
    exact ih hbefore
  | optional hensures _ ih =>
    rw [begun?, spot?_optional_cons]
    cases hensures with
    | found => exact ih hbefore
    | made hmade => exact hmade.begun?_eq (ih hbefore)
  | @entry key rest _ _ type entries fields made s t hensures _ ih =>
    rw [begun?, spot?_dictionary_cons]
    cases hfind : Dictionary.find? key entries with
    | some present =>
      rw [hfind] at hensures
      cases hensures
      exact ih hbefore
    | none =>
      rw [hfind] at hensures
      cases hensures with
      | made hmade => exact hmade.begun?_eq (ih hbefore)
  | @cell key _ entries =>
    cases hfind : Dictionary.find? key entries <;> simp [hfind] at hbefore

end Writes

/-- What is written in the place of a slot is as that slot is declared. -/
def Fits (c : Catalogue) (before after : Option Spot) : Prop :=
  ∀ old new, before = some (.slot old) → after = some (.slot new) →
    new.place = old.place ∧ Conforms c new

/-- An object still conforms when what is written fits. -/
theorem Writes.conforms (hwell : m.catalogue.WellFormed)
    (h : m.Writes path before after old new) (hfits : Fits m.catalogue before after)
    (hold : Conforms m.catalogue old) :
    new.place = old.place ∧ Conforms m.catalogue new := by
  induction h with
  | here => exact hfits _ _ rfl rfl
  | idle => exact ⟨rfl, hold⟩
  | member _ hslot _ ih =>
    obtain ⟨hplace, hnew⟩ := ih hfits (hold.field hslot).2
    exact ⟨rfl, hold.set hslot hplace hnew⟩
  | optional hensures _ ih =>
    exact ⟨rfl, .optional (ih hfits (hensures.conforms hwell hold.present)).2⟩
  | entry hensures _ ih =>
    exact ⟨rfl, hold.insert (ih hfits (hensures.conforms hwell fun _ => hold.entry)).2⟩
  | cell => exact ⟨rfl, .leafDictionary⟩

/-! ## Other paths -/

/-- The value at a field that conforms is read along its declaration. -/
theorem Unambiguous.field {type : TypeName} {fields : Fields} {i : Nat} {slot : Slot}
    {members : List (String × Json)} {key : String} {value : Json}
    (h : m.Unambiguous (.owner type) (.object members)) (hmember : (key, value) ∈ members)
    (hconforms : Conforms m.catalogue (.object type fields))
    (hnumber : m.number? Member.writes type key = some i) (hslot : fields[i]? = some slot) :
    m.Unambiguous slot.place value := by
  rw [← under_of_number? hconforms hnumber hslot]
  exact h.member hmember

/-- A write at the end of one path of an unambiguous payload spares the others. -/
theorem Writes.spares (hwell : m.catalogue.WellFormed)
    (h : m.Writes path before after old new) {value leaf leaf' : Json} {other : List String}
    (hold : Conforms m.catalogue old) (hvalue : m.Unambiguous old.place value)
    (hpath : Leads m.options value path leaf) (hother : Leads m.options value other leaf')
    (hne : other ≠ path) : m.Spares other old new := by
  induction h generalizing value other with
  | here =>
    obtain ⟨hleaf, rfl⟩ := leads_nil_iff.1 hpath
    cases hother with
    | here => exact absurd rfl hne
    | member => cases hleaf
  | idle => exact .refl m other _
  | @member name rest _ _ type fields i old new hnumber hslot hrest ih =>
    obtain ⟨members, inner, rfl, hmember, -, hinner⟩ := leads_cons_iff.1 hpath
    cases hother with
    | here hobject => cases hobject
    | @member _ key other' _ rest' hmember' hmarker hrest' =>
      by_cases hkey : m.number? Member.writes type key = some i
      · obtain rfl := hvalue.key_eq hmember' hmember hkey hnumber
        obtain rfl := hvalue.value_eq hmember hmember'
        refine .set hnumber hslot (ih (hold.field hslot).2 ?_ hinner hrest' ?_)
        · exact hvalue.field hmember hold hnumber hslot
        · rintro rfl
          exact hne rfl
      · exact .set_of_ne hkey
  | @optional key rest _ _ type present fields made s t hensures hinner ih =>
    cases hother with
    | here hobject =>
      obtain ⟨_, _, rfl, -⟩ := leads_cons_iff.1 hpath
      cases hobject
    | @member members key' value' _ rest' hmember' hmarker hrest' =>
      exact .optional hensures (ih (hensures.conforms hwell hold.present) hvalue hpath
        (.member hmember' hmarker hrest') hne)
  | @entry key rest _ _ type entries fields made s t hensures hinner ih =>
    obtain ⟨members, inner, rfl, hmember, -, hleads⟩ := leads_cons_iff.1 hpath
    cases hother with
    | here hobject => cases hobject
    | @member _ key' value' _ rest' hmember' hmarker hrest' =>
      by_cases hkey : key' = key
      · subst hkey
        obtain rfl := hvalue.value_eq hmember hmember'
        refine .insert hensures (ih (hensures.conforms hwell fun _ => hold.entry)
          (hvalue.member hmember) hleads hrest' ?_)
        rintro rfl
        exact hne rfl
      · exact .insert_of_ne hkey
  | @cell key type entries cell =>
    obtain ⟨members, inner, rfl, hmember, -, hleads⟩ := leads_cons_iff.1 hpath
    cases hother with
    | here hobject => cases hobject
    | @member _ key' value' _ rest' hmember' hmarker hrest' =>
      refine .insert_leaf_of_ne ?_
      -- the path of a leaf cannot go on
      rintro rfl
      obtain rfl := hvalue.value_eq hmember hmember'
      obtain ⟨hleaf, rfl⟩ := leads_nil_iff.1 hleads
      cases hrest' with
      | here => exact hne rfl
      | member => cases hleaf

/-! ## Hops -/

/-- What a member shows is in the field that it is read from. -/
theorem shown?_cons_of_read? {n : Node} {name : String} (rest : List String) {member : Member}
    {view : View} (hmember : m.member? n name = some member) (hread : n.read? member = some view) :
    ∃ slot, slot.view = view ∧
      m.shown? n (name :: rest) = m.spot? Member.reads (fun _ => none) slot rest := by
  obtain ⟨slot, hslot, hview⟩ := Option.map_eq_some_iff.1 hread
  obtain ⟨i, hreads, hslot⟩ := Option.bind_eq_some_iff.1 hslot
  unfold member? at hmember
  refine ⟨slot, hview, ?_⟩
  rw [shown?, spot?_object_of_number? (i := i) _ hslot]
  rw [number?, hmember, Option.bind_some, hreads]

/-- The collection that a member of the patch shows. -/
theorem shown?_collection {patch : Node} {name : String} {member : Member} {type : TypeName}
    {items : List Fields} (hmember : m.member? patch name = some member)
    (hread : patch.read? member = some (.collection type items)) :
    m.shown? patch [name] = some (.slot (.collection type items)) := by
  obtain ⟨slot, hview, hshown⟩ := shown?_cons_of_read? [] hmember hread
  rw [hshown, spot?]
  cases slot <;> simp only [Slot.view, View.collection.injEq, reduceCtorEq] at hview
  obtain ⟨rfl, rfl⟩ := hview
  rfl

variable {keys rest : List String} {patch original innerPatch inner : Node}
  {put : Fields → Fields}

/-- A write further on is a write from where a hop started. -/
theorem Hop.writes (h : m.Hop patch original s keys innerPatch inner put s') (hrest : rest ≠ [])
    {made : Fields} (hwrites : m.Writes rest before after (.object inner.type inner.fields)
      (.object inner.type made)) :
    m.Writes (keys ++ rest) before after (.object original.type original.fields)
      (.object original.type (put made)) := by
  cases h with
  | object _ hom _ htarget =>
    obtain ⟨hnumber, hslot⟩ := number?_of_target? hom htarget
    exact .member hnumber hslot hwrites
  | optional _ hom _ htarget hensures =>
    obtain ⟨hnumber, hslot⟩ := number?_of_target? hom htarget
    cases rest with
    | nil => exact absurd rfl hrest
    | cons key rest => exact .member hnumber hslot (.optional hensures hwrites)
  | entry _ hom _ htarget _ hensures =>
    obtain ⟨hnumber, hslot⟩ := number?_of_target? hom htarget
    exact .member hnumber hslot (.entry hensures hwrites)

/-- Behind a hop the patch shows what it shows from where the hop started. -/
theorem Hop.shown?_eq (h : m.Hop patch original s keys innerPatch inner put s')
    (hrest : rest ≠ []) : m.shown? patch (keys ++ rest) = m.shown? innerPatch rest := by
  cases h with
  | object hpm _ hread | optional hpm _ hread =>
    obtain ⟨slot, hview, hshown⟩ := shown?_cons_of_read? rest hpm hread
    rw [List.singleton_append, hshown]
    cases rest with
    | nil => exact absurd rfl hrest
    | cons key rest =>
      cases slot <;> simp only [Slot.view, View.object.injEq, reduceCtorEq] at hview
      · obtain rfl := Option.some_inj.1 hview
        rfl
      · obtain ⟨fields, rfl, rfl⟩ := Option.map_eq_some_iff.1 hview
        rw [spot?_optional_cons]
        rfl
  | @entry _ key _ _ _ _ _ _ _ _ _ _ hpm _ hread _ hpatch =>
    obtain ⟨slot, hview, hshown⟩ := shown?_cons_of_read? (key :: rest) hpm hread
    rw [List.cons_append, List.singleton_append, hshown]
    cases slot <;> simp only [Slot.view, View.dictionary.injEq, reduceCtorEq] at hview
    obtain ⟨rfl, rfl⟩ := hview
    rw [spot?_dictionary_cons, hpatch]
    rfl

/-- Behind a hop there is an object that conforms, and the payload for it. -/
theorem Hop.exists_leads (hwell : m.catalogue.WellFormed)
    (h : m.Hop patch original s keys innerPatch inner put s') {value leaf : Json}
    (hconforms : Conforms m.catalogue (.object original.type original.fields))
    (hvalue : m.Unambiguous (.owner original.type) value)
    (hleads : Leads m.options value (keys ++ rest) leaf) :
    Conforms m.catalogue (.object inner.type inner.fields) ∧
      ∃ value', m.Unambiguous (.owner inner.type) value' ∧ Leads m.options value' rest leaf := by
  cases h with
  | object _ hom _ htarget =>
    obtain ⟨hnumber, hslot⟩ := number?_of_target? hom htarget
    obtain ⟨members, value', rfl, hmember, -, hrest⟩ := leads_cons_iff.1 hleads
    exact ⟨(hconforms.field hslot).2, value', hvalue.field hmember hconforms hnumber hslot, hrest⟩
  | optional _ hom _ htarget hensures =>
    obtain ⟨hnumber, hslot⟩ := number?_of_target? hom htarget
    obtain ⟨members, value', rfl, hmember, -, hrest⟩ := leads_cons_iff.1 hleads
    exact ⟨hensures.conforms hwell (hconforms.field hslot).2.present, value',
      hvalue.field hmember hconforms hnumber hslot, hrest⟩
  | entry _ hom _ htarget _ hensures =>
    obtain ⟨hnumber, hslot⟩ := number?_of_target? hom htarget
    obtain ⟨members, value', rfl, hmember, -, hentry⟩ := leads_cons_iff.1 hleads
    have hentries := hvalue.field hmember hconforms hnumber hslot
    obtain ⟨members', value'', rfl, hmember', -, hrest⟩ := leads_cons_iff.1 hentry
    exact ⟨hensures.conforms hwell fun _ => (hconforms.field hslot).2.entry, value'',
      hentries.member hmember', hrest⟩

end SelectiveMerge.Merger
