import SelectiveMerge.Proofs.Exchange
import SelectiveMerge.Proofs.Stability

/-!
# What a slot may become

A merge that neither adds nor removes items turns a slot into another one of its form: entries
and objects that are there stay there, and items keep their places and their identities. Which
objects may be unset, and which items may change, depends on what the patch shows in the place
of the slot.

* `Dictionary.Overwrites` — a dictionary whose entries hold other values
* `View.atField`, `View.atKey`, `Merger.viewOfItem` — what the patch shows further on
* `Faces` — a typed slot, side by side with what a typed patch shows
* `Merger.Evolves` — what a slot may become
* `Merger.effects_identity?` — an object keeps the identity that it has in common with the patch
-/

namespace SelectiveMerge

/-! ## Dictionaries with other values -/

namespace Dictionary

variable {α : Type} {last again : List (String × α)} {key : String}

/-- Some entries of a dictionary hold other values. -/
inductive Overwrites (last : List (String × α)) : List (String × α) → Prop where
  | refl : Overwrites last last
  | insert {again : List (String × α)} {key : String} {value : α} (h : Overwrites last again)
      (hkey : (find? key last).isSome) : Overwrites last (insert key value again)

/-- The dictionary with the value at a key that another dictionary has there. -/
def putBack (last : List (String × α)) (key : String) (entries : List (String × α)) :
    List (String × α) :=
  match find? key last with
  | some value => insert key value entries
  | none => entries

theorem putBack_comm (key other : String) (entries : List (String × α)) :
    putBack last key (putBack last other entries) =
      putBack last other (putBack last key entries) := by
  by_cases h : key = other
  · rw [h]
  · unfold putBack
    cases find? key last with
    | none => rfl
    | some value => cases find? other last with
      | none => rfl
      | some content => exact insert_comm h entries

theorem foldr_putBack (keys : List String) (key : String) (entries : List (String × α)) :
    keys.foldr (putBack last) (putBack last key entries) =
      putBack last key (keys.foldr (putBack last) entries) := by
  induction keys with
  | nil => rfl
  | cons other keys ih => rw [List.foldr_cons, List.foldr_cons, ih, putBack_comm]

theorem putBack_eq_self (h : find? key again = find? key last) :
    putBack last key again = again := by
  unfold putBack
  cases hlast : find? key last with
  | none => rfl
  | some value => exact insert_eq_self (h.trans hlast)

namespace Overwrites

/-- The former values can be put back. -/
theorem exists_foldr_putBack (h : Overwrites last again) :
    ∃ keys : List String, keys.foldr (putBack last) again = last := by
  induction h with
  | refl => exact ⟨[], rfl⟩
  | @insert again key value _ hkey ih =>
    obtain ⟨keys, hkeys⟩ := ih
    obtain ⟨former, hformer⟩ := Option.isSome_iff_exists.1 hkey
    -- what was put at the key last is gone when the former value is back
    have hback : putBack last key (Dictionary.insert key value again) = putBack last key again := by
      simp only [putBack, hformer, insert_insert]
    refine ⟨keys ++ [key], ?_⟩
    rw [List.foldr_append, List.foldr_cons, List.foldr_nil, hback, foldr_putBack, hkeys,
      putBack_eq_self rfl]

/-- Where all values are the former ones nothing is overwritten. -/
theorem eq_of_find? (h : Overwrites last again)
    (hfind : ∀ key, find? key again = find? key last) : again = last := by
  obtain ⟨keys, hkeys⟩ := h.exists_foldr_putBack
  have hsame : keys.foldr (putBack last) again = again := by
    clear hkeys
    induction keys with
    | nil => rfl
    | cons key keys ih => rw [List.foldr_cons, ih, putBack_eq_self (hfind key)]
  exact hsame.symm.trans hkeys

theorem isSome_find? (h : Overwrites last again) (key : String) :
    (find? key again).isSome = (find? key last).isSome := by
  induction h with
  | refl => rfl
  | @insert again other value _ hother ih =>
    rw [find?_insert]
    split
    · rename_i heq
      rw [← heq, hother]
      rfl
    · exact ih

end Overwrites

end Dictionary

/-! ## Slots of a known form -/

namespace Slot

variable {s : Slot}

theorem exists_leaf {type : LeafType} (h : s.form = .leaf type) : ∃ cell, s = .leaf type cell := by
  cases s <;> cases h
  exact ⟨_, rfl⟩

theorem exists_object {type : TypeName} (h : s.form = .object type) :
    ∃ fields, s = .object type fields := by
  cases s <;> cases h
  exact ⟨_, rfl⟩

theorem exists_optional {type : TypeName} (h : s.form = .optional type) :
    ∃ present, s = .optional type present := by
  cases s <;> cases h
  exact ⟨_, rfl⟩

theorem exists_collection {type : TypeName} (h : s.form = .collection type) :
    ∃ items, s = .collection type items := by
  cases s <;> cases h
  exact ⟨_, rfl⟩

theorem exists_dictionary {type : TypeName} (h : s.form = .dictionary type) :
    ∃ entries, s = .dictionary type entries := by
  cases s <;> cases h
  exact ⟨_, rfl⟩

end Slot

/-! ## What the patch shows further on -/

namespace View

/-- What the patch shows at a field of an object. -/
def atField : Option View → Nat → Option View
  | some (.object (some n)), i => (n.fields[i]?).map Slot.view
  | _, _ => none

/-- What the patch shows at a key of a dictionary of objects. -/
def atKey : Option View → String → Option View
  | some (.dictionary type entries), key =>
      (Dictionary.find? key entries).map fun fields => .object (some ⟨type, fields⟩)
  | _, _ => none

end View

/-- What the patch shows for an item with an identity. -/
def Merger.viewOfItem (m : Merger) : Option View → Option Uuid → Option View
  | some (.collection type items), some id =>
      (m.catalogue.itemWithId? type items id).map fun item => .object (some item)
  | _, _ => none

/-- A typed slot stands side by side with what a typed patch of its form shows, if the patch
shows anything. -/
structure Faces (c : Catalogue) (view : Option View) (slot : Slot) : Prop where
  typed : Typed c slot
  shown : ∀ v, view = some v → ∃ p : Slot, p.view = v ∧ p.form = slot.form ∧ Typed c p

namespace Faces

variable {c : Catalogue} {view : Option View} {type : TypeName} {fields : Fields} {n : Node}

/-- So does every slot of that form that is typed. -/
theorem of_form {slot slot' : Slot} (h : Faces c view slot) (hform : slot'.form = slot.form)
    (htyped : Typed c slot') : Faces c view slot' where
  typed := htyped
  shown v hv := by
    obtain ⟨p, hview, hp, hpatch⟩ := h.shown v hv
    exact ⟨p, hview, hp.trans hform.symm, hpatch⟩

theorem of_alike {m : Merger} {patch original : Node} (h : m.Alike patch original) :
    Faces m.catalogue (some (.object (some patch))) (.object original.type original.fields) where
  typed := h.original
  shown v hv := by
    obtain rfl := Option.some_inj.1 hv
    exact ⟨.object patch.type patch.fields, rfl, by rw [Slot.form, h.type_eq]; rfl, h.patch⟩

/-- Two objects that stand side by side are of one type. -/
theorem object (h : Faces c (some (.object (some n))) (.object type fields)) :
    n.type = type ∧ Typed c (.object type n.fields) := by
  obtain ⟨p, hview, hform, htyped⟩ := h.shown _ rfl
  obtain ⟨shown, rfl⟩ := Slot.exists_object hform
  simp only [Slot.view, View.object.injEq, Option.some_inj] at hview
  subst hview
  exact ⟨rfl, htyped⟩

/-- An object that is made is shown like one that was there. -/
theorem optional {present : Option Fields}
    (h : Faces c (some (.object (some n))) (.optional type present))
    (htyped : Typed c (.object type fields)) :
    Faces c (some (.object (some n))) (.object type fields) := by
  obtain ⟨p, hview, hform, hpatch⟩ := h.shown _ rfl
  obtain ⟨present, rfl⟩ := Slot.exists_optional hform
  simp only [Slot.view, View.object.injEq] at hview
  obtain ⟨shown, rfl, rfl⟩ := Option.map_eq_some_iff.1 hview
  refine ⟨htyped, fun v hv => ?_⟩
  obtain rfl := Option.some_inj.1 hv
  exact ⟨.object _ shown, rfl, rfl, hpatch.present shown rfl⟩

theorem collection {patchType : TypeName} {patchItems items : List Fields}
    (h : Faces c (some (.collection patchType patchItems)) (.collection type items)) :
    patchType = type ∧ Typed c (.collection type patchItems) := by
  obtain ⟨p, hview, hform, htyped⟩ := h.shown _ rfl
  obtain ⟨shown, rfl⟩ := Slot.exists_collection hform
  simp only [Slot.view, View.collection.injEq] at hview
  obtain ⟨rfl, rfl⟩ := hview
  exact ⟨rfl, htyped⟩

theorem atField {i : Nat} {slot : Slot} (h : Faces c view (.object type fields))
    (hslot : fields[i]? = some slot) : Faces c (View.atField view i) slot := by
  refine ⟨(h.typed.field hslot).2, fun v hv => ?_⟩
  unfold View.atField at hv
  split at hv
  · obtain ⟨p, hp, rfl⟩ := Option.map_eq_some_iff.1 hv
    obtain ⟨-, hpatch⟩ := h.object
    obtain ⟨hform, htyped⟩ := hpatch.field hp
    exact ⟨p, rfl, Option.some_inj.1 (hform.symm.trans (h.typed.field hslot).1), htyped⟩
  · cases hv

theorem atKey {entries : List (String × Fields)} {key : String}
    (h : Faces c view (.dictionary type entries)) (htyped : Typed c (.object type fields)) :
    Faces c (View.atKey view key) (.object type fields) := by
  refine ⟨htyped, fun v hv => ?_⟩
  unfold View.atKey at hv
  split at hv
  · obtain ⟨shown, hfind, rfl⟩ := Option.map_eq_some_iff.1 hv
    obtain ⟨p, hview, hform, hpatch⟩ := h.shown _ rfl
    obtain ⟨present, rfl⟩ := Slot.exists_dictionary hform
    simp only [Slot.view, View.dictionary.injEq] at hview
    obtain ⟨rfl, rfl⟩ := hview
    exact ⟨.object _ shown, rfl, rfl, hpatch.entry hfind⟩
  · cases hv

theorem viewOfItem {m : Merger} {items : List Fields} {id : Option Uuid}
    (h : Faces m.catalogue view (.collection type items))
    (htyped : Typed m.catalogue (.object type fields)) :
    Faces m.catalogue (m.viewOfItem view id) (.object type fields) := by
  refine ⟨htyped, fun v hv => ?_⟩
  unfold Merger.viewOfItem at hv
  split at hv
  · obtain ⟨item, hfound, rfl⟩ := Option.map_eq_some_iff.1 hv
    obtain ⟨rfl, hpatch⟩ := h.collection
    obtain ⟨rfl, hitem, -⟩ := Merger.itemWithId?_eq_some hfound
    exact ⟨.object item.type item.fields, rfl, rfl, hpatch.item hitem⟩
  · cases hv

end Faces

namespace Merger

/-- A field of the patch is shown by the member that is written to that field. -/
theorem read?_eq_atField {m : Merger} (hderived : m.catalogue.Derived) {patch : Node}
    {type : TypeName} {fields : Fields} {name : String} {pm om : Member} {i : Nat}
    (htype : patch.type = type) (hpm : m.member? patch name = some pm)
    (hom : m.member? ⟨type, fields⟩ name = some om) (hwrites : om.writes = some i) :
    patch.read? pm = View.atField (some (.object (some patch))) i := by
  obtain rfl : pm = om := by
    unfold member? at hpm hom
    rw [htype, hom] at hpm
    exact (Option.some_inj.1 hpm).symm
  obtain ⟨k, hreads, hwrites'⟩ := hderived _ pm (MemberTable.mem_of_find? hom)
  obtain rfl : k = i := Option.some_inj.1 (hwrites'.symm.trans hwrites)
  rw [Node.read?, hreads, Option.bind_some]
  rfl

/-! ## What a slot may become -/

/-- What a slot may become when what the patch shows in its place is taken over, in part or
again and again. Items without identities may be cleared, the others keep their places and
their identities. -/
inductive Evolves (m : Merger) : Option View → Slot → Slot → Prop where
  | refl {view : Option View} {slot : Slot} : Evolves m view slot slot
  | leaf {view : Option View} {type : LeafType} {old new : Cell} :
      Evolves m view (.leaf type old) (.leaf type new)
  | leafDictionary {view : Option View} {type : LeafType} {old new : List (String × Cell)}
      (hkeys : ∀ key, (Dictionary.find? key old).isSome → (Dictionary.find? key new).isSome) :
      Evolves m view (.leafDictionary type old) (.leafDictionary type new)
  | object {view : Option View} {type : TypeName} {old new : Fields}
      (hlength : new.length = old.length)
      (hfields : ∀ (i : Nat) a a', old[i]? = some a → new[i]? = some a' →
        Evolves m (View.atField view i) a a') :
      Evolves m view (.object type old) (.object type new)
  | unset {type : TypeName} {old : Option Fields} :
      Evolves m (some (.object none)) (.optional type old) (.optional type none)
  | made {n : Node} {type : TypeName} {new : Option Fields} :
      Evolves m (some (.object (some n))) (.optional type none) (.optional type new)
  | optional {n : Node} {type : TypeName} {old new : Fields}
      (hpresent : Evolves m (some (.object (some n))) (.object type old) (.object type new)) :
      Evolves m (some (.object (some n))) (.optional type (some old)) (.optional type (some new))
  | dictionary {view : Option View} {type : TypeName} {old new : List (String × Fields)}
      (hkeys : ∀ key, (Dictionary.find? key old).isSome → (Dictionary.find? key new).isSome)
      (hentries : ∀ key f f', Dictionary.find? key old = some f →
        Dictionary.find? key new = some f' →
        Evolves m (View.atKey view key) (.object type f) (.object type f')) :
      Evolves m view (.dictionary type old) (.dictionary type new)
  | cleared {view : Option View} {type : TypeName} {old : List Fields}
      (hidentified : (m.catalogue type).identified = false) :
      Evolves m view (.collection type old) (.collection type [])
  | collection {view : Option View} {type : TypeName} {old new : List Fields}
      (hids : new.map (m.identity? type) = old.map (m.identity? type))
      (hitems : ∀ (i : Nat) f f', old[i]? = some f → new[i]? = some f' →
        Evolves m (m.viewOfItem view (m.identity? type f)) (.object type f) (.object type f')) :
      Evolves m view (.collection type old) (.collection type new)

variable {m : Merger} {view : Option View} {old new last : Slot} {type : TypeName}

/-- Lists whose items have the same identities are of one length. -/
theorem length_eq_of_map_identity? {items items' : List Fields}
    (h : items'.map (m.identity? type) = items.map (m.identity? type)) :
    items'.length = items.length := by
  simpa using congrArg List.length h

theorem identity?_eq_of_map {items items' : List Fields} {i : Nat} {f f' : Fields}
    (h : items'.map (m.identity? type) = items.map (m.identity? type))
    (hf : items[i]? = some f) (hf' : items'[i]? = some f') :
    m.identity? type f' = m.identity? type f := by
  have hi := congrArg (·[i]?) h
  simpa [hf, hf'] using hi

namespace Evolves

/-- A slot stays of its form. -/
theorem form_eq (h : m.Evolves view old new) : new.form = old.form := by
  cases h <;> rfl

theorem trans (h : m.Evolves view old new) (h' : m.Evolves view new last) :
    m.Evolves view old last := by
  induction h generalizing last with
  | refl => exact h'
  | leaf => cases h' with
    | refl | leaf => exact .leaf
  | leafDictionary hkeys => cases h' with
    | refl => exact .leafDictionary hkeys
    | leafDictionary hkeys' => exact .leafDictionary fun key hkey => hkeys' key (hkeys key hkey)
  | object hlength hfields ih => cases h' with
    | refl => exact .object hlength hfields
    | object hlength' hfields' =>
      refine .object (hlength'.trans hlength) fun i a a' ha ha' => ?_
      have hi := (List.getElem?_eq_some_iff.1 ha).1
      have hmid := List.getElem?_eq_getElem (hlength ▸ hi)
      exact ih i a _ ha hmid (hfields' i _ a' hmid ha')
  | unset => cases h' with
    | refl | unset => exact .unset
  | made => cases h' with
    | refl | made | optional => exact .made
  | optional hpresent ih => cases h' with
    | refl => exact .optional hpresent
    | optional hpresent' => exact .optional (ih hpresent')
  | dictionary hkeys hentries ih => cases h' with
    | refl => exact .dictionary hkeys hentries
    | dictionary hkeys' hentries' =>
      refine .dictionary (fun key hkey => hkeys' key (hkeys key hkey)) fun key f f' hf hf' => ?_
      obtain ⟨mid, hmid⟩ := Option.isSome_iff_exists.1 (hkeys key (hf ▸ rfl))
      exact ih key f mid hf hmid (hentries' key mid f' hmid hf')
  | cleared hidentified => cases h' with
    | refl | cleared => exact .cleared hidentified
    | collection hids =>
      rw [List.map_nil, List.map_eq_nil_iff] at hids
      subst hids
      exact .cleared hidentified
  | collection hids hitems ih => cases h' with
    | refl => exact .collection hids hitems
    | cleared hidentified => exact .cleared hidentified
    | collection hids' hitems' =>
      refine .collection (hids'.trans hids) fun i f f' hf hf' => ?_
      have hi := (List.getElem?_eq_some_iff.1 hf).1
      have hmid := List.getElem?_eq_getElem (length_eq_of_map_identity? hids ▸ hi)
      refine ih i f _ hf hmid ?_
      rw [← identity?_eq_of_map hids hf hmid]
      exact hitems' i _ f' hmid hf'

/-! What becomes of a slot of a known form. -/

theorem object_inv {fields : Fields} (h : m.Evolves view (.object type fields) last) :
    ∃ new, last = .object type new ∧ new.length = fields.length ∧
      ∀ (i : Nat) a a', fields[i]? = some a → new[i]? = some a' →
        m.Evolves (View.atField view i) a a' := by
  cases h with
  | refl => exact ⟨fields, rfl, rfl, forall_getElem?_self fun _ _ => .refl⟩
  | object hlength hfields => exact ⟨_, rfl, hlength, hfields⟩

/-- An object that the patch shows stays when it is there. -/
theorem optional_inv {n : Node} {fields : Fields}
    (h : m.Evolves (some (.object (some n))) (.optional type (some fields)) last) :
    ∃ new, last = .optional type (some new) ∧
      m.Evolves (some (.object (some n))) (.object type fields) (.object type new) := by
  cases h with
  | refl => exact ⟨fields, rfl, .refl⟩
  | optional hpresent => exact ⟨_, rfl, hpresent⟩

/-- An object that is not there stays missing where the patch has none. -/
theorem unset_inv (h : m.Evolves (some (.object none)) (.optional type none) last) :
    last = .optional type none := by
  cases h with
  | refl | unset => rfl

theorem leafDictionary_inv {leafType : LeafType} {entries : List (String × Cell)}
    (h : m.Evolves view (.leafDictionary leafType entries) last) :
    ∃ new, last = .leafDictionary leafType new ∧
      ∀ key, (Dictionary.find? key entries).isSome → (Dictionary.find? key new).isSome := by
  cases h with
  | refl => exact ⟨entries, rfl, fun _ hkey => hkey⟩
  | leafDictionary hkeys => exact ⟨_, rfl, hkeys⟩

theorem dictionary_inv {entries : List (String × Fields)}
    (h : m.Evolves view (.dictionary type entries) last) :
    ∃ new, last = .dictionary type new ∧
      (∀ key, (Dictionary.find? key entries).isSome → (Dictionary.find? key new).isSome) ∧
      ∀ key f f', Dictionary.find? key entries = some f → Dictionary.find? key new = some f' →
        m.Evolves (View.atKey view key) (.object type f) (.object type f') := by
  cases h with
  | refl =>
    refine ⟨entries, rfl, fun _ hkey => hkey, fun key f f' hf hf' => ?_⟩
    obtain rfl := Option.some_inj.1 (hf.symm.trans hf')
    exact .refl
  | dictionary hkeys hentries => exact ⟨_, rfl, hkeys, hentries⟩

/-- An empty collection stays empty. -/
theorem nil_inv (h : m.Evolves view (.collection type []) last) :
    last = .collection type [] := by
  cases h with
  | refl | cleared => rfl
  | collection hids =>
    rw [List.map_nil, List.map_eq_nil_iff] at hids
    rw [hids]

theorem collection_inv {items : List Fields} (hidentified : (m.catalogue type).identified = true)
    (h : m.Evolves view (.collection type items) last) :
    ∃ new, last = .collection type new ∧
      new.map (m.identity? type) = items.map (m.identity? type) ∧
      ∀ (i : Nat) f f', items[i]? = some f → new[i]? = some f' →
        m.Evolves (m.viewOfItem view (m.identity? type f)) (.object type f) (.object type f') := by
  cases h with
  | refl =>
    exact ⟨items, rfl, rfl, forall_getElem?_self
      (R := fun _ f f' => m.Evolves (m.viewOfItem view (m.identity? type f)) (.object type f)
        (.object type f')) fun _ _ => .refl⟩
  | cleared hnone =>
    rw [hidentified] at hnone
    cases hnone
  | collection hids hitems => exact ⟨_, rfl, hids, hitems⟩

/-! What holds a slot evolves with it. -/

theorem set {fields : Fields} {i : Nat} (hslot : fields[i]? = some old)
    (h : m.Evolves (View.atField view i) old new) :
    m.Evolves view (.object type fields) (.object type (fields.set i new)) := by
  refine .object List.length_set (forall_getElem?_set
    (R := fun j a a' => m.Evolves (View.atField view j) a a')
    (forall_getElem?_self fun _ _ => .refl) fun a ha => ?_)
  obtain rfl := Option.some_inj.1 (hslot.symm.trans ha)
  exact h

theorem insert {entries : List (String × Fields)} {key : String} {fields : Fields}
    (h : ∀ f, Dictionary.find? key entries = some f →
      m.Evolves (View.atKey view key) (.object type f) (.object type fields)) :
    m.Evolves view (.dictionary type entries)
      (.dictionary type (Dictionary.insert key fields entries)) :=
  .dictionary (fun _ => isSome_find?_insert key fields)
    (forall_find?_insert
      (R := fun key f f' => m.Evolves (View.atKey view key) (.object type f) (.object type f'))
      (fun _ _ => .refl) h)

theorem insert_cell {leafType : LeafType} (entries : List (String × Cell)) (key : String)
    (cell : Cell) :
    m.Evolves view (.leafDictionary leafType entries)
      (.leafDictionary leafType (Dictionary.insert key cell entries)) :=
  .leafDictionary fun _ => isSome_find?_insert key cell

theorem set_item {items : List Fields} {i : Nat} {item made : Fields}
    (hitem : items[i]? = some item) (hid : m.identity? type made = m.identity? type item)
    (h : m.Evolves (m.viewOfItem view (m.identity? type item)) (.object type item)
      (.object type made)) :
    m.Evolves view (.collection type items) (.collection type (items.set i made)) := by
  refine .collection (map_identity?_set hitem hid) (forall_getElem?_set
    (R := fun _ f f' => m.Evolves (m.viewOfItem view (m.identity? type f)) (.object type f)
      (.object type f'))
    (forall_getElem?_self fun _ _ => .refl) fun f hf => ?_)
  obtain rfl := Option.some_inj.1 (hitem.symm.trans hf)
  exact h

end Evolves

/-! ## Identities -/

variable {base : List String} {patch : Node} {fields made : Fields} {ids : List Uuid}
  {changes : List Change} {full : Path}

/-- What is taken over because of a scalar could be because of an array as well. -/
theorem Copies.arrayTakes (h : Copies full view old ids changes new)
    (inner : TypeName → List Fields → TypeName → Effect (List Fields)) :
    m.ArrayTakes full [.mk .null []] inner view old ids changes new :=
  .assigned (by simp) h

/-- What keys lead to is given to an object by its patch, so a secure identity stays. -/
theorem Lands.identity?_eq (hderived : m.catalogue.Derived)
    (hsecure : m.Secure Set.univ patch ⟨type, fields⟩) {act : Act} {keys : List String}
    (hact : ∀ {view : Option View} {old new : Slot} {ids : List Uuid} {changes : List Change},
      act view old ids changes new →
      ∃ elements inner, m.ArrayTakes full elements inner view old ids changes new)
    (h : m.Lands full act keys (some (.object (some patch))) (.object type fields) ids changes
      (.object type made)) :
    m.identity? type made = m.identity? type fields := by
  cases h with
  | here htakes =>
    obtain ⟨_, _, htakes⟩ := hact htakes
    cases htakes with
    | assigned _ htakes => cases htakes
  | identity => rfl
  | @field name rest _ _ _ pm om i old new _ _ hid hpm hom hwrites hslot _ _ hrest =>
    have htarget : Node.target? ⟨type, fields⟩ om = some (i, old) :=
      Node.target?_eq_some.2 ⟨hwrites, hslot⟩
    generalize hread : patch.read? pm = view at hrest
    cases hrest with
    | here htakes =>
      obtain ⟨_, _, htakes⟩ := hact htakes
      cases htakes with
      | emptied _ hcell =>
        exact hsecure.identity?_set_emptied (Set.mem_univ name) (hid rfl) hom htarget hcell
      | assigned _ htakes => cases htakes with
        | leaf hencode hcoerce =>
          exact hsecure.identity?_set_leaf hderived (Set.mem_univ name) (hid rfl) hpm hom hread
            hencode htarget hcoerce
        | unset => exact identity?_set_branch htarget trivial trivial
      | cleared | reconciled => exact identity?_set_branch htarget trivial trivial
    | field | optional | entry | cell | identity =>
      exact identity?_set_branch htarget trivial trivial

/-- An object whose identity is secure keeps it. -/
theorem effect_identity? (hderived : m.catalogue.Derived)
    (hsecure : m.Secure Set.univ patch ⟨type, fields⟩) {directive : Directive}
    (h : m.effect base patch type directive fields ids changes made) :
    m.identity? type made = m.identity? type fields := by
  cases directive with
  | scalar path value =>
    cases hid : (path.getLast?).any isIdentityKey with
    | true => cases (effect_scalar_of_identity hid).1 h with
      | intro => rfl
    | false =>
      exact ((effect_scalar hid).1 h).identity?_eq hderived hsecure
        fun htakes => ⟨_, fun _ _ _ => Effect.Idle, htakes.arrayTakes _⟩
  | array path elements =>
    exact (effect_array.1 h).identity?_eq hderived hsecure fun htakes => ⟨_, _, htakes⟩

theorem effects_identity? (hderived : m.catalogue.Derived)
    (hsecure : m.Secure Set.univ patch ⟨type, fields⟩) {directives : List Directive}
    (h : m.effects base patch type directives fields ids changes made) :
    m.identity? type made = m.identity? type fields := by
  induction directives generalizing fields ids changes with
  | nil => cases h with
    | intro => rfl
  | cons directive directives ih =>
    rw [effects] at h
    cases h with
    | intro hfirst hsecond =>
      have hmid := effect_identity? hderived hsecure hfirst
      exact (ih (hsecure.of_identity?_eq hmid) hsecond).trans hmid

/-- An item that is updated side by side with its counterpart in the patch keeps the identity
that both have. -/
theorem effects_identity?_of_itemWithId? (hderived : m.catalogue.Derived)
    {patchItems : List Fields} {id : Uuid} {patchItem : Node} {directives : List Directive}
    (hpatch : m.catalogue.itemWithId? type patchItems id = some patchItem)
    (hid : m.identity? type fields = some id)
    (h : m.effects base patchItem type directives fields ids changes made) :
    m.identity? type made = some id := by
  obtain ⟨htype, -, hpatchId⟩ := itemWithId?_eq_some hpatch
  have hsecure : m.Secure Set.univ patchItem ⟨type, fields⟩ :=
    .inr ⟨htype, id, by rw [htype]; exact hpatchId, hid⟩
  exact (effects_identity? hderived hsecure h).trans hid

end Merger

end SelectiveMerge
