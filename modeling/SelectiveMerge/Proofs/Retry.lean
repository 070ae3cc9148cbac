import SelectiveMerge.Proofs.ByIdentity
import SelectiveMerge.Proofs.Comparison
import SelectiveMerge.Proofs.EffectRuns
import SelectiveMerge.Proofs.Evolution
import SelectiveMerge.Proofs.Reordering

/-!
# Doing a merge again

A merge that is done again starts from what the first one left. At each step a leaf either is
as it was left, or as it was after the same step of the first merge; what the first merge made
is there, and items are where they were. So every step can be done again, no identity is taken
up, and in the end everything is as it was left.

* `Merger.Retraces` — a slot while a merge is done again
* `Merger.Repeatable` — what can be done again
* `Merger.NamesItems` — payloads whose arrays update items that they name
* `Merger.merge_again` — a merge with such a payload can be done again and changes nothing
-/

namespace SelectiveMerge

/-- Objects that store an identity in one of their fields are of types that say so. -/
def Catalogue.StoresIdentities (c : Catalogue) : Prop :=
  ∀ type, (c type).identityField.isSome → (c type).identified = true

/-- Three lists that are related position by position are still so when two of them change
at one position. -/
theorem forall_getElem?_set_both {α β γ : Type} {R : Nat → α → β → γ → Prop} {xs : List α}
    {ys : List β} {zs : List γ} {i : Nat} {a : α} {b : β} {c : γ}
    (h : ∀ (j : Nat) x y z, xs[j]? = some x → ys[j]? = some y → zs[j]? = some z → R j x y z)
    (hc : zs[i]? = some c) (hnew : R i a b c) :
    ∀ (j : Nat) x y z, (xs.set i a)[j]? = some x → (ys.set i b)[j]? = some y →
      zs[j]? = some z → R j x y z := by
  intro j x y z hx hy hz
  by_cases hij : i = j
  · subst hij
    have hi := (List.getElem?_eq_some_iff.1 hx).1
    have hi' := (List.getElem?_eq_some_iff.1 hy).1
    rw [List.length_set] at hi hi'
    rw [List.getElem?_set_self hi] at hx
    rw [List.getElem?_set_self hi'] at hy
    obtain rfl := Option.some_inj.1 hx
    obtain rfl := Option.some_inj.1 hy
    obtain rfl := Option.some_inj.1 (hc.symm.trans hz)
    exact hnew
  · rw [List.getElem?_set_ne hij] at hx hy
    exact h j x y z hx hy hz

/-- An object with an identity is of a type that says so. -/
theorem Catalogue.StoresIdentities.identified {m : Merger}
    (hstores : m.catalogue.StoresIdentities) {type : TypeName} {fields : Fields} {id : Uuid}
    (hid : m.identity? type fields = some id) : (m.catalogue type).identified = true := by
  refine hstores type ?_
  cases hfield : (m.catalogue type).identityField with
  | none => simp [Merger.identity?, Schema.identity?, hfield] at hid
  | some i => rfl

namespace Merger

/-! ## A slot while a merge is done again -/

/-- A slot after a step of a merge, after the same step when the merge is done again, and after
the first merge as a whole. -/
inductive Retraces (m : Merger) : Option View → Slot → Slot → Slot → Prop where
  /-- The slot still is as the first merge left it. -/
  | untouched {view : Option View} {first last : Slot} (h : m.Evolves view first last) :
      Retraces m view first last last
  | leaf {view : Option View} {type : LeafType} {cell last : Cell} :
      Retraces m view (.leaf type cell) (.leaf type cell) (.leaf type last)
  | leafDictionary {view : Option View} {type : LeafType}
      {first again last : List (String × Cell)} (hover : Dictionary.Overwrites last again)
      (hcells : ∀ key, Dictionary.find? key again = Dictionary.find? key last ∨
        Dictionary.find? key again = Dictionary.find? key first) :
      Retraces m view (.leafDictionary type first) (.leafDictionary type again)
        (.leafDictionary type last)
  | object {view : Option View} {type : TypeName} {first again last : Fields}
      (hagain : again.length = first.length) (hlast : last.length = first.length)
      (hfields : ∀ (i : Nat) a b z, first[i]? = some a → again[i]? = some b →
        last[i]? = some z → Retraces m (View.atField view i) a b z) :
      Retraces m view (.object type first) (.object type again) (.object type last)
  | optional {n : Node} {type : TypeName} {first again last : Fields}
      (hpresent : Retraces m (some (.object (some n))) (.object type first) (.object type again)
        (.object type last)) :
      Retraces m (some (.object (some n))) (.optional type (some first))
        (.optional type (some again)) (.optional type (some last))
  /-- Entries that the first merge has not made yet are as it left them. -/
  | dictionary {view : Option View} {type : TypeName} {first again last : List (String × Fields)}
      (hover : Dictionary.Overwrites last again)
      (hnew : ∀ key, Dictionary.find? key first = none →
        Dictionary.find? key again = Dictionary.find? key last)
      (hentries : ∀ key a b z, Dictionary.find? key first = some a →
        Dictionary.find? key again = some b → Dictionary.find? key last = some z →
        Retraces m (View.atKey view key) (.object type a) (.object type b) (.object type z)) :
      Retraces m view (.dictionary type first) (.dictionary type again) (.dictionary type last)
  | collection {view : Option View} {type : TypeName} {first again last : List Fields}
      (hagain : again.map (m.identity? type) = first.map (m.identity? type))
      (hlast : last.map (m.identity? type) = first.map (m.identity? type))
      (hitems : ∀ (i : Nat) a b z, first[i]? = some a → again[i]? = some b →
        last[i]? = some z → Retraces m (m.viewOfItem view (m.identity? type a)) (.object type a)
          (.object type b) (.object type z)) :
      Retraces m view (.collection type first) (.collection type again) (.collection type last)

variable {m : Merger} {view : Option View} {first again last : Slot} {type : TypeName}

namespace Retraces

theorem form_eq (h : m.Retraces view first again last) : again.form = first.form := by
  cases h with
  | untouched h => exact h.form_eq
  | _ => rfl

/-- When the first merge has come to its end, so has the second one: all is as it was left. -/
theorem eq_last (h : m.Retraces view first again last) : first = last → again = last := by
  induction h with
  | untouched => exact fun _ => rfl
  | leaf => exact fun heq => heq
  | leafDictionary hover hcells =>
    rintro ⟨⟩
    rw [hover.eq_of_find? fun key => (hcells key).elim id id]
  | object hagain hlast hfields ih =>
    rintro ⟨⟩
    refine congrArg _ (List.ext_getElem hagain fun i hi hi' => ?_)
    exact ih i _ _ _ (List.getElem?_eq_getElem hi') (List.getElem?_eq_getElem hi)
      (List.getElem?_eq_getElem hi') rfl
  | optional _ ih =>
    rintro ⟨⟩
    rw [Slot.object.inj (ih rfl) |>.2]
  | @dictionary _ _ first again _ hover hnew hentries ih =>
    rintro ⟨⟩
    rw [hover.eq_of_find? fun key => ?_]
    cases hfirst : Dictionary.find? key first with
    | none => rw [hnew key hfirst, hfirst]
    | some a =>
      obtain ⟨b, hb⟩ := Option.isSome_iff_exists.1
        ((hover.isSome_find? key).trans (by rw [hfirst]; rfl))
      rw [hb, Slot.object.inj (ih key a b a hfirst hb hfirst rfl) |>.2]
  | collection hagain hlast hitems ih =>
    rintro ⟨⟩
    refine congrArg _ (List.ext_getElem (length_eq_of_map_identity? hagain) fun i hi hi' => ?_)
    exact (Slot.object.inj (ih i _ _ _ (List.getElem?_eq_getElem hi') (List.getElem?_eq_getElem hi)
      (List.getElem?_eq_getElem hi') rfl)).2

/-! What a slot of a known form holds. -/

theorem object_inv {a z : Fields} (h : m.Retraces view (.object type a) again (.object type z)) :
    ∃ b, again = .object type b ∧ b.length = a.length ∧ z.length = a.length ∧
      ∀ (i : Nat) s t u, a[i]? = some s → b[i]? = some t → z[i]? = some u →
        m.Retraces (View.atField view i) s t u := by
  cases h with
  | untouched h =>
    obtain ⟨_, ⟨⟩, hlength, hfields⟩ := h.object_inv
    refine ⟨z, rfl, hlength, hlength, fun i s t u hs ht hu => ?_⟩
    obtain rfl := Option.some_inj.1 (ht.symm.trans hu)
    exact .untouched (hfields i s t hs ht)
  | object hagain hlast hfields => exact ⟨_, rfl, hagain, hlast, hfields⟩

theorem optional_inv {n : Node} {a z : Fields}
    (h : m.Retraces (some (.object (some n))) (.optional type (some a)) again
      (.optional type (some z))) :
    ∃ b, again = .optional type (some b) ∧
      m.Retraces (some (.object (some n))) (.object type a) (.object type b) (.object type z) := by
  cases h with
  | untouched h =>
    obtain ⟨_, ⟨⟩, hpresent⟩ := h.optional_inv
    exact ⟨z, rfl, .untouched hpresent⟩
  | optional hpresent => exact ⟨_, rfl, hpresent⟩

theorem leafDictionary_inv {leafType : LeafType} {a z : List (String × Cell)}
    (h : m.Retraces view (.leafDictionary leafType a) again (.leafDictionary leafType z)) :
    ∃ b, again = .leafDictionary leafType b ∧ Dictionary.Overwrites z b ∧
      ∀ key, Dictionary.find? key b = Dictionary.find? key z ∨
        Dictionary.find? key b = Dictionary.find? key a := by
  cases h with
  | untouched => exact ⟨z, rfl, .refl, fun _ => .inl rfl⟩
  | leafDictionary hover hcells => exact ⟨_, rfl, hover, hcells⟩

theorem dictionary_inv {a z : List (String × Fields)}
    (h : m.Retraces view (.dictionary type a) again (.dictionary type z)) :
    ∃ b, again = .dictionary type b ∧ Dictionary.Overwrites z b ∧
      (∀ key, Dictionary.find? key a = none → Dictionary.find? key b = Dictionary.find? key z) ∧
      ∀ key f g h, Dictionary.find? key a = some f → Dictionary.find? key b = some g →
        Dictionary.find? key z = some h →
        m.Retraces (View.atKey view key) (.object type f) (.object type g) (.object type h) := by
  cases h with
  | untouched h =>
    obtain ⟨_, ⟨⟩, hkeys, hentries⟩ := h.dictionary_inv
    refine ⟨z, rfl, .refl, fun _ _ => rfl, fun key f g h hf hg hh => ?_⟩
    obtain rfl := Option.some_inj.1 (hg.symm.trans hh)
    exact .untouched (hentries key f g hf hg)
  | dictionary hover hnew hentries => exact ⟨_, rfl, hover, hnew, hentries⟩

theorem collection_inv (hidentified : (m.catalogue type).identified = true) {a z : List Fields}
    (h : m.Retraces view (.collection type a) again (.collection type z)) :
    ∃ b, again = .collection type b ∧
      b.map (m.identity? type) = a.map (m.identity? type) ∧
      z.map (m.identity? type) = a.map (m.identity? type) ∧
      ∀ (i : Nat) f g h, a[i]? = some f → b[i]? = some g → z[i]? = some h →
        m.Retraces (m.viewOfItem view (m.identity? type f)) (.object type f) (.object type g)
          (.object type h) := by
  cases h with
  | untouched h =>
    obtain ⟨_, ⟨⟩, hids, hitems⟩ := h.collection_inv hidentified
    refine ⟨z, rfl, hids, hids, fun i f g h hf hg hh => ?_⟩
    obtain rfl := Option.some_inj.1 (hg.symm.trans hh)
    exact .untouched (hitems i f g hf hg)
  | collection hagain hlast hitems => exact ⟨_, rfl, hagain, hlast, hitems⟩

/-! What holds a slot changes with it. -/

theorem set {a b z : Fields} {i : Nat} {new new' left : Slot} (hb : b.length = a.length)
    (hz : z.length = a.length)
    (hfields : ∀ (i : Nat) s t u, a[i]? = some s → b[i]? = some t → z[i]? = some u →
      m.Retraces (View.atField view i) s t u)
    (hleft : z[i]? = some left) (h : m.Retraces (View.atField view i) new new' left) :
    m.Retraces view (.object type (a.set i new)) (.object type (b.set i new'))
      (.object type z) :=
  .object (by simpa using hb) (by simpa using hz) (forall_getElem?_set_both
    (R := fun j s t u => m.Retraces (View.atField view j) s t u) hfields hleft h)

theorem insert {a b z : List (String × Fields)} {key : String} {new new' left : Fields}
    (hover : Dictionary.Overwrites z b)
    (hnew : ∀ key, Dictionary.find? key a = none →
      Dictionary.find? key b = Dictionary.find? key z)
    (hentries : ∀ key f g h, Dictionary.find? key a = some f → Dictionary.find? key b = some g →
      Dictionary.find? key z = some h →
      m.Retraces (View.atKey view key) (.object type f) (.object type g) (.object type h))
    (hleft : Dictionary.find? key z = some left)
    (h : m.Retraces (View.atKey view key) (.object type new) (.object type new')
      (.object type left)) :
    m.Retraces view (.dictionary type (Dictionary.insert key new a))
      (.dictionary type (Dictionary.insert key new' b)) (.dictionary type z) := by
  refine .dictionary (hover.insert (by rw [hleft]; rfl)) (fun other hother => ?_)
    fun other s t u hs ht hu => ?_ <;> rcases eq_or_ne other key with rfl | hne
  · rw [Dictionary.find?_insert_self] at hother
    cases hother
  · rw [Dictionary.find?_insert_of_ne hne] at hother ⊢
    exact hnew other hother
  · rw [Dictionary.find?_insert_self] at hs ht
    obtain rfl := Option.some_inj.1 hs
    obtain rfl := Option.some_inj.1 ht
    obtain rfl := Option.some_inj.1 (hleft.symm.trans hu)
    exact h
  · rw [Dictionary.find?_insert_of_ne hne] at hs ht
    exact hentries other s t u hs ht hu

/-- The same cell is put at a key both times. -/
theorem insert_cell {leafType : LeafType} {a b z : List (String × Cell)} {key : String}
    (cell : Cell) (hover : Dictionary.Overwrites z b)
    (hcells : ∀ key, Dictionary.find? key b = Dictionary.find? key z ∨
      Dictionary.find? key b = Dictionary.find? key a)
    (hkey : (Dictionary.find? key z).isSome) :
    m.Retraces view (.leafDictionary leafType (Dictionary.insert key cell a))
      (.leafDictionary leafType (Dictionary.insert key cell b)) (.leafDictionary leafType z) := by
  refine .leafDictionary (hover.insert hkey) fun other => ?_
  rcases eq_or_ne other key with rfl | hne
  · simp
  · simpa only [Dictionary.find?_insert_of_ne hne] using hcells other

theorem set_item {a b z : List Fields} {i : Nat} {item new new' left : Fields}
    (hb : b.map (m.identity? type) = a.map (m.identity? type))
    (hz : z.map (m.identity? type) = a.map (m.identity? type))
    (hitems : ∀ (i : Nat) f g h, a[i]? = some f → b[i]? = some g → z[i]? = some h →
      m.Retraces (m.viewOfItem view (m.identity? type f)) (.object type f) (.object type g)
        (.object type h))
    (hitem : a[i]? = some item) (hleft : z[i]? = some left)
    (hnew : m.identity? type new = m.identity? type item)
    (hnew' : m.identity? type new' = m.identity? type item)
    (h : m.Retraces (m.viewOfItem view (m.identity? type item)) (.object type new)
      (.object type new') (.object type left)) :
    m.Retraces view (.collection type (a.set i new)) (.collection type (b.set i new'))
      (.collection type z) := by
  have hi := (List.getElem?_eq_some_iff.1 hitem).1
  have hbitem := List.getElem?_eq_getElem (length_eq_of_map_identity? hb ▸ hi)
  have ha : (a.set i new).map (m.identity? type) = a.map (m.identity? type) :=
    map_identity?_set hitem hnew
  have hb' : (b.set i new').map (m.identity? type) = b.map (m.identity? type) :=
    map_identity?_set hbitem (hnew'.trans (identity?_eq_of_map hb hitem hbitem).symm)
  refine .collection ((hb'.trans hb).trans ha.symm) (hz.trans ha.symm) (forall_getElem?_set_both
    (R := fun _ f g h => m.Retraces (m.viewOfItem view (m.identity? type f)) (.object type f)
      (.object type g) (.object type h)) hitems hleft ?_)
  rw [hnew]
  exact h

end Retraces

/-! ## What can be done again -/

section Repeating

variable {α : Type} {wrap : α → Slot} {x y : Effect α} {place : Place}

/-- What was done can be done again, in a second merge which so far retraced the first one:
then it takes up no identity, and still retraces the first merge. `wrap` makes a slot of what
is changed. -/
structure Repeats (m : Merger) (view : Option View) (wrap : α → Slot) (x : Effect α)
    (old new : α) : Prop where
  faces : Faces m.catalogue view (wrap new)
  evolves : m.Evolves view (wrap old) (wrap new)
  retraces : ∀ again last, m.Retraces view (wrap old) (wrap again) last →
    m.Evolves view (wrap new) last →
    ∃ changes again', x again [] changes again' ∧ m.Retraces view (wrap new) (wrap again') last

/-- What is done to slots of a place can be done again, whenever it is done. -/
def Repeatable (m : Merger) (place : Place) (view : Option View) (wrap : α → Slot)
    (x : Effect α) : Prop :=
  ∀ ⦃old : α⦄ ⦃ids : List Uuid⦄ ⦃changes : List Change⦄ ⦃new : α⦄, (wrap old).place = place →
    Faces m.catalogue view (wrap old) → x old ids changes new → m.Repeats view wrap x old new

namespace Repeatable

theorem idle : m.Repeatable place view wrap Effect.Idle := by
  rintro old _ _ _ - hfaces ⟨⟩
  exact ⟨hfaces, .refl, fun again last hagain _ => ⟨[], again, .intro, hagain⟩⟩

theorem seq (hx : m.Repeatable place view wrap x) (hy : m.Repeatable place view wrap y) :
    m.Repeatable place view wrap (Effect.Then x y) := by
  rintro old _ _ new hplace hfaces ⟨hfirst, hsecond⟩
  have hmid := hx hplace hfaces hfirst
  have hnew := hy (by rw [← Form.place_form, hmid.evolves.form_eq, Form.place_form, hplace])
    hmid.faces hsecond
  refine ⟨hnew.faces, hmid.evolves.trans hnew.evolves, fun again last hagain hlast => ?_⟩
  obtain ⟨changes, between, hx', hbetween⟩ :=
    hmid.retraces again last hagain (hnew.evolves.trans hlast)
  obtain ⟨more, again', hy', hagain'⟩ := hnew.retraces between last hbetween hlast
  exact ⟨_, again', .intro hx' hy', hagain'⟩

end Repeatable

end Repeating

section

variable {full : Path} {act : Act} {keys : List String} {old new : Slot} {ids : List Uuid}
  {changes : List Change} {fields made : Fields} {found : Option Fields}

theorem Provides.typed (hwell : m.catalogue.WellTyped) (h : m.Provides type found ids fields)
    (hfound : ∀ f, found = some f → Typed m.catalogue (.object type f)) :
    Typed m.catalogue (.object type fields) := by
  cases h with
  | found => exact hfound fields rfl
  | plain => exact hwell type
  | fresh _ hfresh =>
    obtain ⟨i, hi, hslot⟩ := Schema.identity_field_of_needsFreshIdentity hfresh
    simp only [Schema.withIdentity, hi]
    exact (hwell type).set hslot rfl .leaf

/-! What is done behind a key, done again. -/

section

variable {key next name : String} {rest : List String} {patch : Node}

/-- The key goes to the same field. -/
theorem Repeats.field (hderived : m.catalogue.Derived) {pm om : Member} {i : Nat}
    (hfaces : Faces m.catalogue (some (.object (some patch))) (.object type fields))
    (hid : rest = [] → isIdentityKey name = false) (hpm : m.member? patch name = some pm)
    (hom : m.member? ⟨type, fields⟩ name = some om) (hwrites : om.writes = some i)
    (hslot : fields[i]? = some old) (hplace : m.under (.owner type) name = old.place)
    (hkind : rest = [] → om.kind = old.kind)
    (h : Faces m.catalogue (patch.read? pm) old →
      m.Repeats (patch.read? pm) id (m.Lands full act rest (patch.read? pm)) old new) :
    m.Repeats (some (.object (some patch))) id
      (m.Lands full act (name :: rest) (some (.object (some patch)))) (.object type fields)
      (.object type (fields.set i new)) := by
  obtain ⟨htype, -⟩ := hfaces.object
  have hview := read?_eq_atField hderived htype hpm hom hwrites
  have hinner := h (hview ▸ hfaces.atField hslot)
  have hform := hinner.evolves.form_eq
  refine ⟨hfaces.of_form rfl (hfaces.typed.set hslot hform hinner.faces.typed),
    .set hslot (hview ▸ hinner.evolves), fun again last hagain hlast => ?_⟩
  obtain ⟨z, rfl, -, hzfields⟩ := hlast.object_inv
  obtain ⟨b, rfl, hb, hz, hfields⟩ := hagain.object_inv
  have hi := (List.getElem?_eq_some_iff.1 hslot).1
  have hbslot := List.getElem?_eq_getElem (hb ▸ hi)
  have hzslot := List.getElem?_eq_getElem (hz ▸ hi)
  have hretraces := hfields i old _ _ hslot hbslot hzslot
  have hevolves := hzfields i new _ (List.getElem?_set_self hi) hzslot
  rw [← hview] at hretraces hevolves
  obtain ⟨changes', new', hlands, hnew⟩ := hinner.retraces _ _ hretraces hevolves
  refine ⟨changes', _, .field hid hpm hom hwrites hbslot ?_ ?_ hlands,
    .set hb hz hfields hzslot (hview ▸ hnew)⟩
  · rw [hplace, ← Form.place_form, ← hretraces.form_eq, Form.place_form]
  · rw [← Form.kind_form, hretraces.form_eq, Form.kind_form]
    exact hkind

/-- An object that was made is there. -/
theorem Repeats.optional (hwell : m.catalogue.WellTyped)
    (hfaces : Faces m.catalogue (some (.object (some patch))) (.optional type found))
    (hprovides : m.Provides type found ids fields)
    (h : Faces m.catalogue (some (.object (some patch))) (.object type fields) →
      m.Repeats (some (.object (some patch))) id
        (m.Lands full act (key :: rest) (some (.object (some patch)))) (.object type fields)
        (.object type made)) :
    m.Repeats (some (.object (some patch))) id
      (m.Lands full act (key :: rest) (some (.object (some patch)))) (.optional type found)
      (.optional type (some made)) := by
  have hinner := h (hfaces.optional (hprovides.typed hwell hfaces.typed.present))
  refine ⟨hfaces.of_form rfl (.optional hinner.faces.typed), ?_, fun again last hagain hlast => ?_⟩
  · cases hprovides with
    | found => exact .optional hinner.evolves
    | plain | fresh => exact .made
  · obtain ⟨z, rfl, hz⟩ := hlast.optional_inv
    obtain ⟨b, rfl, hb⟩ : ∃ b, again = .optional type (some b) ∧
        m.Retraces (some (.object (some patch))) (.object type fields) (.object type b)
          (.object type z) := by
      cases hprovides with
      | found => exact hagain.optional_inv
      | plain | fresh =>
        -- the object was not there yet, so it is as it was left
        cases hagain with
        | untouched => exact ⟨z, rfl, .untouched (hinner.evolves.trans hz)⟩
    obtain ⟨changes', _, hlands, hmade⟩ := hinner.retraces _ _ hb hz
    obtain ⟨_, b', -, rfl⟩ := hlands.of_object
    exact ⟨changes', _, .optional .found hlands, .optional hmade⟩

/-- So is an entry. -/
theorem Repeats.entry (hwell : m.catalogue.WellTyped) {patchType : TypeName}
    {patchEntries entries : List (String × Fields)} {p : Fields}
    (hfaces : Faces m.catalogue (some (.dictionary patchType patchEntries))
      (.dictionary type entries))
    (hpatch : Dictionary.find? key patchEntries = some p)
    (hprovides : m.Provides type (Dictionary.find? key entries) ids fields)
    (h : Faces m.catalogue (some (.object (some ⟨patchType, p⟩))) (.object type fields) →
      m.Repeats (some (.object (some ⟨patchType, p⟩))) id
        (m.Lands full act (next :: rest) (some (.object (some ⟨patchType, p⟩))))
        (.object type fields) (.object type made)) :
    m.Repeats (some (.dictionary patchType patchEntries)) id
      (m.Lands full act (key :: next :: rest) (some (.dictionary patchType patchEntries)))
      (.dictionary type entries) (.dictionary type (Dictionary.insert key made entries)) := by
  have hview : View.atKey (some (.dictionary patchType patchEntries)) key =
      some (.object (some ⟨patchType, p⟩)) := by
    rw [View.atKey, hpatch]
    rfl
  have htyped := hprovides.typed hwell fun f hf => hfaces.typed.entry hf
  have hinner := h (hview ▸ hfaces.atKey htyped)
  refine ⟨hfaces.of_form rfl (hfaces.typed.insert hinner.faces.typed), .insert fun f hf => ?_,
    fun again last hagain hlast => ?_⟩
  · rw [hf] at hprovides
    cases hprovides with
    | found => exact hview ▸ hinner.evolves
  · obtain ⟨zs, rfl, hkeys, hzentries⟩ := hlast.dictionary_inv
    obtain ⟨bs, rfl, hover, hnew, hentries⟩ := hagain.dictionary_inv
    obtain ⟨z, hz⟩ := Option.isSome_iff_exists.1 (hkeys key (by simp))
    obtain ⟨b, hb⟩ := Option.isSome_iff_exists.1
      ((hover.isSome_find? key).trans (by rw [hz]; rfl))
    have hevolves := hzentries key made z (Dictionary.find?_insert_self ..) hz
    rw [hview] at hevolves
    have hretraces : m.Retraces (some (.object (some ⟨patchType, p⟩))) (.object type fields)
        (.object type b) (.object type z) := by
      generalize hfind : Dictionary.find? key entries = found at hprovides
      cases hprovides with
      | found => exact hview ▸ hentries key fields b z hfind hb hz
      | plain | fresh =>
        -- the entry was not there yet, so it is as it was left
        obtain rfl := Option.some_inj.1 (hb.symm.trans ((hnew key hfind).trans hz))
        exact .untouched (hinner.evolves.trans hevolves)
    obtain ⟨changes', _, hlands, hmade⟩ := hinner.retraces _ _ hretraces hevolves
    obtain ⟨_, b', -, rfl⟩ := hlands.of_object
    exact ⟨changes', _, .entry hpatch (by rw [hb]; exact .found) hlands,
      .insert hover hnew hentries hz (hview ▸ hmade)⟩

end

/-- What is done where keys lead to can be done again, when it can be done again there. -/
theorem Lands.repeats (hwell : m.catalogue.WellTyped) (hderived : m.catalogue.Derived)
    (hact : ∀ view, m.Repeatable (keys.foldl m.under old.place) view id (act view))
    (hfaces : Faces m.catalogue view old) (h : m.Lands full act keys view old ids changes new) :
    m.Repeats view id (m.Lands full act keys view) old new := by
  induction h with
  | here h =>
    have hhere := hact _ rfl hfaces h
    refine ⟨hhere.faces, hhere.evolves, fun again last hagain hlast => ?_⟩
    obtain ⟨changes, again', hagain', hretraces⟩ := hhere.retraces again last hagain hlast
    exact ⟨changes, again', .here hagain', hretraces⟩
  | identity hid =>
    refine ⟨hfaces, .refl, fun again last hagain _ => ?_⟩
    obtain ⟨b, rfl⟩ := Slot.exists_object hagain.form_eq
    exact ⟨[], _, .identity hid, hagain⟩
  | field hid hpm hom hwrites hslot hplace hkind _ ih =>
    exact .field hderived hfaces hid hpm hom hwrites hslot hplace hkind
      (ih (by rw [← hplace]; exact hact))
  | optional hprovides _ ih => exact .optional hwell hfaces hprovides (ih hact)
  | entry hpatch hprovides _ ih => exact .entry hwell hfaces hpatch hprovides (ih hact)
  | @cell key patchType type patchEntries entries source cell value hsource hencode hcoerce =>
    refine ⟨hfaces.of_form rfl .leafDictionary, .insert_cell .., fun again last hagain hlast => ?_⟩
    obtain ⟨z, rfl, hkeys⟩ := hlast.leafDictionary_inv
    obtain ⟨b, rfl, hover, hcells⟩ := hagain.leafDictionary_inv
    exact ⟨_, _, .cell hsource hencode hcoerce,
      .insert_cell cell hover hcells (hkeys key (by simp))⟩

/-! ## Members -/

/-- A leaf takes over what the patch shows again, and an object that was unset is not there. -/
theorem copies_repeatable (full : Path) (place : Place) (view : Option View) :
    m.Repeatable place view id (Copies full view) := by
  rintro old ids changes new - hfaces h
  cases h with
  | leaf hencode hcoerce =>
    refine ⟨hfaces.of_form rfl .leaf, .leaf, fun again last hagain hlast => ?_⟩
    obtain ⟨b, rfl⟩ := Slot.exists_leaf hagain.form_eq
    obtain ⟨z, rfl⟩ := Slot.exists_leaf hlast.form_eq
    exact ⟨_, _, .leaf hencode hcoerce, .leaf⟩
  | unset =>
    refine ⟨hfaces.of_form rfl .missing, .unset, fun again last hagain hlast => ?_⟩
    obtain ⟨b, rfl⟩ := Slot.exists_optional hagain.form_eq
    rw [hlast.unset_inv]
    exact ⟨_, _, .unset, .untouched .refl⟩

/-- What an array does to a slot can be done again, when what its elements do to the items of
a collection can. -/
theorem arrayTakes_repeatable {elements : List Element} {place : Place}
    (hinner : ∀ type items, place = .items type →
      m.Repeatable (.items type) (some (.collection type items)) (Slot.collection type)
        (m.elementsEffect full type items type 0 elements))
    (view : Option View) : m.Repeatable place view id (m.arrayAct full elements view) := by
  rintro old ids changes new hplace hfaces h
  cases h with
  | emptied helements hcell =>
    refine ⟨hfaces.of_form rfl .leaf, .leaf, fun again last hagain hlast => ?_⟩
    obtain ⟨b, rfl⟩ := Slot.exists_leaf hagain.form_eq
    obtain ⟨z, rfl⟩ := Slot.exists_leaf hlast.form_eq
    exact ⟨_, _, .emptied helements hcell, .leaf⟩
  | assigned helements htakes =>
    have hassigned := copies_repeatable full place view hplace hfaces htakes
    refine ⟨hassigned.faces, hassigned.evolves, fun again last hagain hlast => ?_⟩
    obtain ⟨changes', again', htakes', hagain'⟩ := hassigned.retraces again last hagain hlast
    refine ⟨changes', again', .assigned ?_ htakes', hagain'⟩
    have hform : again.form = old.form := hagain.form_eq
    rw [← Form.kind_form, hform, Form.kind_form]
    exact helements
  | cleared helements hidentified =>
    refine ⟨hfaces.of_form rfl (.collection (by simp)), .cleared hidentified,
      fun again last hagain hlast => ?_⟩
    obtain ⟨b, rfl⟩ := Slot.exists_collection hagain.form_eq
    rw [hlast.nil_inv]
    exact ⟨_, _, .cleared helements hidentified, .untouched .refl⟩
  | reconciled hkept hobjects h =>
    obtain ⟨rfl, -⟩ := hfaces.collection
    have hitems := hinner _ _ hplace.symm rfl hfaces h
    refine ⟨hitems.faces, hitems.evolves, fun again last hagain hlast => ?_⟩
    obtain ⟨b, rfl⟩ := Slot.exists_collection hagain.form_eq
    obtain ⟨changes', left, h', hleft⟩ := hitems.retraces b last hagain hlast
    exact ⟨changes', _, .reconciled hkept hobjects h', hleft⟩

/-! ## Directives -/

variable {base path : List String} {patch : Node} {value : Json} {directives : List Directive}

/-- What is done where keys of an object lead to can be done again to the object. -/
theorem lands_repeatable (hwell : m.catalogue.WellTyped) (hderived : m.catalogue.Derived)
    (hact : ∀ view, m.Repeatable (path.foldl m.under (.owner type)) view id (act view)) :
    m.Repeatable (.owner type) (some (.object (some patch))) (Slot.object type)
      fun fields ids changes made => m.Lands full act path (some (.object (some patch)))
        (.object type fields) ids changes (.object type made) := by
  rintro fields ids changes made - hfaces h
  have hhere : ∀ view, m.Repeatable (path.foldl m.under (Slot.object type fields).place) view id
      (act view) := hact
  have hlands := h.repeats hwell hderived hhere hfaces
  refine ⟨hlands.faces, hlands.evolves, fun again last hagain hlast => ?_⟩
  obtain ⟨changes', made', h', hmade⟩ := hlands.retraces _ last hagain hlast
  obtain ⟨again', rfl⟩ := Slot.exists_object hmade.form_eq
  exact ⟨changes', again', h', hmade⟩

theorem effect_scalar_repeatable (hwell : m.catalogue.WellTyped) (hderived : m.catalogue.Derived) :
    m.Repeatable (.owner type) (some (.object (some patch))) (Slot.object type)
      (m.effect base patch type (.scalar path value)) := by
  unfold effect
  split
  · exact .idle
  · exact lands_repeatable hwell hderived fun view => copies_repeatable _ _ view

theorem effect_array_repeatable (hwell : m.catalogue.WellTyped) (hderived : m.catalogue.Derived)
    {elements : List Element}
    (hinner : ∀ itemType items, path.foldl m.under (.owner type) = .items itemType →
      m.Repeatable (.items itemType) (some (.collection itemType items))
        (Slot.collection itemType)
        (m.elementsEffect ⟨base ++ path⟩ itemType items itemType 0 elements)) :
    m.Repeatable (.owner type) (some (.object (some patch))) (Slot.object type)
      (m.effect base patch type (.array path elements)) := by
  rw [effect]
  exact lands_repeatable hwell hderived (arrayTakes_repeatable hinner)

theorem effects_repeatable
    (hdirectives : ∀ d ∈ directives, m.Repeatable (.owner type) (some (.object (some patch)))
      (Slot.object type) (m.effect base patch type d)) :
    m.Repeatable (.owner type) (some (.object (some patch))) (Slot.object type)
      (m.effects base patch type directives) := by
  induction directives with
  | nil => exact .idle
  | cons directive directives ih =>
    rw [effects]
    exact (hdirectives _ (List.mem_cons_self ..)).seq
      (ih fun d hd => hdirectives d (List.mem_cons_of_mem _ hd))

/-! ## Elements -/

/-- An element asks for an update of the item with the identity that it carries: it is an
object with an identity, and without a removal marker that is true. -/
def AsksUpdate (options : Options) (item : Json) : Prop :=
  ∃ id, item.intent? options = some (.update id)

/-- What the directives of an element do to the item that it names, each time to the same one,
can be done again to the items. -/
theorem elementEffect_repeatable (hderived : m.catalogue.Derived)
    (hstores : m.catalogue.StoresIdentities) {item : Json} (hitem : AsksUpdate m.options item)
    (hdirectives : ∀ patchItem, m.Repeatable (.owner type) (some (.object (some patchItem)))
      (Slot.object type) (m.effects full.segments patchItem type directives))
    (patchItems : List Fields) (position : Nat) :
    m.Repeatable (.items type) (some (.collection type patchItems)) (Slot.collection type)
      (m.elementEffect full type patchItems type position (.mk item directives)) := by
  rintro items ids changes left - hfaces h
  obtain ⟨id, hupdate⟩ := hitem
  obtain ⟨members, rfl, -⟩ := Intent.intent?_eq_some_iff.1 hupdate
  simp only [elementEffect] at h ⊢
  cases h with
  | add hintent => cases hupdate.symm.trans (Intent.intent?_of_ofMembers hintent)
  | remove hintent => cases hupdate.symm.trans (Intent.intent?_of_ofMembers hintent)
  | @update other index item made patchItem _ _ hintent hindex hitem hpatch hinner =>
    cases hupdate.symm.trans (Intent.intent?_of_ofMembers hintent)
    have hid : m.identity? type item = some id := identity?_of_position? hindex hitem
    have hidentified := hstores.identified hid
    have hview : m.viewOfItem (some (.collection type patchItems)) (m.identity? type item) =
        some (.object (some patchItem)) := by
      rw [hid, viewOfItem, hpatch]
      rfl
    have htyped := hfaces.typed.item (List.mem_of_getElem? hitem)
    have hmade := hdirectives patchItem rfl (hview ▸ hfaces.viewOfItem htyped) hinner
    have hsame := (effects_identity?_of_itemWithId? hderived hpatch hid hinner).trans hid.symm
    refine ⟨hfaces.of_form rfl (hfaces.typed.set_item hmade.faces.typed index),
      .set_item hitem hsame (hview ▸ hmade.evolves), fun again last hagain hlast => ?_⟩
    obtain ⟨z, rfl, -, hzitems⟩ := hlast.collection_inv hidentified
    obtain ⟨_, ⟨⟩, hb, hz, hitems⟩ := hagain.collection_inv hidentified
    have hi := (List.getElem?_eq_some_iff.1 hitem).1
    have hbitem := List.getElem?_eq_getElem (length_eq_of_map_identity? hb ▸ hi)
    have hzitem := List.getElem?_eq_getElem (length_eq_of_map_identity? hz ▸ hi)
    have hretraces := hitems index item _ _ hitem hbitem hzitem
    have hevolves := hzitems index made _ (List.getElem?_set_self hi) hzitem
    rw [hview] at hretraces
    rw [hsame, hview] at hevolves
    obtain ⟨changes', made', hinner', hmade'⟩ := hmade.retraces _ _ hretraces hevolves
    have hbid := (identity?_eq_of_map hb hitem hbitem).trans hid
    refine ⟨changes', _, .update hintent ((position?_congr hb id).trans hindex) hbitem hpatch
      hinner', .set_item hb hz hitems hitem hzitem hsame ?_ (hview ▸ hmade')⟩
    exact (effects_identity?_of_itemWithId? hderived hpatch hbid hinner').trans hid.symm

theorem elementsEffect_repeatable {elements : List Element} {patchItems : List Fields}
    (helements : ∀ e ∈ elements, ∀ position, m.Repeatable (.items type)
      (some (.collection type patchItems)) (Slot.collection type)
      (m.elementEffect full type patchItems type position e)) (position : Nat) :
    m.Repeatable (.items type) (some (.collection type patchItems)) (Slot.collection type)
      (m.elementsEffect full type patchItems type position elements) := by
  induction elements generalizing position with
  | nil => exact .idle
  | cons element elements ih =>
    rw [elementsEffect]
    exact (helements _ (List.mem_cons_self ..) position).seq
      (ih (fun e he => helements e (List.mem_cons_of_mem _ he)) (position + 1))

end

/-! ## Payloads -/

open Directive (levels)

/-- The elements of an array that stands where a type declares a collection all ask for
updates. What stands below a removal marker is not looked at. -/
inductive NamesItems (m : Merger) : Place → Json → Prop where
  | object {place : Place} {members : List (String × Json)}
      (hmembers : ∀ a ∈ members, m.options.isRemoveMarker a.1 = false →
        NamesItems m (m.under place a.1) a.2) : NamesItems m place (.object members)
  | array {place : Place} {items : List Json}
      (hasks : ∀ type, place = .items type → ∀ item ∈ items, AsksUpdate m.options item)
      (hitems : ∀ item ∈ items, NamesItems m place.item item) : NamesItems m place (.array items)
  | string {place : Place} {text : String} : NamesItems m place (.string text)
  | number {place : Place} {n : JsonNumber} : NamesItems m place (.number n)
  | bool {place : Place} {b : Bool} : NamesItems m place (.bool b)
  | null {place : Place} : NamesItems m place .null

section

variable (hwell : m.catalogue.WellTyped) (hderived : m.catalogue.Derived)
  (hstores : m.catalogue.StoresIdentities)

include hwell hderived hstores

/-- The directives of such a payload can be done again. -/
theorem NamesItems.repeatable {place : Place} {value : Json} (h : m.NamesItems place value) :
    ∀ {type : TypeName} {path : List String}, path.foldl m.under (.owner type) = place →
      ∀ d ∈ (levels m.options path value).flatten, ∀ (base : List String) (patch : Node),
      m.Repeatable (.owner type) (some (.object (some patch))) (Slot.object type)
        (m.effect base patch type d) := by
  induction h with
  | @object place members _ ih =>
    intro type path hplace d hd base patch
    rw [levels, List.flatten_cons, List.nil_append] at hd
    obtain ⟨a, ha, hd⟩ := List.mem_flatMap.1 ((perm_flatten_memberLevels ..).mem_iff.1 hd)
    unfold directivesBelow at hd
    split at hd
    · cases hd
    · rename_i hmarker
      refine ih a ha (by simpa using hmarker) ?_ d hd base patch
      rw [List.foldl_append, hplace]
      rfl
  | @array place items hasks _ ih =>
    intro type path hplace d hd base patch
    obtain rfl : d = .array path (Directive.elements m.options items) := by
      simpa [levels] using hd
    refine effect_array_repeatable hwell hderived fun itemType patchItems hitemPlace =>
      elementsEffect_repeatable (fun e he position => ?_) 0
    obtain rfl := hplace.symm.trans hitemPlace
    rw [Directive.elements_eq_map] at he
    obtain ⟨item, hitem, rfl⟩ := List.mem_map.1 he
    have hitemAsks := hasks itemType rfl item hitem
    refine elementEffect_repeatable hderived hstores hitemAsks
      (fun patchItem => effects_repeatable fun d hd => ?_) patchItems position
    obtain ⟨id, hupdate⟩ := hitemAsks
    obtain ⟨members, rfl, -⟩ := Intent.intent?_eq_some_iff.1 hupdate
    have hroot : [].foldl m.under (.owner itemType) = Place.item (.items itemType) := rfl
    exact ih _ hitem hroot d (by rwa [levels, List.flatten_cons, List.nil_append]) _ _
  | string | number | bool | null =>
    intro type path _ d hd base patch
    rw [levels, List.flatten_cons, List.flatten_nil, List.append_nil, List.mem_singleton] at hd
    exact hd ▸ effect_scalar_repeatable hwell hderived

variable (hempty : m.configuration = .empty) (hvalidator : m.validator = .approveAll)

include hempty hvalidator

/-- A merge whose arrays only update items that they name can be done again: with the same
payload and the same patch the object that it left stays as it is, whatever identities are
given out by then. -/
theorem merge_again {patch original : Node} {payload : Json} {minted : Nat} {report : Report}
    (halike : m.Alike patch original) (hnames : m.NamesItems (.owner original.type) payload)
    (hok : (m.merge patch original payload minted).result = .ok report) (minted' : Nat) :
    ∃ report', (m.merge patch (m.merge patch original payload minted).original payload
        minted').result = .ok report' ∧
      (m.merge patch (m.merge patch original payload minted).original payload
        minted').original = (m.merge patch original payload minted).original := by
  obtain ⟨members, made, s, rfl, hwalk, rfl, heq⟩ := Walks.of_merge hok
  rw [heq]
  obtain ⟨ids, changes, heffects, -⟩ :=
    runsEffect hempty hwell hderived _ halike.original hwalk
  have hrepeatable : m.Repeatable (.owner original.type) (some (.object (some patch)))
      (Slot.object original.type)
      (m.effects [] patch original.type (Directive.ofMembers m.options members)) := by
    refine effects_repeatable fun d hd => ?_
    have hroot : [].foldl m.under (.owner original.type) = .owner original.type := rfl
    exact hnames.repeatable hwell hderived hstores hroot d
      (by rwa [levels, List.flatten_cons, List.nil_append]) [] patch
  have hrepeats := hrepeatable rfl (.of_alike halike) heffects
  obtain ⟨changes', again, heffects', hagain⟩ :=
    hrepeats.retraces made _ (.untouched hrepeats.evolves) .refl
  obtain rfl : again = made := (Slot.object.inj (hagain.eq_last rfl)).2
  obtain ⟨s', hrun, -⟩ := effectsRun hvalidator hempty hderived _
    (s := Session.start minted') heffects' trivial
  refine ⟨s'.report, ?_⟩
  have hrun' : m.applyMembers patch ⟨original.type, again⟩ members (Session.start minted') =
      .ok again s' := hrun
  rw [merge_object, hrun']
  exact ⟨rfl, rfl⟩

end

end Merger

/-! ## A branch of an elm -/

namespace Sample

/-- An elm with a branch. -/
def branchedElm : Node :=
  ⟨"Tree", sapling 1 "Root" [[.leaf .uuid (.uuid ⟨11⟩), .leaf .text (.text "Elm"),
    .collection "Tree" [], .dictionary "Tree" [("east", sapling 2 "East" [])]]]⟩

/-- A payload with the name of the elm and the name of its branch, and no other children. -/
def branchOfElm : Json :=
  .object [("Children", .array [.object
      [("Id", .string "00000000-0000-0000-0000-00000000000b"), ("Name", .null),
        ("Branches", .object [("east", .object [("Name", .null)])])]]),
    ("children", .array [])]

theorem branchedElm_alike : nursery.Alike branchedElm oakAndElm where
  type_eq := rfl
  patch := by
    refine sapling_typed 1 "Root" fun child hchild => ?_
    obtain rfl := List.mem_singleton.1 hchild
    refine .of_forms rfl fun slot hslot => ?_
    simp only [List.mem_cons, List.not_mem_nil, or_false] at hslot
    rcases hslot with rfl | rfl | rfl | rfl
    · exact .leaf
    · exact .leaf
    · exact .collection (by simp)
    · refine .dictionary fun key fields hfind => ?_
      rw [Dictionary.find?_cons] at hfind
      split at hfind
      · obtain rfl := Option.some_inj.1 hfind
        exact sapling_typed 2 "East" (by simp)
      · cases hfind
  original := oakAndElm_typed

theorem branchOfElm_namesItems : nursery.NamesItems (.owner "Tree") branchOfElm := by
  have hname : ∀ place, nursery.NamesItems place (.object [("Name", .null)]) := by
    refine fun place => .object fun a ha _ => ?_
    obtain rfl := List.mem_singleton.1 ha
    exact .null
  refine .object fun a ha _ => ?_
  rcases List.mem_pair.1 ha with rfl | rfl
  · refine .array (fun _ _ item hitem => ?_) fun item hitem => ?_
    · obtain rfl := List.mem_singleton.1 hitem
      exact ⟨⟨11⟩, by decide +kernel⟩
    · obtain rfl := List.mem_singleton.1 hitem
      refine .object fun a ha _ => ?_
      simp only [List.mem_cons, List.not_mem_nil, or_false] at ha
      rcases ha with rfl | rfl | rfl
      · exact .string
      · exact .null
      · refine .object fun a ha _ => ?_
        obtain rfl := List.mem_singleton.1 ha
        exact hname _
  · exact .array (by simp) (by simp)

end Sample

/-- The branch is made the first time, and found the second time. -/
theorem merge_again_nursery :
    let first := Sample.nursery.merge Sample.branchedElm Sample.oakAndElm Sample.branchOfElm 0
    first.minted = 1 ∧
      first.result = .ok ⟨[⟨⟨["Children", "Name"]⟩, .updated, none⟩,
        ⟨⟨["Children", "Branches", "east", "Name"]⟩, .updated, none⟩]⟩ ∧
      ∃ report, (Sample.nursery.merge Sample.branchedElm first.original Sample.branchOfElm
          1).result = .ok report ∧
        (Sample.nursery.merge Sample.branchedElm first.original Sample.branchOfElm
          1).original = first.original := by
  have hok : (Sample.nursery.merge Sample.branchedElm Sample.oakAndElm Sample.branchOfElm
      0).result = .ok ⟨[⟨⟨["Children", "Name"]⟩, .updated, none⟩,
        ⟨⟨["Children", "Branches", "east", "Name"]⟩, .updated, none⟩]⟩ := by
    decide +kernel
  refine ⟨by decide +kernel, hok, ?_⟩
  exact Merger.merge_again Sample.nursery_wellTyped Sample.nursery_derived (fun _ _ => rfl) rfl rfl
    Sample.branchedElm_alike Sample.branchOfElm_namesItems hok 1

end SelectiveMerge
