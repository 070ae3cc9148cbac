import SelectiveMerge.Proofs.Effects
import SelectiveMerge.Proofs.UuidText

/-!
# Identities under other names

Identities that are given out during a merge are as good as any others: when they occur
nowhere else, they can be replaced by others that occur nowhere else either, and an effect
stays an effect.

* `Slot.rename`, `Change.rename` — identities under other names
* `Slot.Avoids` — no leaf of a slot can be read as one of some identifiers
* `Slot.rename_eq_self` — then it does not matter how these are renamed
* `Merger.renamesEffect` — an effect with its identities renamed
-/

namespace SelectiveMerge

/-! ## Renaming -/

/-- A leaf whose identifier goes by another name. -/
def Cell.rename (ρ : Uuid → Uuid) : Cell → Cell
  | .uuid u => .uuid (ρ u)
  | cell => cell

namespace Slot

mutual

/-- A slot whose identifiers go by other names, at any depth. -/
def rename (ρ : Uuid → Uuid) : Slot → Slot
  | .leaf type value => .leaf type (value.rename ρ)
  | .object type fields => .object type (renameFields ρ fields)
  | .optional type none => .optional type none
  | .optional type (some fields) => .optional type (some (renameFields ρ fields))
  | .collection type items => .collection type (renameItems ρ items)
  | .dictionary type entries => .dictionary type (renameEntries ρ entries)
  | .leafDictionary type entries => .leafDictionary type entries

/-- The fields of an object, renamed. -/
def renameFields (ρ : Uuid → Uuid) : List Slot → List Slot
  | [] => []
  | slot :: fields => slot.rename ρ :: renameFields ρ fields

/-- The items of a collection, renamed. -/
def renameItems (ρ : Uuid → Uuid) : List (List Slot) → List (List Slot)
  | [] => []
  | item :: items => renameFields ρ item :: renameItems ρ items

/-- The entries of a dictionary, renamed. -/
def renameEntries (ρ : Uuid → Uuid) : List (String × List Slot) → List (String × List Slot)
  | [] => []
  | (key, fields) :: entries => (key, renameFields ρ fields) :: renameEntries ρ entries

end

variable {ρ : Uuid → Uuid} {type : TypeName}

theorem renameFields_eq_map (fields : Fields) : renameFields ρ fields = fields.map (rename ρ) := by
  induction fields with
  | nil => rfl
  | cons slot fields ih => rw [renameFields, ih, List.map_cons]

theorem renameItems_eq_map (items : List Fields) :
    renameItems ρ items = items.map (renameFields ρ) := by
  induction items with
  | nil => rfl
  | cons item items ih => rw [renameItems, ih, List.map_cons]

theorem renameEntries_eq_map (entries : List (String × Fields)) :
    renameEntries ρ entries = entries.map (Prod.map id (renameFields ρ)) := by
  induction entries with
  | nil => rfl
  | cons entry entries ih =>
    obtain ⟨key, fields⟩ := entry
    rw [renameEntries, ih, List.map_cons]
    rfl

theorem rename_optional (present : Option Fields) :
    (optional type present).rename ρ = .optional type (present.map (renameFields ρ)) := by
  cases present <;> rfl

@[simp] theorem place_rename (s : Slot) : (s.rename ρ).place = s.place := by
  cases s with
  | optional type present => cases present <;> rfl
  | _ => rfl

@[simp] theorem kind_rename (s : Slot) : (s.rename ρ).kind = s.kind := by
  cases s with
  | optional type present => cases present <;> rfl
  | _ => rfl

end Slot

/-- An object whose identifiers go by other names. -/
def Node.rename (ρ : Uuid → Uuid) (n : Node) : Node := ⟨n.type, Slot.renameFields ρ n.fields⟩

/-- A change whose item goes by another name. -/
def Change.rename (ρ : Uuid → Uuid) (c : Change) : Change := { c with id := c.id.map ρ }

namespace Dictionary

variable {α β : Type} {f : α → β} {key : String} {value : α}

theorem find?_map (entries : List (String × α)) :
    find? key (entries.map (Prod.map id f)) = (find? key entries).map f := by
  induction entries with
  | nil => rfl
  | cons entry rest ih =>
    obtain ⟨k, v⟩ := entry
    rw [List.map_cons, Prod.map_apply, find?_cons, find?_cons, ih, id]
    split <;> rfl

theorem replace_map (entries : List (String × α)) :
    replace key (f value) (entries.map (Prod.map id f)) =
      (replace key value entries).map (Prod.map id f) := by
  induction entries with
  | nil => rfl
  | cons entry rest ih =>
    obtain ⟨k, v⟩ := entry
    by_cases h : k = key <;> simp [replace, h, ih]

theorem place_map (entries : List (String × α)) :
    place key (f value) (entries.map (Prod.map id f)) =
      (place key value entries).map (Prod.map id f) := by
  induction entries with
  | nil => rfl
  | cons entry rest ih =>
    obtain ⟨k, v⟩ := entry
    by_cases h : key < k <;> simp [place, h, ih]

theorem insert_map (entries : List (String × α)) :
    insert key (f value) (entries.map (Prod.map id f)) =
      (insert key value entries).map (Prod.map id f) := by
  unfold insert
  rw [find?_map, Option.isSome_map]
  split
  · exact replace_map entries
  · exact place_map entries

end Dictionary

/-! ## Leaves that are read as identifiers -/

theorem exists_of_toOption_bind {ε α β : Type} {x : Except ε α} {f : α → β} {b : β}
    (h : (x >>= fun a => pure (f a)).toOption = some b) : ∃ a, f a = b := by
  cases x with
  | error e => cases h
  | ok a => exact ⟨a, Option.some_inj.1 h⟩

/-- Only the text of an identifier decodes to one. -/
theorem decode?_eq_uuid {type : LeafType} {value : Json} {u : Uuid}
    (h : type.decode? value = some (.uuid u)) :
    ∃ text, value = .string text ∧ Uuid.ofText? text = some u := by
  unfold LeafType.decode? at h
  rw [LeafType.decode.eq_def] at h
  split at h
  case h_10 text =>
    -- the type of identifiers, and a text
    unfold Uuid.read at h
    cases hread : Uuid.ofText? text with
    | none =>
      rw [hread] at h
      cases h
    | some id =>
      rw [hread] at h
      obtain ⟨⟩ := h
      exact ⟨text, rfl, hread⟩
  -- what has parts is built from them
  case h_13 | h_14 | h_15 | h_17 | h_20 => obtain ⟨_, ⟨⟩⟩ := exists_of_toOption_bind h
  case h_16 =>
    dsimp only at h
    split at h
    · cases h
    · obtain ⟨_, ⟨⟩⟩ := exists_of_toOption_bind h
  -- a character, a number in its range, a variant
  case h_3 | h_5 | h_18 => split at h <;> cases h
  case h_19 =>
    split at h
    · split at h
      · cases h
      · split at h <;> cases h
    · cases h
  all_goals cases h

/-- A text is read as an identifier when it is the text of that identifier: its other readings
are numbers and truth values. -/
theorem coerce?_string_eq_uuid {type : LeafType} {text : String} {u : Uuid}
    (h : Coercion.coerce? type (.string text) = some (.uuid u)) : Uuid.ofText? text = some u := by
  unfold Coercion.coerce? Coercion.firstAccepted at h
  obtain ⟨reading, hreading, hdecode⟩ := List.exists_of_findSome?_eq_some h
  obtain ⟨other, rfl, hother⟩ := decode?_eq_uuid hdecode
  rcases List.mem_cons.1 hreading with heq | hreading
  · rwa [Json.string.inj heq] at hother
  · exfalso
    simp only [Coercion.readings, Coercion.textReadings, Coercion.textNumber?, Coercion.textBool?,
      List.mem_append, Option.mem_toList] at hreading
    rcases hreading with hnumber | hbool
    · split at hnumber <;> simp [Json.ofInt, Json.ofNat] at hnumber
    · split at hbool
      · cases hbool
      · split at hbool <;> cases hbool

/-- A leaf can be read as an identifier. -/
def Cell.Reads (c : Cell) (u : Uuid) : Prop :=
  ∃ value type, c.encode = .ok value ∧ Coercion.coerce? type value = some (.uuid u)

/-- A leaf with a text can be read as the identifier with that text. -/
theorem Cell.Reads.of_text {c : Cell} {text : String} {u : Uuid}
    (hencode : c.encode = .ok (.string text)) (h : c.Reads u) : Uuid.ofText? text = some u := by
  obtain ⟨value, type, hvalue, hcoerce⟩ := h
  obtain rfl := Except.ok.inj (hencode.symm.trans hvalue)
  exact coerce?_string_eq_uuid hcoerce

theorem Cell.reads_uuid_iff {u v : Uuid} : (Cell.uuid u).Reads v ↔ u = v := by
  constructor
  · intro h
    have hread := h.of_text rfl
    rw [Uuid.ofText?_toText] at hread
    exact Option.some_inj.1 hread
  · rintro rfl
    exact ⟨.string u.toText, .uuid, rfl, coerce?_toText u⟩

/-! ## What is the same under other names -/

/-- No leaf in a slot can be read as one of some identifiers. -/
inductive Slot.Avoids (ids : Set Uuid) : Slot → Prop where
  | leaf {type : LeafType} {value : Cell} (hvalue : ∀ id ∈ ids, ¬ value.Reads id) :
      Avoids ids (.leaf type value)
  | leafDictionary {type : LeafType} {entries : List (String × Cell)}
      (hentries : ∀ entry ∈ entries, ∀ id ∈ ids, ¬ entry.2.Reads id) :
      Avoids ids (.leafDictionary type entries)
  | object {type : TypeName} {fields : Fields} (hfields : ∀ slot ∈ fields, Avoids ids slot) :
      Avoids ids (.object type fields)
  | missing {type : TypeName} : Avoids ids (.optional type none)
  | optional {type : TypeName} {fields : Fields} (hpresent : Avoids ids (.object type fields)) :
      Avoids ids (.optional type (some fields))
  | collection {type : TypeName} {items : List Fields}
      (hitems : ∀ item ∈ items, Avoids ids (.object type item)) :
      Avoids ids (.collection type items)
  | dictionary {type : TypeName} {entries : List (String × Fields)}
      (hentries : ∀ entry ∈ entries, Avoids ids (.object type entry.2)) :
      Avoids ids (.dictionary type entries)

variable {ρ : Uuid → Uuid} {ids : Set Uuid}

/-- Only identifiers go by other names. -/
theorem Cell.rename_eq_self {c : Cell} (hfixes : ∀ id, id ∉ ids → ρ id = id)
    (h : ∀ id, c = .uuid id → id ∉ ids) : c.rename ρ = c := by
  cases c with
  | uuid id => rw [rename, hfixes id (h id rfl)]
  | _ => rfl

/-- A slot stays as it is when what is renamed does not occur in it. -/
theorem Slot.rename_eq_self {slot : Slot} (hfixes : ∀ id, id ∉ ids → ρ id = id)
    (h : slot.Avoids ids) : slot.rename ρ = slot := by
  induction h with
  | leaf hvalue =>
    rw [rename, Cell.rename_eq_self hfixes]
    rintro id rfl hid
    exact hvalue id hid (Cell.reads_uuid_iff.2 rfl)
  | leafDictionary => rfl
  | object _ ih =>
    rw [rename, renameFields_eq_map]
    exact congrArg _ ((List.map_congr_left ih).trans (List.map_id' _))
  | missing => rfl
  | optional _ ih =>
    exact congrArg (fun fields => Slot.optional _ (some fields)) (Slot.object.inj ih).2
  | collection _ ih =>
    rw [rename, renameItems_eq_map]
    refine congrArg _ ((List.map_congr_left fun item hitem => ?_).trans (List.map_id' _))
    exact (Slot.object.inj (ih item hitem)).2
  | dictionary _ ih =>
    rw [rename, renameEntries_eq_map]
    refine congrArg _ ((List.map_congr_left fun entry hentry => ?_).trans (List.map_id' _))
    exact Prod.ext rfl (Slot.object.inj (ih entry hentry)).2

/-- What is shown avoids some identifiers. -/
def View.Avoids (ids : Set Uuid) (view : View) : Prop :=
  ∃ slot : Slot, slot.view = view ∧ slot.Avoids ids

namespace View.Avoids

variable {type : TypeName} {fields : Fields}

theorem leaf {type : LeafType} {value : Cell} (h : (View.leaf type value).Avoids ids) :
    ∀ id ∈ ids, ¬ value.Reads id := by
  obtain ⟨slot, hview, havoids⟩ := h
  cases havoids with
  | leaf hvalue =>
    obtain ⟨rfl, rfl⟩ := View.leaf.inj hview
    exact hvalue
  | _ => cases hview

theorem object {n : Node} (h : (View.object (some n)).Avoids ids) :
    (Slot.object n.type n.fields).Avoids ids := by
  obtain ⟨slot, hview, havoids⟩ := h
  cases havoids with
  | object hfields =>
    obtain rfl := Option.some_inj.1 (View.object.inj hview)
    exact .object hfields
  | optional hpresent =>
    obtain rfl := Option.some_inj.1 (View.object.inj hview)
    exact hpresent
  | _ => cases hview

theorem item {items : List Fields} (h : (View.collection type items).Avoids ids)
    (hitem : fields ∈ items) : (Slot.object type fields).Avoids ids := by
  obtain ⟨slot, hview, havoids⟩ := h
  cases havoids with
  | collection hitems =>
    obtain ⟨rfl, rfl⟩ := View.collection.inj hview
    exact hitems fields hitem
  | _ => cases hview

theorem entry {entries : List (String × Fields)} {key : String}
    (h : (View.dictionary type entries).Avoids ids)
    (hfind : Dictionary.find? key entries = some fields) :
    (Slot.object type fields).Avoids ids := by
  obtain ⟨slot, hview, havoids⟩ := h
  obtain ⟨found, hfound, rfl⟩ := Option.map_eq_some_iff.1 hfind
  cases havoids with
  | dictionary hentries =>
    obtain ⟨rfl, rfl⟩ := View.dictionary.inj hview
    exact hentries found (List.mem_of_find?_eq_some hfound)
  | _ => cases hview

end View.Avoids

/-- What a member of an object shows avoids what the object avoids. -/
theorem Slot.Avoids.read? {n : Node} {member : Member} {view : View}
    (h : (Slot.object n.type n.fields).Avoids ids) (hread : n.read? member = some view) :
    view.Avoids ids := by
  obtain ⟨i, slot, -, hslot, hview⟩ := Node.read?_eq_some.1 hread
  cases h with
  | object hfields => exact ⟨slot, hview, hfields slot (List.mem_of_getElem? hslot)⟩

/-! ## Elements -/

/-- An element with these members asks to update or to remove the item with an identity. -/
def Intent.Concerns (options : Options) (members : List (String × Json)) (id : Uuid) : Prop :=
  ∃ full, ofMembers options full members = .ok (.update id) ∨
    ofMembers options full members = .ok (.remove id)

/-- An element, and those inside, have members with a property. -/
inductive Element.Every (p : List (String × Json) → Prop) : Element → Prop where
  | mk {value : Json} {directives : List Directive}
      (hmembers : ∀ members, value = .object members → p members)
      (hinner : ∀ d ∈ directives, ∀ e ∈ d.arrayElements, Every p e) :
      Every p (.mk value directives)

namespace Element.Every

variable {p : List (String × Json) → Prop}

theorem members {directives : List Directive} {members : List (String × Json)}
    (h : Every p (.mk (.object members) directives)) : p members := by
  cases h with
  | mk hmembers => exact hmembers members rfl

theorem directives {e : Element} (h : e.Every p) :
    ∀ d ∈ e.directives, ∀ e ∈ d.arrayElements, Every p e := by
  cases h with
  | mk _ hinner => exact hinner

end Element.Every

/-! ## Effects -/

/-- The identity of an object is renamed with it. -/
theorem Schema.identity?_rename (s : Schema) (fields : Fields) :
    s.identity? (Slot.renameFields ρ fields) = (s.identity? fields).map ρ := by
  unfold identity?
  rw [Slot.renameFields_eq_map]
  cases s.identityField with
  | none => rfl
  | some i =>
    rw [Option.bind_some, Option.bind_some, List.getElem?_map]
    cases fields[i]? with
    | none => rfl
    | some slot =>
      cases slot with
      | leaf type value =>
        cases type with
        | uuid => cases value <;> rfl
        | _ => rfl
      | optional type present => cases present <;> rfl
      | _ => rfl

theorem Schema.withIdentity_rename (s : Schema) (id : Uuid) (fields : Fields) :
    s.withIdentity (ρ id) (Slot.renameFields ρ fields) =
      Slot.renameFields ρ (s.withIdentity id fields) := by
  unfold withIdentity
  cases s.identityField with
  | none => rfl
  | some i =>
    rw [Slot.renameFields_eq_map, Slot.renameFields_eq_map, List.map_set]
    rfl

namespace Merger

/-- Identifiers are renamed one to one, and only such that no object has at first. -/
structure Renames (m : Merger) (ids : Set Uuid) (ρ : Uuid → Uuid) : Prop where
  injective : Function.Injective ρ
  fixes : ∀ id, id ∉ ids → ρ id = id
  initial : ∀ type, (Slot.object type (m.catalogue type).initialFields).Avoids ids

variable {m : Merger} {type : TypeName} {fields made : Fields} {taken : List Uuid}
  {changes : List Change} {full : Path}

theorem Renames.position? (hm : m.Renames ids ρ) (items : List Fields) {id : Uuid}
    (hid : id ∉ ids) :
    m.catalogue.position? type (items.map (Slot.renameFields ρ)) id =
      m.catalogue.position? type items id := by
  unfold Catalogue.position?
  rw [List.findIdx?_map]
  congr 1
  funext item
  rw [Function.comp_apply, Schema.identity?_rename]
  cases (m.catalogue type).identity? item with
  | none => rfl
  | some other =>
    rw [Option.map_some, Bool.eq_iff_iff, beq_iff_eq, beq_iff_eq, Option.some_inj, Option.some_inj]
    constructor
    · intro heq
      exact hm.injective (heq.trans (hm.fixes id hid).symm)
    · rintro rfl
      exact hm.fixes _ hid

theorem Provides.rename (hm : m.Renames ids ρ) {present : Option Fields}
    (h : m.Provides type present taken fields) :
    m.Provides type (present.map (Slot.renameFields ρ)) (taken.map ρ)
      (Slot.renameFields ρ fields) := by
  have hinitial : Slot.renameFields ρ (m.catalogue type).initialFields =
      (m.catalogue type).initialFields :=
    (Slot.object.inj (Slot.rename_eq_self hm.fixes (hm.initial type))).2
  cases h with
  | found => exact .found
  | plain hconstructible hfresh =>
    rw [hinitial]
    exact .plain hconstructible hfresh
  | fresh hconstructible hfresh =>
    rw [← Schema.withIdentity_rename, hinitial]
    exact .fresh hconstructible hfresh

/-- An act does the same to slots that are renamed. -/
def RenamesAct (ids : Set Uuid) (ρ : Uuid → Uuid) (act : Act) : Prop :=
  ∀ {view : Option View} {old new : Slot} {taken : List Uuid} {changes : List Change},
    (∀ v, view = some v → v.Avoids ids) → act view old taken changes new →
    act view (old.rename ρ) (taken.map ρ) (changes.map (Change.rename ρ)) (new.rename ρ)

theorem Lands.rename (hm : m.Renames ids ρ) {act : Act} (hact : RenamesAct ids ρ act)
    {keys : List String} {view : Option View} {old new : Slot}
    (hview : ∀ v, view = some v → v.Avoids ids)
    (h : m.Lands full act keys view old taken changes new) :
    m.Lands full act keys view (old.rename ρ) (taken.map ρ) (changes.map (Change.rename ρ))
      (new.rename ρ) := by
  induction h with
  | here h => exact .here (hact hview h)
  | identity hid => exact .identity hid
  | @field name rest patch type fields pm om i old new taken changes hid hpm hom hwrites hslot
      hplace hkind _ ih =>
    have hpatch := (hview _ rfl).object
    have hrest := ih fun v hread => hpatch.read? hread
    rw [Slot.rename, Slot.rename, Slot.renameFields_eq_map, Slot.renameFields_eq_map, List.map_set]
    refine .field hid hpm hom hwrites ?_ (hplace.trans (Slot.place_rename old).symm)
      (fun hnil => (hkind hnil).trans (Slot.kind_rename old).symm) hrest
    rw [List.getElem?_map, hslot, Option.map_some]
  | optional hprovides _ ih =>
    rw [Slot.rename_optional, List.map_append]
    exact .optional (hprovides.rename hm) (ih hview)
  | @entry key next rest patchType type patchEntries entries p fields made fresh taken changes
      hpatch hprovides _ ih =>
    rw [Slot.rename, Slot.rename, Slot.renameEntries_eq_map, Slot.renameEntries_eq_map,
      ← Dictionary.insert_map, List.map_append]
    refine .entry hpatch ?_ (ih fun v hv => ?_)
    · rw [Dictionary.find?_map]
      exact hprovides.rename hm
    · obtain rfl := Option.some_inj.1 hv
      exact ⟨.object patchType p, rfl, (hview _ rfl).entry hpatch⟩
  | cell hsource hencode hcoerce => exact .cell hsource hencode hcoerce

/-- What is read from a leaf that avoids what is renamed is not renamed. -/
theorem rename_of_coerce? (hm : m.Renames ids ρ) {source cell : Cell} {value : Json}
    {leafType : LeafType} (hsource : ∀ id ∈ ids, ¬ source.Reads id)
    (hencode : source.encode = .ok value) (hcoerce : Coercion.coerce? leafType value = some cell) :
    cell.rename ρ = cell := by
  refine Cell.rename_eq_self hm.fixes ?_
  rintro id rfl hid
  exact hsource id hid ⟨value, leafType, hencode, hcoerce⟩

theorem renamesAct_copies (hm : m.Renames ids ρ) : RenamesAct ids ρ (Copies full) := by
  intro view old new taken changes hview h
  cases h with
  | leaf hencode hcoerce =>
    rw [Slot.rename, Slot.rename, rename_of_coerce? hm (hview _ rfl).leaf hencode hcoerce]
    exact .leaf hencode hcoerce
  | unset =>
    rw [Slot.rename_optional, Slot.rename_optional]
    exact .unset

/-- The empty array is no identifier. -/
theorem rename_of_decode?_nil {leafType : LeafType} {cell : Cell}
    (hm : m.Renames ids ρ) (h : leafType.decode? (.array []) = some cell) :
    cell.rename ρ = cell := by
  refine Cell.rename_eq_self hm.fixes ?_
  rintro id rfl
  obtain ⟨_, ⟨⟩, -⟩ := decode?_eq_uuid h

theorem renamesAct_arrayTakes {elements : List Element}
    {inner : TypeName → List Fields → TypeName → Effect (List Fields)}
    (hm : m.Renames ids ρ)
    (hinner : ∀ {patchType : TypeName} {patchItems : List Fields} {type : TypeName}
      {items left : List Fields} {taken : List Uuid} {changes : List Change},
      (View.collection patchType patchItems).Avoids ids →
      inner patchType patchItems type items taken changes left →
      inner patchType patchItems type (items.map (Slot.renameFields ρ)) (taken.map ρ)
        (changes.map (Change.rename ρ)) (left.map (Slot.renameFields ρ))) :
    RenamesAct ids ρ (m.ArrayTakes full elements inner) := by
  intro view old new taken changes hview h
  cases h with
  | emptied helements hcell =>
    rw [Slot.rename, Slot.rename, rename_of_decode?_nil hm hcell]
    exact .emptied helements hcell
  | assigned helements htakes =>
    refine .assigned ?_ (renamesAct_copies hm hview htakes)
    rw [Slot.kind_rename]
    exact helements
  | @cleared _ type patchItems items helements hidentified =>
    rw [Slot.rename, Slot.rename, Slot.renameItems_eq_map]
    have hchanges : (if items = [] then [] else [(⟨full, .cleared, none⟩ : Change)]).map
        (Change.rename ρ) =
        if items.map (Slot.renameFields ρ) = [] then [] else [⟨full, .cleared, none⟩] := by
      cases items <;> rfl
    rw [hchanges]
    exact .cleared helements hidentified
  | reconciled hkept hobjects h =>
    rw [Slot.rename, Slot.rename, Slot.renameItems_eq_map, Slot.renameItems_eq_map]
    exact .reconciled hkept hobjects (hinner (hview _ rfl) h)

variable {patchType : TypeName} {patchItems items left : List Fields} {position : Nat}

/-- An item keeps its position when the items are renamed. -/
theorem getElem?_map_renameFields {i : Nat} {item : Fields} (h : items[i]? = some item) :
    (items.map (Slot.renameFields ρ))[i]? = some (Slot.renameFields ρ item) := by
  rw [List.getElem?_map, h, Option.map_some]

theorem ElementTakes.rename {members : List (String × Json)} {inner : Node → Effect Fields}
    (hm : m.Renames ids ρ) (hpatch : (View.collection patchType patchItems).Avoids ids)
    (hmembers : ∀ id ∈ ids, ¬ Intent.Concerns m.options members id)
    (hinner : ∀ {p : Node} {fields made : Fields} {taken : List Uuid} {changes : List Change},
      (Slot.object p.type p.fields).Avoids ids → inner p fields taken changes made →
      inner p (Slot.renameFields ρ fields) (taken.map ρ) (changes.map (Change.rename ρ))
        (Slot.renameFields ρ made))
    (h : m.ElementTakes full patchType patchItems type position members inner items taken changes
      left) :
    m.ElementTakes full patchType patchItems type position members inner
      (items.map (Slot.renameFields ρ)) (taken.map ρ) (changes.map (Change.rename ρ))
      (left.map (Slot.renameFields ρ)) := by
  cases h with
  | @add p fields made fresh taken changes hintent hitem hprovides h =>
    rw [List.map_append, List.map_append, List.map_singleton, List.map_singleton]
    have hadd := hinner (hpatch.item (List.mem_of_getElem? hitem)) h
    have hadded : Change.rename ρ ⟨full, .added, (m.catalogue type).identity? made⟩ =
        ⟨full, .added, (m.catalogue type).identity? (Slot.renameFields ρ made)⟩ := by
      rw [Schema.identity?_rename]
      rfl
    rw [hadded]
    exact .add hintent hitem (hprovides.rename hm) hadd
  | @update id index item made patchItem _ _ hintent hindex hitem hshown h =>
    have hid : id ∉ ids := fun hid => hmembers id hid ⟨full, .inl hintent⟩
    obtain ⟨found, hfound, hmade⟩ := Option.map_eq_some_iff.1 hshown
    obtain ⟨i, -, hfound⟩ := Option.bind_eq_some_iff.1 hfound
    subst hmade
    rw [List.map_set]
    exact .update hintent ((hm.position? items hid).trans hindex) (getElem?_map_renameFields hitem)
      hshown (hinner (hpatch.item (List.mem_of_getElem? hfound)) h)
  | @remove id index hintent hindex =>
    have hid : id ∉ ids := fun hid => hmembers id hid ⟨full, .inr hintent⟩
    have hremoved : Change.rename ρ ⟨full, .removed, some id⟩ = ⟨full, .removed, some id⟩ := by
      rw [Change.rename, Option.map_some, hm.fixes id hid]
    rw [← List.eraseIdx_map, List.map_singleton, hremoved]
    exact .remove hintent ((hm.position? items hid).trans hindex)

/-- Directives have the same effect on objects that are renamed. -/
def RenamesEffect (m : Merger) (ids : Set Uuid) (ρ : Uuid → Uuid)
    (directives : List Directive) : Prop :=
  ∀ {base : List String} {patch : Node} {type : TypeName} {fields made : Fields}
    {taken : List Uuid} {changes : List Change},
    (Slot.object patch.type patch.fields).Avoids ids →
    m.effects base patch type directives fields taken changes made →
    m.effects base patch type directives (Slot.renameFields ρ fields) (taken.map ρ)
      (changes.map (Change.rename ρ)) (Slot.renameFields ρ made)

theorem elementsEffect_rename (hm : m.Renames ids ρ)
    (hpatch : (View.collection patchType patchItems).Avoids ids) {elements : List Element}
    (helements : ∀ e ∈ elements, e.Every fun members =>
      ∀ id ∈ ids, ¬ Intent.Concerns m.options members id)
    (hdirectives : ∀ e ∈ elements, m.RenamesEffect ids ρ e.directives)
    (h : m.elementsEffect full patchType patchItems type position elements items taken changes
      left) :
    m.elementsEffect full patchType patchItems type position elements
      (items.map (Slot.renameFields ρ)) (taken.map ρ) (changes.map (Change.rename ρ))
      (left.map (Slot.renameFields ρ)) := by
  induction elements generalizing position items taken changes with
  | nil =>
    rw [elementsEffect] at h ⊢
    cases h with
    | intro => exact .intro
  | cons element elements ih =>
    rw [elementsEffect] at h ⊢
    cases h with
    | intro hfirst hsecond =>
      rw [List.map_append, List.map_append]
      refine .intro ?_ (ih (fun e he => helements e (List.mem_cons_of_mem _ he))
        (fun e he => hdirectives e (List.mem_cons_of_mem _ he)) hsecond)
      have hmembers := helements element (List.mem_cons_self ..)
      have hinner : m.RenamesEffect ids ρ element.directives :=
        hdirectives element (List.mem_cons_self ..)
      obtain ⟨value, directives⟩ := element
      cases value with
      | object members =>
        rw [elementEffect] at hfirst ⊢
        exact hfirst.rename hm hpatch hmembers.members hinner
      | _ =>
        rw [elementEffect] at hfirst ⊢
        · cases hfirst with
          | intro => exact .intro
        all_goals rintro _ ⟨⟩

/-- Directives that are about no identifier to be renamed have their effect under other names
as well. -/
theorem renamesEffect (hm : m.Renames ids ρ) (directives : List Directive)
    (helements : ∀ d ∈ directives, ∀ e ∈ d.arrayElements, e.Every fun members =>
      ∀ id ∈ ids, ¬ Intent.Concerns m.options members id) :
    m.RenamesEffect ids ρ directives := by
  induction directives using Directive.forall_of_elements with
  | nil =>
    intro base patch type fields made taken changes _ h
    rw [effects] at h ⊢
    cases h with
    | intro => exact .intro
  | cons directive directives hdirective ih =>
    intro base patch type fields made taken changes hpatch h
    rw [effects] at h ⊢
    cases h with
    | intro hfirst hsecond =>
      rw [List.map_append, List.map_append]
      refine .intro ?_ (ih (fun d hd => helements d (List.mem_cons_of_mem _ hd)) hpatch hsecond)
      have helements := helements directive (List.mem_cons_self ..)
      have hview : ∀ v, some (View.object (some patch)) = some v → v.Avoids ids := by
        rintro _ ⟨⟩
        exact ⟨.object patch.type patch.fields, rfl, hpatch⟩
      cases directive with
      | scalar path value =>
        cases hid : (path.getLast?).any isIdentityKey with
        | true =>
          rw [effect_scalar_of_identity hid] at hfirst ⊢
          cases hfirst with
          | intro => exact .intro
        | false =>
          rw [effect_scalar hid] at hfirst ⊢
          exact hfirst.rename hm (renamesAct_copies hm) hview
      | array path elements =>
        rw [effect] at hfirst ⊢
        refine hfirst.rename hm (renamesAct_arrayTakes hm fun hshown h => ?_) hview
        exact elementsEffect_rename hm hshown helements
          (fun e he => hdirective e he (helements e he).directives) h

end Merger

end SelectiveMerge
