import Mathlib.Data.List.Nodup
import SelectiveMerge.Proofs.ByIdentity
import SelectiveMerge.Proofs.Replacement

/-!
# Identities that stay usable

Items are told apart by their identities, so these have to be there, to be different, and not
to be nil. A merge without overrides of its own keeps it so for the types whose new items get
a fresh identity, as long as nobody asks to write to an identity. The invariant that carries
this is about the identities still to be given out as well: no item has one of them yet.

* `Usable` — the items of the collections of some types can be told apart, at any depth
* `Merger.reserved` — what no item may have as its identity: nil, or what is still to come
* `Merger.Lasting` — the requests of a merge leave the identities of a type alone
* `identity?_of_lasting` — then an object keeps its identity
* `runsUsable`, `usable_merge` — a list of directives, and a whole merge
-/

namespace SelectiveMerge

/-- Items of a type can be told apart: each has an identity that is not reserved, and these
are different. -/
structure Distinguished (m : Merger) (reserved : Set Uuid) (type : TypeName)
    (items : List Fields) : Prop where
  identified : ∀ item ∈ items, ∃ id, m.identity? type item = some id ∧ id ∉ reserved
  distinct : (items.map (m.identity? type)).Nodup

/-- In all collections of the given types that a slot holds, at any depth, the items can be
told apart. -/
inductive Usable (m : Merger) (types : Set TypeName) (reserved : Set Uuid) : Slot → Prop where
  | leaf {type : LeafType} {value : Cell} : Usable m types reserved (.leaf type value)
  | leafDictionary {type : LeafType} {entries : List (String × Cell)} :
      Usable m types reserved (.leafDictionary type entries)
  | object {type : TypeName} {fields : Fields}
      (hfields : ∀ slot ∈ fields, Usable m types reserved slot) :
      Usable m types reserved (.object type fields)
  | missing {type : TypeName} : Usable m types reserved (.optional type none)
  | optional {type : TypeName} {fields : Fields}
      (hpresent : Usable m types reserved (.object type fields)) :
      Usable m types reserved (.optional type (some fields))
  | collection {type : TypeName} {items : List Fields}
      (hitems : type ∈ types → Distinguished m reserved type items)
      (hinner : ∀ item ∈ items, Usable m types reserved (.object type item)) :
      Usable m types reserved (.collection type items)
  | dictionary {type : TypeName} {entries : List (String × Fields)}
      (hentries : ∀ key fields, Dictionary.find? key entries = some fields →
        Usable m types reserved (.object type fields)) :
      Usable m types reserved (.dictionary type entries)

/-! ## Items that can be told apart -/

namespace Distinguished

variable {m : Merger} {reserved reserved' : Set Uuid} {type : TypeName} {items left : List Fields}

theorem mono (h : Distinguished m reserved type items) (hsub : reserved' ⊆ reserved) :
    Distinguished m reserved' type items where
  identified := fun item hitem => by
    obtain ⟨id, hid, hfree⟩ := h.identified item hitem
    exact ⟨id, hid, fun hmem => hfree (hsub hmem)⟩
  distinct := h.distinct

theorem nil : Distinguished m reserved type [] where
  identified := by simp
  distinct := List.nodup_nil

theorem sublist (h : Distinguished m reserved type items) (hleft : left.Sublist items) :
    Distinguished m reserved type left where
  identified := fun item hitem => h.identified item (hleft.subset hitem)
  distinct := h.distinct.sublist (hleft.map _)

/-- An item may be replaced by one with its identity. -/
theorem set {index : Nat} {old new : Fields} (h : Distinguished m reserved type items)
    (hold : items[index]? = some old) (hid : m.identity? type new = m.identity? type old) :
    Distinguished m reserved type (items.set index new) where
  identified := fun item hitem => by
    rcases List.mem_or_eq_of_mem_set hitem with hitem | rfl
    · exact h.identified item hitem
    · rw [hid]
      exact h.identified old (List.mem_of_getElem? hold)
  distinct := by
    rw [List.map_set, hid, set_eq_self (by rw [List.getElem?_map, hold, Option.map_some])]
    exact h.distinct

/-- An item with another identity may be added. -/
theorem append {new : Fields} {id : Uuid} (h : Distinguished m reserved type items)
    (hid : m.identity? type new = some id) (hfree : id ∉ reserved)
    (hnew : ∀ item ∈ items, m.identity? type item ≠ some id) :
    Distinguished m reserved type (items ++ [new]) where
  identified := fun item hitem => by
    rcases List.mem_append.1 hitem with hitem | hitem
    · exact h.identified item hitem
    · obtain rfl := List.mem_singleton.1 hitem
      exact ⟨id, hid, hfree⟩
  distinct := by
    rw [List.map_append, List.map_singleton, hid]
    refine h.distinct.append (List.nodup_singleton _) fun other hother hsame => ?_
    obtain ⟨item, hitem, rfl⟩ := List.mem_map.1 hother
    exact hnew item hitem (List.mem_singleton.1 hsame)

end Distinguished

/-! ## Slots -/

namespace Usable

variable {m : Merger} {types : Set TypeName} {reserved reserved' : Set Uuid} {type : TypeName}
  {fields : Fields}

theorem mono {slot : Slot} (h : Usable m types reserved slot) (hsub : reserved' ⊆ reserved) :
    Usable m types reserved' slot := by
  induction h with
  | leaf => exact .leaf
  | leafDictionary => exact .leafDictionary
  | object _ ih => exact .object ih
  | missing => exact .missing
  | optional _ ih => exact .optional ih
  | collection hitems _ ih => exact .collection (fun htype => (hitems htype).mono hsub) ih
  | dictionary _ ih => exact .dictionary ih

theorem field {slot : Slot} (h : Usable m types reserved (.object type fields))
    (hslot : slot ∈ fields) : Usable m types reserved slot := by
  cases h with
  | object hfields => exact hfields slot hslot

theorem present {present : Option Fields} (h : Usable m types reserved (.optional type present))
    (hpresent : present = some fields) : Usable m types reserved (.object type fields) := by
  subst hpresent
  cases h with
  | optional hpresent => exact hpresent

theorem entry {entries : List (String × Fields)} {key : String}
    (h : Usable m types reserved (.dictionary type entries))
    (hfind : Dictionary.find? key entries = some fields) :
    Usable m types reserved (.object type fields) := by
  cases h with
  | dictionary hentries => exact hentries key fields hfind

theorem item {items : List Fields} (h : Usable m types reserved (.collection type items))
    (hitem : fields ∈ items) : Usable m types reserved (.object type fields) := by
  cases h with
  | collection _ hinner => exact hinner fields hitem

theorem distinguished {items : List Fields} (h : Usable m types reserved (.collection type items))
    (htype : type ∈ types) : Distinguished m reserved type items := by
  cases h with
  | collection hitems => exact hitems htype

theorem set {i : Nat} {new : Slot} (h : Usable m types reserved (.object type fields))
    (hnew : Usable m types reserved new) :
    Usable m types reserved (.object type (fields.set i new)) := by
  refine .object fun slot hslot => ?_
  rcases List.mem_or_eq_of_mem_set hslot with hslot | rfl
  · exact h.field hslot
  · exact hnew

theorem insert {entries : List (String × Fields)} {key : String} {made : Fields}
    (h : Usable m types reserved (.dictionary type entries))
    (hmade : Usable m types reserved (.object type made)) :
    Usable m types reserved (.dictionary type (Dictionary.insert key made entries)) := by
  refine .dictionary fun other fields hfind => ?_
  rw [Dictionary.find?_insert] at hfind
  split at hfind
  · obtain rfl := Option.some_inj.1 hfind
    exact hmade
  · exact h.entry hfind

/-- Some of the items of a collection are left. -/
theorem sublist {items left : List Fields} (h : Usable m types reserved (.collection type items))
    (hleft : left.Sublist items) : Usable m types reserved (.collection type left) :=
  .collection (fun htype => (h.distinguished htype).sublist hleft)
    fun _ hitem => h.item (hleft.subset hitem)

end Usable

/-! ## Requests that touch identities -/

/-- No override makes new items. -/
def Configuration.NoFactories (c : Configuration) : Prop :=
  ∀ e ∈ c.entries, ∀ make, e.override ≠ .factory make

theorem Configuration.NoFactories.itemFactory?_eq_none {c : Configuration} (h : c.NoFactories)
    (full : Path) : c.itemFactory? full = none := by
  unfold Configuration.itemFactory?
  refine List.findSome?_eq_none_iff.2 fun e he => ?_
  unfold Configuration.factoryAt?
  split
  · rename_i make hmake
    exact absurd hmake (h e he make)
  · rfl

/-- The request asks to add an item of a type. -/
def Request.AddsItem (type : TypeName) (r : Request) : Prop :=
  r.operation = .addItem ∧ ∃ n, r.originalItem = some n ∧ n.type = type

/-- The request asks to give an object of a type an identity that it does not have, by a
member that is not called `id`. -/
def Request.Reidentifies (m : Merger) (type : TypeName) (r : Request) : Prop :=
  r.operation = .updateProperty ∧ isIdentityKey r.property = false ∧
    ∃ (n : Node) (member : Member) (i : Nat), r.originalItem = some n ∧ n.type = type ∧
      member ∈ (m.catalogue type).table.members ∧ member.name = r.property ∧
      member.writes = some i ∧ (m.catalogue type).identityField = some i ∧
      ∀ id, m.identity? type n.fields = some id → (Cell.uuid id).encode ≠ .ok r.value

namespace Merger

open Run (Succeeds)

/-- The types whose objects have an identity. -/
def identifiedTypes (m : Merger) : Set TypeName := {type | (m.catalogue type).identified}

/-- The identities of a type last through some requests: new items have fresh ones, unless
none are added, and no object is given another one. -/
structure Lasting (m : Merger) (requests : List Request) (type : TypeName) : Prop where
  added : (m.catalogue type).needsFreshIdentity = false → ∀ r ∈ requests, ¬ r.AddsItem type
  assigned : ∀ r ∈ requests, ¬ r.Reidentifies m type

/-- What no item may have as its identity: nil, and what is still to be given out, up to a
limit. There are not as many identities as numbers. -/
def reserved (m : Merger) (limit minted : Nat) : Set Uuid :=
  {id | id = Uuid.nil ∨ ∃ n, minted ≤ n ∧ n < limit ∧ m.mint n = id}

/-- The identities to be given out are different and not nil, and what objects hold at first
is usable together with them. -/
structure Supplied (m : Merger) (types : Set TypeName) (limit minted : Nat) : Prop where
  mint_ne_nil : ∀ n, minted ≤ n → n < limit → m.mint n ≠ Uuid.nil
  mint_inj : ∀ a b, minted ≤ a → a < b → b < limit → m.mint a ≠ m.mint b
  initial : ∀ type, Usable m types (m.reserved limit minted)
    (.object type (m.catalogue type).initialFields)

/-- A record within the limit, through whose requests the identities of some types last. -/
structure Lasts (m : Merger) (types : Set TypeName) (limit : Nat) (s : Session) : Prop where
  minted_le : s.minted ≤ limit
  lasting : ∀ type ∈ types, m.Lasting s.requests type

variable {m : Merger} {types : Set TypeName} {requests requests' : List Request}
  {type : TypeName} {s s' : Session} {patch original : Node} {name : String} {fields : Fields}
  {id : Uuid} {minted minted' limit : Nat} {full : Path} {base : List String}

/-- A type lasts through all requests if its identity is in a member called `id` and its new
items have fresh ones. -/
theorem Lasting.of_namesIdentity (hneeds : (m.catalogue type).needsFreshIdentity = true)
    (hnames : m.NamesIdentity type) (requests : List Request) : m.Lasting requests type where
  added := by
    rw [hneeds]
    rintro ⟨⟩
  assigned := by
    rintro r - ⟨-, hproperty, n, member, i, -, -, hmember, hname, hwrites, hfield, -⟩
    have hid := hnames member hmember i hwrites hfield
    rw [hname, hproperty] at hid
    cases hid

theorem Lasting.mono (h : m.Lasting requests type) (hsub : requests' ⊆ requests) :
    m.Lasting requests' type where
  added := fun hneeds r hr => h.added hneeds r (hsub hr)
  assigned := fun r hr => h.assigned r (hsub hr)

/-- What lasts to the end lasted all the way. -/
theorem Lasts.of_extends (h : m.Lasts types limit s') (hextends : Extends m base s s') :
    m.Lasts types limit s where
  minted_le := hextends.counters.2.trans h.minted_le
  lasting := fun type htype => (h.lasting type htype).mono (Extends.requests_subset hextends)

theorem reserved_anti (m : Merger) (limit : Nat) (hle : minted ≤ minted') :
    m.reserved limit minted' ⊆ m.reserved limit minted := by
  rintro id (rfl | ⟨n, hn, hlt, rfl⟩)
  · exact .inl rfl
  · exact .inr ⟨n, hle.trans hn, hlt, rfl⟩

theorem Supplied.mono (h : m.Supplied types limit minted) (hle : minted ≤ minted') :
    m.Supplied types limit minted' where
  mint_ne_nil := fun n hn => h.mint_ne_nil n (hle.trans hn)
  mint_inj := fun a b ha => h.mint_inj a b (hle.trans ha)
  initial := fun type => (h.initial type).mono (m.reserved_anti limit hle)

/-- What was given out is not reserved any more. -/
theorem Supplied.mint_notMem_reserved (h : m.Supplied types limit minted)
    (hlt : minted < minted') (hlimit : minted' ≤ limit) :
    m.mint minted ∉ m.reserved limit minted' := by
  rintro (hnil | ⟨n, hn, hlast, heq⟩)
  · exact h.mint_ne_nil minted le_rfl (hlt.trans_le hlimit) hnil
  · exact h.mint_inj minted n le_rfl (hlt.trans_le hn) hlast heq.symm

/-! ## An identity is kept -/

/-- What is no leaf can be replaced without touching an identity. -/
theorem identity?_set_of_target? {om : Member} {i : Nat} {old new : Slot}
    (htarget : original.target? om = some (i, old)) (hold : old.IsBranch) (hnew : new.IsBranch)
    (hid : m.identity? original.type original.fields = some id) :
    m.identity? original.type (original.fields.set i new) = some id :=
  (identity?_set_branch htarget hold hnew).trans hid

/-- The name under which a key is found is an identity key when the key is. -/
theorem isIdentityKey_of_member? {om : Member} (hom : m.member? original name = some om) :
    isIdentityKey om.name = isIdentityKey name := by
  have hfold := MemberTable.foldCase_of_find? hom
  rw [Bool.eq_iff_iff, isIdentityKey, isIdentityKey, Text.eqIgnoreCase_iff, Text.eqIgnoreCase_iff,
    hfold]

theorem Assigns.identity?_of_lasting (hactions : m.configuration.NoActions)
    (hlasting : m.Lasting s'.requests original.type)
    (hid : m.identity? original.type original.fields = some id)
    (h : m.Assigns full patch original name s fields s') :
    m.identity? original.type fields = some id := by
  cases h with
  | identity => exact hid
  | custom _ haction =>
    rw [hactions.setAction?_eq_none] at haction
    cases haction
  | @leaf pm om patchType leafType source old cell value i hkey _ _ hom hread _ hencode _ htarget
      hcoerce =>
    by_cases hfield : (m.catalogue original.type).identityField = some i
    · obtain ⟨hwrites, hslot⟩ := Node.target?_eq_some.1 htarget
      obtain ⟨rfl, rfl⟩ : leafType = .uuid ∧ old = .uuid id := by
        simpa using hslot.symm.trans (Schema.leaf_of_identity? hfield hid)
      -- nobody asked for another identity, so the leaf takes the one it has
      have hsame : (Cell.uuid id).encode = .ok value := by
        by_contra hne
        refine hlasting.assigned _ (Session.mem_requests_noting ..)
          ⟨rfl, (isIdentityKey_of_member? hom).trans hkey, original, om, i, rfl, rfl,
            MemberTable.mem_of_find? hom, rfl, hwrites, hfield, fun other hother => ?_⟩
        obtain rfl := Option.some_inj.1 (hid.symm.trans hother)
        exact hne
      rw [coerce?_encode_uuid hsame hcoerce, set_eq_self hslot]
      exact hid
    · exact (Schema.identity?_set_of_ne hfield).trans hid
  | unset _ _ _ _ _ _ _ htarget => exact identity?_set_of_target? htarget trivial trivial hid

theorem ArrayAssigns.identity?_of_lasting (hactions : m.configuration.NoActions)
    (hlasting : m.Lasting s'.requests original.type)
    (hid : m.identity? original.type original.fields = some id) {node : Json}
    {elements : List Element}
    (h : m.ArrayAssigns full node elements patch original name s fields s') :
    m.identity? original.type fields = some id := by
  cases h with
  | identity => exact hid
  | @emptied _ _ leafType old cell i _ _ _ _ _ _ _ htarget hcell =>
    refine (Schema.identity?_set_of_ne fun hfield => ?_).trans hid
    obtain ⟨rfl, -⟩ : leafType = .uuid ∧ old = .uuid id := by
      simpa using (Node.target?_eq_some.1 htarget).2.symm.trans
        (Schema.leaf_of_identity? hfield hid)
    have hnone : LeafType.uuid.decode? (.array []) = none := rfl
    rw [hnone] at hcell
    cases hcell
  | assigned _ _ _ _ _ hassign => exact hassign.identity?_of_lasting hactions hlasting hid
  | reconciled _ _ _ _ hreconcile =>
    cases hreconcile with
    | ignored => exact hid
    | run _ _ htarget => exact identity?_set_of_target? htarget trivial trivial hid

theorem DirectiveStep.identity?_of_lasting (hactions : m.configuration.NoActions)
    (hlasting : m.Lasting s'.requests original.type)
    (hid : m.identity? original.type original.fields = some id) {directive : Directive}
    (h : m.DirectiveStep base patch original directive s fields s') :
    m.identity? original.type fields = some id := by
  cases h with
  | identity => exact hid
  | scalar _ hvisit =>
    refine (hvisit.identity?_eq fun _ _ hact => ?_).trans hid
    exact (hact.identity?_of_lasting hactions hlasting hid).trans hid.symm
  | array hvisit =>
    refine (hvisit.identity?_eq fun _ _ hact => ?_).trans hid
    exact (hact.identity?_of_lasting hactions hlasting hid).trans hid.symm

/-- An object keeps its identity as long as nobody asks for another one. -/
theorem identity?_of_lasting (hactions : m.configuration.NoActions)
    {directives : List Directive} {made : Fields}
    (hlasting : m.Lasting s'.requests type) (hid : m.identity? type fields = some id)
    (h : Succeeds (runDirectives m base patch type directives fields) s made s') :
    m.identity? type made = some id := by
  induction directives generalizing fields s with
  | nil =>
    obtain ⟨rfl, -⟩ := succeeds_runDirectives_nil.1 h
    exact hid
  | cons directive directives ih =>
    obtain ⟨mid, t, hhead, htail⟩ := succeeds_runDirectives_cons.1 h
    have hsub := Extends.requests_subset (m.runsExtend _ htail)
    have hstep := DirectiveStep.of_runDirective hhead
    exact ih (hstep.identity?_of_lasting hactions (hlasting.mono hsub) hid) htail

/-! ## Members and navigation -/

theorem Makes.usable (hsupplied : m.Supplied types limit s.minted) (h : m.Makes type s fields s') :
    Usable m types (m.reserved limit s'.minted) (.object type fields) := by
  have hle := (h.extends []).counters.2
  have hinitial := (hsupplied.initial type).mono (m.reserved_anti limit hle)
  rcases h.eq_or_exists_set with rfl | ⟨i, id, -, rfl⟩
  · exact hinitial
  · exact hinitial.set .leaf

theorem Ensures.usable (hsupplied : m.Supplied types limit s.minted) {found : Option Fields}
    (hfound : ∀ f, found = some f → Usable m types (m.reserved limit s.minted) (.object type f))
    (h : m.Ensures type s found fields s') :
    Usable m types (m.reserved limit s'.minted) (.object type fields) := by
  cases h with
  | found => exact hfound fields rfl
  | made hmade => exact hmade.usable hsupplied

theorem Assigns.usable (hactions : m.configuration.NoActions)
    (horiginal : Usable m types (m.reserved limit s.minted) (.object original.type original.fields))
    (h : m.Assigns full patch original name s fields s') :
    Usable m types (m.reserved limit s'.minted) (.object original.type fields) := by
  cases h with
  | identity => exact horiginal
  | custom _ haction =>
    rw [hactions.setAction?_eq_none] at haction
    cases haction
  | leaf => exact horiginal.set .leaf
  | unset => exact horiginal.set .missing

/-- Behind a hop there is a usable object, and a usable one that is put back in its place
leaves the outer one usable. -/
theorem Hop.usable {innerPatch inner : Node} {keys : List String} {put : Fields → Fields}
    (hsupplied : m.Supplied types limit s.minted)
    (horiginal : Usable m types (m.reserved limit s.minted) (.object original.type original.fields))
    (h : m.Hop patch original s keys innerPatch inner put s') :
    Usable m types (m.reserved limit s'.minted) (.object inner.type inner.fields) ∧
      ∀ made minted, s.minted ≤ minted →
        Usable m types (m.reserved limit minted) (.object inner.type made) →
        Usable m types (m.reserved limit minted) (.object original.type (put made)) := by
  have hlater : ∀ minted, s.minted ≤ minted →
      Usable m types (m.reserved limit minted) (.object original.type original.fields) :=
    fun minted hle => horiginal.mono (m.reserved_anti limit hle)
  cases h with
  | object _ _ _ htarget =>
    have hslot := List.mem_of_getElem? (Node.target?_eq_some.1 htarget).2
    exact ⟨horiginal.field hslot, fun made minted hle hmade => (hlater minted hle).set hmade⟩
  | optional _ _ _ htarget hensure =>
    have hslot := List.mem_of_getElem? (Node.target?_eq_some.1 htarget).2
    exact ⟨hensure.usable hsupplied fun f hf => (horiginal.field hslot).present hf,
      fun made minted hle hmade => (hlater minted hle).set (.optional hmade)⟩
  | entry _ _ _ htarget _ hensure =>
    have hslot := List.mem_of_getElem? (Node.target?_eq_some.1 htarget).2
    refine ⟨hensure.usable hsupplied fun f hf => (horiginal.field hslot).entry hf,
      fun made minted hle hmade => (hlater minted hle).set ?_⟩
    exact ((hlater minted hle).field hslot).insert hmade

/-- A navigation keeps objects usable when its visitor does. -/
theorem Visits.usable {act : Node → Node → String → Session → Fields → Session → Prop}
    (hact : ∀ {p o : Node} {name : String} {s s' : Session} {f : Fields},
      m.Supplied types limit s.minted → m.Lasts types limit s' →
      Usable m types (m.reserved limit s.minted) (.object o.type o.fields) →
      act p o name s f s' →
      s.minted ≤ s'.minted ∧ Usable m types (m.reserved limit s'.minted) (.object o.type f))
    {rest : List String} (hsupplied : m.Supplied types limit s.minted)
    (hlasts : m.Lasts types limit s')
    (horiginal : Usable m types (m.reserved limit s.minted) (.object original.type original.fields))
    (h : m.Visits full act rest patch original s fields s') :
    s.minted ≤ s'.minted ∧
      Usable m types (m.reserved limit s'.minted) (.object original.type fields) := by
  induction h with
  | member h => exact hact hsupplied hlasts horiginal h
  | entry _ _ _ _ hassign =>
    cases hassign with
    | intro => exact ⟨le_rfl, horiginal.set .leafDictionary⟩
  | hop hhop _ _ ih =>
    obtain ⟨hinner, hput⟩ := hhop.usable hsupplied horiginal
    have hle := (hhop.extends []).counters.2
    obtain ⟨hle', hmade⟩ := ih (hsupplied.mono hle) hlasts hinner
    exact ⟨hle.trans hle', hput _ _ (hle.trans hle') hmade⟩

/-! ## Collections -/

/-- A list of directives keeps objects usable. -/
def RunsUsable (m : Merger) (types : Set TypeName) (limit : Nat)
    (directives : List Directive) : Prop :=
  ∀ {base : List String} {patch : Node} {type : TypeName} {fields made : Fields}
    {s s' : Session}, m.Supplied types limit s.minted → m.Lasts types limit s' →
    Usable m types (m.reserved limit s.minted) (.object type fields) →
    Succeeds (runDirectives m base patch type directives fields) s made s' →
    Usable m types (m.reserved limit s'.minted) (.object type made)

/-- A new item has an identity that was given out, if its type needs one. -/
theorem Makes.identity?_eq (hneeds : (m.catalogue type).needsFreshIdentity = true)
    (h : m.Makes type s fields s') :
    m.identity? type fields = some (m.mint s.minted) ∧ s'.minted = s.minted + 1 := by
  cases h with
  | plain hplain =>
    rw [hplain] at hneeds
    cases hneeds
  | fresh =>
    obtain ⟨i, hfield, hslot⟩ := Schema.identity_field_of_needsFreshIdentity hneeds
    obtain ⟨hi, -⟩ := List.getElem?_eq_some_iff.1 hslot
    refine ⟨?_, rfl⟩
    simp only [identity?, Schema.identity?, Schema.withIdentity, hfield, Option.bind_some,
      List.getElem?_set_self hi]

section

variable (hactions : m.configuration.NoActions) (hfactories : m.configuration.NoFactories)

include hactions

/-- A new item that was populated is usable, and has an identity that is not reserved any
more, which no item has had before. -/
theorem Makes.populated {directives : List Directive} {made new : Fields} {t : Session}
    (hdirectives : m.RunsUsable types limit directives)
    (hsupplied : m.Supplied types limit s.minted)
    (hlasts : m.Lasts types limit s') (hmade : m.Makes type s made t)
    (hrun : Succeeds (runDirectives m base patch type directives made)
      { t with populating := t.populating + 1 } new s') :
    Usable m types (m.reserved limit s'.minted) (.object type new) ∧
      (type ∈ types → (m.catalogue type).needsFreshIdentity = true →
        s.minted < limit ∧ m.identity? type new = some (m.mint s.minted) ∧
          m.mint s.minted ∉ m.reserved limit s'.minted) := by
  have hmadeLe := (hmade.extends []).counters.2
  have hrunLe := (m.runsExtend _ hrun).counters.2
  have hbegun : Usable m types (m.reserved limit t.minted) (.object type made) :=
    hmade.usable hsupplied
  have hnew := hdirectives (s := { t with populating := t.populating + 1 })
    (hsupplied.mono hmadeLe) hlasts hbegun hrun
  refine ⟨hnew, fun hmem hneeds => ?_⟩
  obtain ⟨hid, hminted⟩ := hmade.identity?_eq hneeds
  have hlt : s.minted < s'.minted := by
    rw [hminted] at hrunLe
    exact hrunLe
  exact ⟨hlt.trans_le hlasts.minted_le,
    identity?_of_lasting hactions (hlasts.lasting _ hmem) hid hrun,
    hsupplied.mint_notMem_reserved hlt hlasts.minted_le⟩

include hfactories

/-- An element of an array leaves the items such that they can be told apart. -/
theorem ElementStep.usable {r : Reconciliation} {position : Nat}
    {members : List (String × Json)} {directives : List Directive} {state state' : Reconciled}
    (hdirectives : m.RunsUsable types limit directives)
    (hsupplied : m.Supplied types limit s.minted) (hlasts : m.Lasts types limit s')
    (hstate : Usable m types (m.reserved limit s.minted) (.collection r.type state.items))
    (h : m.ElementStep r position members directives state s state' s') :
    Usable m types (m.reserved limit s'.minted) (.collection r.type state'.items) := by
  have hle := (h.extends (m.runsExtend _)).counters.2
  have hold := hstate.mono (m.reserved_anti limit hle)
  cases h with
  | @add patchItem fresh new t u _ _ hfresh _ hrun =>
    cases hfresh with
    | factory hmake =>
      rw [hfactories.itemFactory?_eq_none] at hmake
      cases hmake
    | construct _ hmade =>
      have hlasts' : m.Lasts types limit u := by
        refine ⟨hlasts.minted_le,
          fun type htype => (hlasts.lasting type htype).mono fun r hr => ?_⟩
        rw [Session.requests_noting, Session.requests_asking]
        exact List.mem_append_left _ hr
      obtain ⟨hnew, hidentity⟩ := hmade.populated hactions hdirectives hsupplied hlasts' hrun
      refine .collection (fun hmem => ?_) fun item hitem => ?_
      · -- an item that is added needs a fresh identity, which the others cannot have
        have hneeds : (m.catalogue r.type).needsFreshIdentity = true := by
          by_contra hneeds
          exact (hlasts.lasting _ hmem).added (by simpa using hneeds) _
            (Session.mem_requests_noting ..) ⟨rfl, _, rfl, rfl⟩
        obtain ⟨hlt, hid, hfree⟩ := hidentity hmem hneeds
        refine (hold.distinguished hmem).append hid hfree fun item hitem hsame => ?_
        obtain ⟨id, hid, hreserved⟩ := (hstate.distinguished hmem).identified item hitem
        obtain rfl := Option.some_inj.1 (hid.symm.trans hsame)
        exact hreserved (.inr ⟨_, le_rfl, hlt, rfl⟩)
      · rcases List.mem_append.1 hitem with hitem | hitem
        · exact hold.item hitem
        · obtain rfl := List.mem_singleton.1 hitem
          exact hnew
  | @update id index item new _ _ _ hindex hitem _ hrun =>
    have hid := identity?_of_position? hindex hitem
    have hnew := hdirectives hsupplied hlasts (hstate.item (List.mem_of_getElem? hitem)) hrun
    refine .collection (fun hmem => ?_) fun other hother => ?_
    · have hkept := identity?_of_lasting hactions (hlasts.lasting _ hmem) hid hrun
      exact (hold.distinguished hmem).set hitem (hkept.trans hid.symm)
    · rcases List.mem_or_eq_of_mem_set hother with hother | rfl
      · exact hold.item hother
      · exact hnew
  | remove => exact hold.sublist (List.eraseIdx_sublist ..)

theorem ElementsRun.usable {r : Reconciliation} {position : Nat} {elements : List Element}
    {state state' : Reconciled}
    (hdirectives : ∀ e ∈ elements, m.RunsUsable types limit e.directives)
    (hsupplied : m.Supplied types limit s.minted)
    (hlasts : m.Lasts types limit s')
    (hstate : Usable m types (m.reserved limit s.minted) (.collection r.type state.items))
    (h : m.ElementsRun r position elements state s state' s') :
    Usable m types (m.reserved limit s'.minted) (.collection r.type state'.items) := by
  induction h with
  | nil => exact hstate
  | cons hstep hrest ih =>
    have hle := (hstep.extends (m.runsExtend _)).counters.2
    have hmid := hstep.usable hactions hfactories (hdirectives _ (List.mem_cons_self ..))
      hsupplied (hlasts.of_extends (hrest.extends fun e _ => m.runsExtend _)) hstate
    exact ih (fun e he => hdirectives e (List.mem_cons_of_mem _ he)) (hsupplied.mono hle)
      hlasts hmid

theorem Reconciles.usable {node : Json} {elements : List Element} {pm om : Member}
    (hdirectives : ∀ e ∈ elements, m.RunsUsable types limit e.directives)
    (hsupplied : m.Supplied types limit s.minted)
    (hlasts : m.Lasts types limit s')
    (horiginal : Usable m types (m.reserved limit s.minted) (.object original.type original.fields))
    (h : m.Reconciles full node elements patch original pm om s fields s') :
    Usable m types (m.reserved limit s'.minted) (.object original.type fields) := by
  cases h with
  | ignored => exact horiginal
  | @run _ type _ _ items _ found left i t u v state _ _ htarget hclears hrun hdrops =>
    have hclearsLe := hclears.extends.counters.2
    have hrunLe := (hrun.extends fun e _ => m.runsExtend _).counters.2
    have hdropsLe := hdrops.extends.counters.2
    have hslot := List.mem_of_getElem? (Node.target?_eq_some.1 htarget).2
    have hitems := (horiginal.field hslot).mono (m.reserved_anti limit hclearsLe)
    have hfound : Usable m types (m.reserved limit t.minted) (.collection type found) := by
      cases hclears with
      | kept => exact hitems
      | cleared | empty => exact hitems.sublist (List.nil_sublist _)
    have hstate := hrun.usable hactions hfactories hdirectives (hsupplied.mono hclearsLe)
      (hlasts.of_extends hdrops.extends) hfound
    have hall := horiginal.mono (m.reserved_anti limit (hclearsLe.trans (hrunLe.trans hdropsLe)))
    refine hall.set ((hstate.mono (m.reserved_anti limit hdropsLe)).sublist ?_)
    cases hdrops with
    | kept => exact List.Sublist.refl _
    | dropped _ hdrop => exact hdrop.sublist

theorem ArrayAssigns.usable {node : Json} {elements : List Element}
    (hdirectives : ∀ e ∈ elements, m.RunsUsable types limit e.directives)
    (hsupplied : m.Supplied types limit s.minted)
    (hlasts : m.Lasts types limit s')
    (horiginal : Usable m types (m.reserved limit s.minted) (.object original.type original.fields))
    (h : m.ArrayAssigns full node elements patch original name s fields s') :
    Usable m types (m.reserved limit s'.minted) (.object original.type fields) := by
  cases h with
  | identity => exact horiginal
  | emptied => exact horiginal.set .leaf
  | assigned _ _ _ _ _ hassign => exact hassign.usable hactions horiginal
  | reconciled _ _ _ _ hreconcile =>
    exact hreconcile.usable hactions hfactories hdirectives hsupplied hlasts horiginal

/-! ## Directives -/

theorem DirectiveStep.usable {directive : Directive}
    (hdirectives : ∀ e ∈ directive.arrayElements, m.RunsUsable types limit e.directives)
    (hsupplied : m.Supplied types limit s.minted)
    (hlasts : m.Lasts types limit s')
    (horiginal : Usable m types (m.reserved limit s.minted) (.object original.type original.fields))
    (h : m.DirectiveStep base patch original directive s fields s') :
    Usable m types (m.reserved limit s'.minted) (.object original.type fields) := by
  cases h with
  | identity => exact horiginal
  | scalar _ hvisit =>
    refine (hvisit.usable (fun _ _ ho hact => ?_) hsupplied hlasts horiginal).2
    exact ⟨hact.extends.counters.2, hact.usable hactions ho⟩
  | array hvisit =>
    refine (hvisit.usable (fun hs hl ho hact => ?_) hsupplied hlasts horiginal).2
    exact ⟨(hact.extends fun e _ => m.runsExtend _).counters.2,
      hact.usable hactions hfactories hdirectives hs hl ho⟩

/-- Every list of directives keeps objects usable. -/
theorem runsUsable (directives : List Directive) : m.RunsUsable types limit directives := by
  induction directives using Directive.forall_of_elements with
  | nil =>
    intro base patch type fields made s s' _ _ hfields h
    obtain ⟨rfl, rfl⟩ := succeeds_runDirectives_nil.1 h
    exact hfields
  | cons directive directives hdirective ih =>
    intro base patch type fields made s s' hsupplied hlasts hfields h
    obtain ⟨mid, t, hhead, htail⟩ := succeeds_runDirectives_cons.1 h
    have hstep := DirectiveStep.of_runDirective hhead
    have hle := (hstep.extends fun e _ => m.runsExtend _).counters.2
    have hmid := hstep.usable hactions hfactories hdirective hsupplied
      (hlasts.of_extends (m.runsExtend _ htail)) hfields
    exact ih (hsupplied.mono hle) hlasts hmid htail

end

/-! ## A whole merge -/

/-- A merge without overrides that act or make items of their own leaves the items of all
collections such that they can be told apart, also from the identities that are given out
next, in the types whose identities last through the requests of the merge. -/
theorem usable_merge {payload : Json} {report : Report} (hactions : m.configuration.NoActions)
    (hfactories : m.configuration.NoFactories) (hsupplied : m.Supplied types limit minted)
    (hlimit : (m.merge patch original payload minted).minted ≤ limit)
    (hlasting : ∀ type ∈ types, m.Lasting (m.merge patch original payload minted).requests type)
    (horiginal : Usable m types (m.reserved limit minted) (.object original.type original.fields))
    (hok : (m.merge patch original payload minted).result = .ok report) :
    m.Supplied types limit (m.merge patch original payload minted).minted ∧
      Usable m types (m.reserved limit (m.merge patch original payload minted).minted)
        (.object original.type (m.merge patch original payload minted).original.fields) := by
  obtain ⟨members, made, s, rfl, hwalk, -, heq⟩ := Walks.of_merge hok
  rw [heq] at hlimit hlasting ⊢
  have hle := (m.runsExtend _ hwalk).counters.2
  exact ⟨hsupplied.mono hle,
    runsUsable hactions hfactories _ hsupplied ⟨hlimit, hlasting⟩ horiginal hwalk⟩

end Merger

/-! ## Devices and trees -/

namespace Sample

variable {types : Set TypeName} {limit minted : Nat}

/-- A merger of racks that gives out the identities of the nursery. -/
def supplyingRacks : Merger := { racks with mint := nursery.mint }

/-- The first bit of the identities that are given out is set. -/
theorem nursery_mint_msb (n : Nat) : (nursery.mint n).bits.msb = true := BitVec.msb_cons

theorem nursery_mint_ne_nil (n : Nat) : nursery.mint n ≠ Uuid.nil := by
  intro heq
  have hfirst := nursery_mint_msb n
  rw [heq] at hfirst
  exact absurd hfirst (by decide)

theorem nursery_mint_inj : ∀ b < 8, ∀ a < b, nursery.mint a ≠ nursery.mint b := by
  decide +kernel

/-- An identity without its first bit is not given out. -/
theorem notMem_reserved_nursery {id : Uuid} (hnil : id ≠ Uuid.nil)
    (hfirst : id.bits.msb = false) : id ∉ nursery.reserved limit minted := by
  rintro (heq | ⟨n, -, -, rfl⟩)
  · exact hnil heq
  · rw [nursery_mint_msb] at hfirst
    cases hfirst

theorem nursery_supplied : nursery.Supplied types 8 0 where
  mint_ne_nil := fun n _ _ => nursery_mint_ne_nil n
  mint_inj := fun a b _ hlt hlimit => nursery_mint_inj b hlimit a hlt
  initial := fun type => by
    refine .object fun slot hslot => ?_
    simp only [nursery, Merger.plain, Schema.initialFields, tree, Plan.identifiedSchema,
      Plan.schema, Plan.fields, List.map_cons, List.map_nil, List.mem_cons, List.not_mem_nil,
      or_false] at hslot
    rcases hslot with rfl | rfl | rfl | rfl
    · exact .leaf
    · exact .leaf
    · exact .collection (fun _ => .nil) (by simp)
    · exact .dictionary (by simp)

theorem nursery_lasting (type : TypeName) (requests : List Request) :
    nursery.Lasting requests type := by
  have hneeds : (tree "").needsFreshIdentity = true := by decide +kernel
  exact .of_namesIdentity hneeds (nursery_namesIdentity type) requests

theorem supplyingRacks_supplied : supplyingRacks.Supplied types 8 0 where
  mint_ne_nil := fun n _ _ => nursery_mint_ne_nil n
  mint_inj := fun a b _ hlt hlimit => nursery_mint_inj b hlimit a hlt
  initial := fun type => by
    refine .object fun slot hslot => ?_
    rcases racks_catalogue type with hdevice | hrack
    · have hinitial : supplyingRacks.catalogue type = device "" := hdevice
      rw [hinitial] at hslot
      rcases List.mem_pair.1 hslot with rfl | rfl <;> exact .leaf
    · have hinitial : supplyingRacks.catalogue type = rack "" := hrack
      rw [hinitial] at hslot
      simp only [Schema.initialFields, rack, Plan.identifiedSchema, Plan.schema, Plan.fields,
        List.map_cons, List.map_nil, List.mem_cons, List.not_mem_nil, or_false] at hslot
      rcases hslot with rfl | rfl | rfl | rfl
      · exact .leaf
      · exact .leaf
      · exact .collection (fun _ => .nil) (by simp)
      · exact .missing

theorem sapling_usable {id : Nat} {name : String} {children : List Fields}
    (h : Usable nursery types (nursery.reserved limit minted) (.collection "Tree" children)) :
    Usable nursery types (nursery.reserved limit minted)
      (.object "Tree" (sapling id name children)) := by
  refine .object fun slot hslot => ?_
  simp only [sapling, List.mem_cons, List.not_mem_nil, or_false] at hslot
  rcases hslot with rfl | rfl | rfl | rfl
  · exact .leaf
  · exact .leaf
  · exact h
  · exact .dictionary (by simp)

theorem oakAndElm_usable : Usable nursery types (nursery.reserved limit minted)
    (.object oakAndElm.type oakAndElm.fields) := by
  refine sapling_usable (.collection (fun _ => ?_) fun child hchild => ?_)
  · refine ⟨fun child hchild => ?_, by decide +kernel⟩
    rcases List.mem_pair.1 hchild with rfl | rfl
    · exact ⟨⟨10⟩, rfl, notMem_reserved_nursery (by decide) (by decide)⟩
    · exact ⟨⟨11⟩, rfl, notMem_reserved_nursery (by decide) (by decide)⟩
  · rcases List.mem_pair.1 hchild with rfl | rfl <;>
      exact sapling_usable (.collection (fun _ => .nil) (by simp))

theorem emptyRack_usable {m : Merger} {reserved : Set Uuid} :
    Usable m types reserved (.object "Rack" (rackOf []).fields) := by
  refine .object fun slot hslot => ?_
  simp only [rackOf, List.mem_cons, List.not_mem_nil, or_false] at hslot
  rcases hslot with rfl | rfl | rfl | rfl
  · exact .leaf
  · exact .leaf
  · exact .collection (fun _ => .nil) (by simp)
  · exact .missing

end Sample

/-- Devices get no identity when they are made. So a device that is added to a rack has the
nil identity, although fresh identities could be had and no override is in play. -/
theorem added_device_is_nil :
    Sample.supplyingRacks.configuration = .empty ∧
      Sample.supplyingRacks.Supplied Sample.supplyingRacks.identifiedTypes 8 0 ∧
      Usable Sample.supplyingRacks Sample.supplyingRacks.identifiedTypes
        (Sample.supplyingRacks.reserved 8 0) (.object "Rack" (Sample.rackOf []).fields) ∧
      (Sample.supplyingRacks.merge (Sample.unkeyedRack "new") (Sample.rackOf [])
        (.object [("devices", .array [Sample.addedDevice])]) 0).result =
          .ok ⟨[⟨⟨["devices"]⟩, .added, some Uuid.nil⟩]⟩ ∧
      ¬ Usable Sample.supplyingRacks Sample.supplyingRacks.identifiedTypes
        {Uuid.nil} (.object "Rack" (Sample.supplyingRacks.merge (Sample.unkeyedRack "new")
          (Sample.rackOf []) (.object [("devices", .array [Sample.addedDevice])])
          0).original.fields) := by
  refine ⟨rfl, Sample.supplyingRacks_supplied, Sample.emptyRack_usable, by decide +kernel, ?_⟩
  intro h
  have hdevices : Usable Sample.supplyingRacks Sample.supplyingRacks.identifiedTypes {Uuid.nil}
      (.collection "Device" [Sample.deviceCalled 0 "new"]) :=
    h.field (List.mem_of_getElem? (i := 2) rfl)
  obtain ⟨id, hid, hfree⟩ :=
    (hdevices.distinguished rfl).identified _ (List.mem_singleton_self _)
  exact hfree (Option.some_inj.1 hid).symm

/-- The ash gets an identity that neither the oak nor the elm has, and no later tree. -/
theorem usable_merge_nursery :
    (Sample.nursery.merge Sample.ashAndElm Sample.oakAndElm (.object Sample.replanting) 0).result =
        .ok Sample.reportOfPlantings ∧
      (Sample.nursery.merge Sample.ashAndElm Sample.oakAndElm (.object Sample.replanting)
        0).minted ≤ 8 ∧
      Sample.nursery.Supplied Set.univ 8 (Sample.nursery.merge Sample.ashAndElm Sample.oakAndElm
        (.object Sample.replanting) 0).minted ∧
      Usable Sample.nursery Set.univ
        (Sample.nursery.reserved 8 (Sample.nursery.merge Sample.ashAndElm Sample.oakAndElm
          (.object Sample.replanting) 0).minted)
        (.object "Tree" (Sample.nursery.merge Sample.ashAndElm Sample.oakAndElm
          (.object Sample.replanting) 0).original.fields) := by
  have hok : (Sample.nursery.merge Sample.ashAndElm Sample.oakAndElm
      (.object Sample.replanting) 0).result = .ok Sample.reportOfPlantings := by
    decide +kernel
  have hlimit : (Sample.nursery.merge Sample.ashAndElm Sample.oakAndElm
      (.object Sample.replanting) 0).minted ≤ 8 := by
    decide +kernel
  have hnone : Sample.nursery.configuration.NoFactories := by
    intro e he
    cases he
  exact ⟨hok, hlimit, Merger.usable_merge Sample.nursery_noActions hnone Sample.nursery_supplied
    hlimit (fun type _ => Sample.nursery_lasting type _) Sample.oakAndElm_usable hok⟩

end SelectiveMerge
