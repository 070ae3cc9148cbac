import Mathlib.Data.Set.Basic
import SelectiveMerge.Proofs.Lookup
import SelectiveMerge.Proofs.Payload
import SelectiveMerge.Proofs.UuidText

/-!
# Identities that stay as they are

A merge skips the keys that are called `id`. So the identity of an object stays what it is
when no other key goes to the field that holds it. It stays what it is as well when the
patch is an object of the same type with the same identity, since then it may only be
replaced by itself.

* `Merger.Protects` — of some keys, only those called `id` go to the identity of a type
* `Merger.Secure` — one of the two reasons holds
* `identity?_runDirectives` — then an object keeps its identity
* `Secure.of_itemWithId?` — an item and the item of the patch that it is updated with
-/

namespace SelectiveMerge

/-- The keys of an object of a payload. -/
def Json.keys : Json → List String
  | .object members => members.map (·.1)
  | _ => []

/-- The slot holds no leaf. -/
def Slot.IsBranch : Slot → Prop
  | .leaf .. => False
  | _ => True

namespace Schema

variable {schema : Schema} {fields : Fields} {i : Nat} {old new : Slot}

/-- The identity does not depend on the other fields. -/
theorem identity?_set_of_ne (h : schema.identityField ≠ some i) :
    schema.identity? (fields.set i new) = schema.identity? fields := by
  unfold identity?
  cases hfield : schema.identityField with
  | none => rfl
  | some j =>
    have hj : i ≠ j := by
      rintro rfl
      exact h hfield
    rw [Option.bind_some, Option.bind_some, List.getElem?_set_ne hj]

/-- An object with an identity holds it in a leaf. -/
theorem leaf_of_identity? {id : Uuid} (hfield : schema.identityField = some i)
    (h : schema.identity? fields = some id) : fields[i]? = some (.leaf .uuid (.uuid id)) := by
  unfold identity? at h
  rw [hfield, Option.bind_some] at h
  split at h
  · rename_i u hslot
    obtain rfl := Option.some_inj.1 h
    exact hslot
  · cases h

/-- There is no identity in a field that holds no leaf. -/
theorem identity?_eq_none (hfield : schema.identityField = some i) (hslot : fields[i]? = some old)
    (hold : old.IsBranch) : schema.identity? fields = none := by
  unfold identity?
  rw [hfield, Option.bind_some, hslot]
  cases old with
  | leaf => exact hold.elim
  | _ => rfl

/-- The identity does not depend on what is no leaf. -/
theorem identity?_set_of_isBranch (hslot : fields[i]? = some old) (hold : old.IsBranch)
    (hnew : new.IsBranch) : schema.identity? (fields.set i new) = schema.identity? fields := by
  by_cases hfield : schema.identityField = some i
  · obtain ⟨hi, -⟩ := List.getElem?_eq_some_iff.1 hslot
    rw [identity?_eq_none hfield hslot hold,
      identity?_eq_none hfield (List.getElem?_set_self hi) hnew]
  · exact identity?_set_of_ne hfield

end Schema

namespace Merger

open Run (Succeeds)

/-- Of the given keys, only those that are never assigned go to the field that holds the
identity of objects of a type. -/
def Protects (m : Merger) (named : Set String) (type : TypeName) : Prop :=
  ∀ key ∈ named, ∀ i, m.number? Member.writes type key = some i →
    (m.catalogue type).identityField = some i → isIdentityKey key = true

/-- The identity of an object, if it has one. -/
def identity? (m : Merger) (type : TypeName) (fields : Fields) : Option Uuid :=
  (m.catalogue type).identity? fields

/-- What an object of a type is given by a patch is not another identity: its type protects
it, or the patch is an object of that type with the identity that the object has. -/
def Secure (m : Merger) (named : Set String) (patch original : Node) : Prop :=
  m.Protects named original.type ∨ patch.type = original.type ∧
    ∃ id, m.identity? patch.type patch.fields = some id ∧
      m.identity? original.type original.fields = some id

/-- Items are found by their identities alone. -/
theorem position?_congr {m : Merger} {type : TypeName} {items items' : List Fields}
    (h : items'.map (m.identity? type) = items.map (m.identity? type)) (id : Uuid) :
    m.catalogue.position? type items' id = m.catalogue.position? type items id := by
  have hmap (items : List Fields) : m.catalogue.position? type items id =
      (items.map (m.identity? type)).findIdx? (· == some id) := by
    rw [List.findIdx?_map]
    rfl
  rw [hmap, hmap, h]

/-- An item that keeps its identity leaves all identities as they are. -/
theorem map_identity?_set {m : Merger} {type : TypeName} {items : List Fields} {i : Nat}
    {item made : Fields} (hitem : items[i]? = some item)
    (hid : m.identity? type made = m.identity? type item) :
    (items.set i made).map (m.identity? type) = items.map (m.identity? type) := by
  rw [List.map_set, hid, set_eq_self (by rw [List.getElem?_map, hitem]; rfl)]

/-- The members of a type that go to the field which holds the identity are called `id`. -/
def NamesIdentity (m : Merger) (type : TypeName) : Prop :=
  ∀ member ∈ (m.catalogue type).table.members, ∀ i, member.writes = some i →
    (m.catalogue type).identityField = some i → isIdentityKey member.name = true

/-- An identity in a member called `id` is protected against all keys. -/
theorem NamesIdentity.protects {m : Merger} {type : TypeName} (h : m.NamesIdentity type)
    (named : Set String) : m.Protects named type := by
  intro key _ i hnumber hfield
  obtain ⟨member, hmember, hwrites⟩ := Option.bind_eq_some_iff.1 hnumber
  have hname := h member (MemberTable.mem_of_find? hmember) i hwrites hfield
  rw [isIdentityKey, Text.eqIgnoreCase_iff] at hname ⊢
  exact (MemberTable.foldCase_of_find? hmember).symm.trans hname

variable {m : Merger} {named : Set String} {s s' : Session} {patch original : Node}
  {name : String} {pm om : Member} {fields : Fields} {i : Nat} {old new : Slot}

/-! ## Single members -/

/-- What holds no leaf may be written to. -/
theorem identity?_set_branch (htarget : original.target? om = some (i, old))
    (hold : old.IsBranch) (hnew : new.IsBranch) :
    m.identity? original.type (original.fields.set i new) =
      m.identity? original.type original.fields :=
  Schema.identity?_set_of_isBranch (Node.target?_eq_some.1 htarget).2 hold hnew

/-- A key that goes to a protected identity is never assigned. -/
theorem Protects.ne_of_target? (hprotects : m.Protects named original.type)
    (hname : name ∈ named) (hid : isIdentityKey name = false)
    (hom : m.member? original name = some om) (htarget : original.target? om = some (i, old)) :
    (m.catalogue original.type).identityField ≠ some i := by
  intro hfield
  obtain ⟨hnumber, -⟩ := number?_of_target? hom htarget
  have hkey := hprotects name hname i hnumber hfield
  rw [hid] at hkey
  cases hkey

/-- An object stays secure while it keeps its identity. -/
theorem Secure.of_identity?_eq {type : TypeName} {made : Fields}
    (hsecure : m.Secure named patch ⟨type, fields⟩)
    (hid : m.identity? type made = m.identity? type fields) :
    m.Secure named patch ⟨type, made⟩ :=
  hsecure.imp_right fun ⟨htype, id, hpatch, hfields⟩ => ⟨htype, id, hpatch, hid.trans hfields⟩

/-- A leaf that is taken over from a patch changes no identity. -/
theorem Secure.identity?_set_leaf (hderived : m.catalogue.Derived)
    (hsecure : m.Secure named patch original) (hname : name ∈ named)
    (hid : isIdentityKey name = false) (hpm : m.member? patch name = some pm)
    (hom : m.member? original name = some om) {patchType type : LeafType}
    {source cell oldCell : Cell} {value : Json}
    (hread : patch.read? pm = some (.leaf patchType source)) (hencode : source.encode = .ok value)
    (htarget : original.target? om = some (i, .leaf type oldCell))
    (hcoerce : Coercion.coerce? type value = some cell) :
    m.identity? original.type (original.fields.set i (.leaf type cell)) =
      m.identity? original.type original.fields := by
  by_cases hfield : (m.catalogue original.type).identityField = some i
  · rcases hsecure with hprotects | ⟨htype, id, hpatch, horiginal⟩
    · exact absurd hfield (hprotects.ne_of_target? hname hid hom htarget)
    · -- both hold the identity in the field that the key goes to
      have hslot := (Node.target?_eq_some.1 htarget).2
      have hleaf := Schema.leaf_of_identity? hfield horiginal
      obtain ⟨rfl, rfl⟩ : type = .uuid ∧ oldCell = .uuid id := by
        simpa using hslot.symm.trans hleaf
      have hpatchLeaf : patch.fields[i]? = some (.leaf .uuid (.uuid id)) :=
        Schema.leaf_of_identity? (htype ▸ hfield) hpatch
      have hmember : pm = om := by
        unfold member? at hpm hom
        rw [htype, hom] at hpm
        exact (Option.some_inj.1 hpm).symm
      subst hmember
      have hshown := read?_of_target? hderived hpm
        (Node.target?_eq_some.2 ⟨(Node.target?_eq_some.1 htarget).1, hpatchLeaf⟩)
      obtain ⟨rfl, rfl⟩ : patchType = .uuid ∧ source = .uuid id := by
        simpa [Slot.view] using hread.symm.trans hshown
      rw [coerce?_encode_uuid hencode hcoerce, set_eq_self hslot]
  · exact Schema.identity?_set_of_ne hfield

/-- A leaf that is emptied holds no identity. -/
theorem Secure.identity?_set_emptied (hsecure : m.Secure named patch original)
    (hname : name ∈ named) (hid : isIdentityKey name = false)
    (hom : m.member? original name = some om) {type : LeafType} {oldCell cell : Cell}
    (htarget : original.target? om = some (i, .leaf type oldCell))
    (hcell : type.decode? (.array []) = some cell) :
    m.identity? original.type (original.fields.set i (.leaf type cell)) =
      m.identity? original.type original.fields := by
  refine Schema.identity?_set_of_ne fun hfield => ?_
  rcases hsecure with hprotects | ⟨-, id, -, horiginal⟩
  · exact hprotects.ne_of_target? hname hid hom htarget hfield
  · have hslot := (Node.target?_eq_some.1 htarget).2
    have hleaf := Schema.leaf_of_identity? hfield horiginal
    obtain ⟨rfl, -⟩ : type = .uuid ∧ oldCell = .uuid id := by
      simpa using hslot.symm.trans hleaf
    have hnone : LeafType.uuid.decode? (.array []) = none := rfl
    rw [hnone] at hcell
    cases hcell

theorem Assigns.identity?_eq (hactions : m.configuration.NoActions)
    (hderived : m.catalogue.Derived) (hsecure : m.Secure named patch original)
    (hname : name ∈ named) {full : Path}
    (h : m.Assigns full patch original name s fields s') :
    m.identity? original.type fields = m.identity? original.type original.fields := by
  cases h with
  | identity => rfl
  | custom _ haction =>
    rw [hactions.setAction?_eq_none] at haction
    cases haction
  | leaf hid _ hpm hom hread _ hencode _ htarget hcoerce =>
    exact hsecure.identity?_set_leaf hderived hname hid hpm hom hread hencode htarget hcoerce
  | unset _ _ _ _ _ _ _ htarget => exact identity?_set_branch htarget trivial trivial

theorem ArrayAssigns.identity?_eq (hactions : m.configuration.NoActions)
    (hderived : m.catalogue.Derived) (hsecure : m.Secure named patch original)
    (hname : name ∈ named) {full : Path} {node : Json} {elements : List Element}
    (h : m.ArrayAssigns full node elements patch original name s fields s') :
    m.identity? original.type fields = m.identity? original.type original.fields := by
  cases h with
  | identity => rfl
  | emptied hid _ _ hom _ _ _ htarget hcell =>
    exact hsecure.identity?_set_emptied hname hid hom htarget hcell
  | assigned _ _ _ _ _ hassign => exact hassign.identity?_eq hactions hderived hsecure hname
  | reconciled _ _ _ _ hreconcile =>
    cases hreconcile with
    | ignored => rfl
    | run _ _ htarget => exact identity?_set_branch htarget trivial trivial

/-! ## Directives -/

theorem Hop.identity?_eq {innerPatch inner : Node} {keys : List String} {put : Fields → Fields}
    (h : m.Hop patch original s keys innerPatch inner put s') (made : Fields) :
    m.identity? original.type (put made) = m.identity? original.type original.fields := by
  cases h with
  | object _ _ _ htarget | optional _ _ _ htarget | entry _ _ _ htarget =>
    exact identity?_set_branch htarget trivial trivial

/-- A navigation keeps the identity of the object that it starts from, unless it ends there
and the visitor does not keep it. -/
theorem Visits.identity?_eq {full : Path}
    {act : Node → Node → String → Session → Fields → Session → Prop} {rest : List String}
    (hact : ∀ name, rest = [name] → act patch original name s fields s' →
      m.identity? original.type fields = m.identity? original.type original.fields)
    (h : m.Visits full act rest patch original s fields s') :
    m.identity? original.type fields = m.identity? original.type original.fields := by
  cases h with
  | member h => exact hact _ rfl h
  | entry _ _ _ htarget => exact identity?_set_branch htarget trivial trivial
  | hop hhop => exact hhop.identity?_eq _

theorem DirectiveStep.identity?_eq (hactions : m.configuration.NoActions)
    (hderived : m.catalogue.Derived) (hsecure : m.Secure named patch original)
    {base : List String} {directive : Directive}
    (hpath : ∀ name, directive.path = [name] → name ∈ named)
    (h : m.DirectiveStep base patch original directive s fields s') :
    m.identity? original.type fields = m.identity? original.type original.fields := by
  cases h with
  | identity => rfl
  | scalar _ hvisit =>
    refine hvisit.identity?_eq fun name hname hact => ?_
    exact hact.identity?_eq hactions hderived hsecure (hpath name hname)
  | array hvisit =>
    refine hvisit.identity?_eq fun name hname hact => ?_
    exact hact.identity?_eq hactions hderived hsecure (hpath name hname)

/-- An object whose identity is secure keeps it. -/
theorem identity?_runDirectives (hactions : m.configuration.NoActions)
    (hderived : m.catalogue.Derived) {base : List String} {type : TypeName}
    {directives : List Directive} {fields made : Fields}
    (hsecure : m.Secure named patch ⟨type, fields⟩)
    (hpaths : ∀ d ∈ directives, ∀ name, d.path = [name] → name ∈ named)
    (h : Succeeds (runDirectives m base patch type directives fields) s made s') :
    m.identity? type made = m.identity? type fields := by
  induction directives generalizing fields s with
  | nil =>
    obtain ⟨rfl, -⟩ := succeeds_runDirectives_nil.1 h
    rfl
  | cons directive directives ih =>
    obtain ⟨mid, t, hhead, htail⟩ := succeeds_runDirectives_cons.1 h
    have hmid := (DirectiveStep.of_runDirective hhead).identity?_eq hactions hderived hsecure
      (hpaths _ (List.mem_cons_self ..))
    exact (ih (hsecure.of_identity?_eq hmid) (fun d hd => hpaths d (List.mem_cons_of_mem _ hd))
      htail).trans hmid

/-! ## Items -/

/-- The item at the position of an identity has that identity. -/
theorem identity?_of_position? {type : TypeName} {items : List Fields} {id : Uuid} {j : Nat}
    {item : Fields} (hj : m.catalogue.position? type items id = some j)
    (hitem : items[j]? = some item) : m.identity? type item = some id := by
  obtain ⟨hlt, hid, -⟩ := List.findIdx?_eq_some_iff_getElem.1 hj
  obtain ⟨-, rfl⟩ := List.getElem?_eq_some_iff.1 hitem
  simpa [identity?] using hid

/-- The first item with an identity is one of the items, and has that identity. -/
theorem itemWithId?_eq_some {type : TypeName} {items : List Fields} {id : Uuid} {item : Node}
    (h : m.catalogue.itemWithId? type items id = some item) :
    item.type = type ∧ item.fields ∈ items ∧ m.identity? type item.fields = some id := by
  obtain ⟨fields, hfields, rfl⟩ := Option.map_eq_some_iff.1 h
  obtain ⟨i, hposition, hitem⟩ := Option.bind_eq_some_iff.1 hfields
  exact ⟨rfl, List.mem_of_getElem? hitem, identity?_of_position? hposition hitem⟩

/-- An item that is updated together with the first item of the patch that has its identity
is secure, where both are of one type. -/
theorem Secure.of_itemWithId? {r : Reconciliation} {id : Uuid} {item : Fields}
    {patchItem : Node} (htype : r.patchType = r.type)
    (hfound : m.catalogue.itemWithId? r.patchType r.patchItems id = some patchItem)
    (hid : m.identity? r.type item = some id) : m.Secure named patchItem ⟨r.type, item⟩ := by
  obtain ⟨hpatchType, -, hpatchId⟩ := itemWithId?_eq_some hfound
  refine .inr ⟨hpatchType.trans htype, id, ?_, hid⟩
  rw [hpatchType]
  exact hpatchId

/-- A directive with one key has a key of the payload. -/
theorem mem_keys_of_mem_ofMembers {members : List (String × Json)} {d : Directive}
    (hd : d ∈ Directive.ofMembers m.options members) (hname : d.path = [name]) :
    name ∈ (Json.object members).keys := by
  obtain ⟨path, leaf, hleads, rfl⟩ := Directive.mem_ofMembers_iff.1 hd
  rw [Directive.path_ofValue] at hname
  subst hname
  obtain ⟨members', inner, hvalue, hmember, -, -⟩ := leads_cons_iff.1 hleads
  obtain rfl := Json.object.inj hvalue
  exact List.mem_map.2 ⟨_, hmember, rfl⟩

end Merger

end SelectiveMerge
