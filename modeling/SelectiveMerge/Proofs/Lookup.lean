import SelectiveMerge.Proofs.Declared
import SelectiveMerge.Proofs.Step
import SelectiveMerge.Proofs.Table

/-!
# What is at the end of a path

Keys lead from a slot to another one, or to an entry of a dictionary of leaves. What
stands for an object that is missing on the way is up to the reader: nothing, or what an
object of its type holds at first.

* `Merger.spot?` — what keys lead to
* `Merger.shown?`, `Merger.held?`, `Merger.begun?` — in a patch, in an original after a
  merge, and in one before it
* `Merger.Spares` — what a path leads to is left alone
-/

namespace SelectiveMerge

/-- What keys lead to: a slot, or an entry of a dictionary of leaves. -/
inductive Spot where
  | slot (content : Slot)
  | entry (type : LeafType) (cell : Cell)

/-- What is there stays as it is when it is put back. -/
theorem set_eq_self {α : Type} {xs : List α} {i : Nat} {a : α} (h : xs[i]? = some a) :
    xs.set i a = xs := by
  obtain ⟨hi, rfl⟩ := List.getElem?_eq_some_iff.1 h
  exact List.set_getElem_self hi

namespace Merger

/-- The number of the field that a key of an object goes to. -/
def number? (m : Merger) (access : Member → Option Nat) (type : TypeName) (key : String) :
    Option Nat :=
  ((m.catalogue type).table.find? key m.options.ignoreCase).bind access

/-- What keys lead to from a slot, where what `missing` says stands for the objects that
are missing on the way. -/
def spot? (m : Merger) (access : Member → Option Nat) (missing : TypeName → Option Fields) :
    Slot → List String → Option Spot
  | slot, [] => some (.slot slot)
  | .object type fields, key :: rest =>
      ((m.number? access type key).bind (fields[·]?)).bind (spot? m access missing · rest)
  | .optional type present, key :: rest =>
      (present.or (missing type)).bind fun fields =>
        ((m.number? access type key).bind (fields[·]?)).bind (spot? m access missing · rest)
  | .dictionary type entries, key :: rest =>
      ((Dictionary.find? key entries).or (missing type)).bind fun fields =>
        spot? m access missing (.object type fields) rest
  | .leafDictionary type entries, key :: rest =>
      if rest = [] then (Dictionary.find? key entries).map (.entry type) else none
  | .leaf .., _ :: _ | .collection .., _ :: _ => none

/-- What a patch shows at the end of a path. -/
def shown? (m : Merger) (patch : Node) (path : List String) : Option Spot :=
  m.spot? Member.reads (fun _ => none) (.object patch.type patch.fields) path

/-- What is at the end of a path to be written to. -/
def held? (m : Merger) (slot : Slot) (path : List String) : Option Spot :=
  m.spot? Member.writes (fun _ => none) slot path

/-- What a merge finds at the end of a path, since it makes what is missing on the way. -/
def begun? (m : Merger) (slot : Slot) (path : List String) : Option Spot :=
  m.spot? Member.writes (fun type => some (m.catalogue type).initialFields) slot path

variable {m : Merger} {s s' : Session}

theorem spot?_object_cons {access : Member → Option Nat} {missing : TypeName → Option Fields}
    {type : TypeName} {fields : Fields} {key : String} {rest : List String} :
    m.spot? access missing (.object type fields) (key :: rest) =
      ((m.number? access type key).bind (fields[·]?)).bind (m.spot? access missing · rest) := by
  rw [spot?]

/-- An optional object that is there is like an object that always is. -/
theorem spot?_optional_cons {access : Member → Option Nat}
    {missing : TypeName → Option Fields} {type : TypeName} {present : Option Fields}
    {key : String} {rest : List String} :
    m.spot? access missing (.optional type present) (key :: rest) =
      (present.or (missing type)).bind fun fields =>
        m.spot? access missing (.object type fields) (key :: rest) := by
  rw [spot?]
  exact Option.bind_congr fun fields _ => (spot?_object_cons ..).symm

theorem spot?_dictionary_cons {access : Member → Option Nat}
    {missing : TypeName → Option Fields} {type : TypeName}
    {entries : List (String × Fields)} {key : String} {rest : List String} :
    m.spot? access missing (.dictionary type entries) (key :: rest) =
      ((Dictionary.find? key entries).or (missing type)).bind fun fields =>
        m.spot? access missing (.object type fields) rest := by
  rw [spot?]

theorem spot?_leafDictionary_cons {access : Member → Option Nat}
    {missing : TypeName → Option Fields} {type : LeafType} {entries : List (String × Cell)}
    {key : String} {rest : List String} :
    m.spot? access missing (.leafDictionary type entries) (key :: rest) =
      if rest = [] then (Dictionary.find? key entries).map (.entry type) else none := by
  rw [spot?]

/-- What a key of an object leads to depends on the field that it goes to. -/
theorem spot?_object_of_number? {access : Member → Option Nat}
    {missing : TypeName → Option Fields} {type : TypeName} {fields : Fields} {key : String}
    {rest : List String} {i : Nat} {slot : Slot} (hnumber : m.number? access type key = some i)
    (hslot : fields[i]? = some slot) :
    m.spot? access missing (.object type fields) (key :: rest) =
      m.spot? access missing slot rest := by
  rw [spot?_object_cons, hnumber, Option.bind_some, hslot, Option.bind_some]

/-- A change of a field is not seen by keys that do not go to it. -/
theorem spot?_set_of_number?_ne {access : Member → Option Nat}
    {missing : TypeName → Option Fields} {type : TypeName} {fields : Fields} {key : String}
    {rest : List String} {i : Nat} (new : Slot)
    (hnumber : m.number? access type key ≠ some i) :
    m.spot? access missing (.object type (fields.set i new)) (key :: rest) =
      m.spot? access missing (.object type fields) (key :: rest) := by
  rw [spot?_object_cons, spot?_object_cons]
  cases hkey : m.number? access type key with
  | none => rfl
  | some j =>
    have hj : i ≠ j := by
      rintro rfl
      exact hnumber hkey
    rw [Option.bind_some, Option.bind_some, List.getElem?_set_ne hj]

/-- The member with a name goes to the field that it is written to. -/
theorem number?_of_target? {n : Node} {name : String} {member : Member} {i : Nat} {slot : Slot}
    (hmember : m.member? n name = some member) (htarget : n.target? member = some (i, slot)) :
    m.number? Member.writes n.type name = some i ∧ n.fields[i]? = some slot := by
  obtain ⟨hwrites, hslot⟩ := Node.target?_eq_some.1 htarget
  unfold member? at hmember
  rw [number?, hmember, Option.bind_some]
  exact ⟨hwrites, hslot⟩

/-- What is held at a member is in the field that it is written to. -/
theorem held?_of_target? {n : Node} {name : String} {member : Member} {i : Nat} {slot : Slot}
    (hmember : m.member? n name = some member) (htarget : n.target? member = some (i, slot)) :
    m.held? (.object n.type n.fields) [name] = some (.slot slot) := by
  obtain ⟨hnumber, hslot⟩ := number?_of_target? hmember htarget
  rw [held?, spot?_object_of_number? hnumber hslot, spot?]

/-- The collections of an object that was made from nothing are those that objects of its
type have at first. -/
theorem Makes.begun?_eq {type : TypeName} {fields : Fields} (h : m.Makes type s fields s')
    {path : List String} {itemType : TypeName} {items : List Fields}
    (hbegun : m.begun? (.object type fields) path =
      some (.slot (.collection itemType items))) :
    m.begun? (.object type (m.catalogue type).initialFields) path =
      some (.slot (.collection itemType items)) := by
  rcases h.eq_or_exists_set with rfl | ⟨i, id, hslot, rfl⟩
  · exact hbegun
  · cases path with
    | nil => simp [begun?, spot?] at hbegun
    | cons key rest =>
      unfold begun? at hbegun ⊢
      by_cases hkey : m.number? Member.writes type key = some i
      · -- the identity is a leaf, so there is no collection behind it
        obtain ⟨hi, -⟩ := List.getElem?_eq_some_iff.1 hslot
        rw [spot?_object_of_number? hkey (List.getElem?_set_self hi)] at hbegun
        cases rest <;> simp [spot?] at hbegun
      · rwa [spot?_set_of_number?_ne _ hkey] at hbegun

/-! ## What is left alone -/

/-- A change spares a path: what it leads to is still there, and a collection that it leads
to was there from the beginning. -/
structure Spares (m : Merger) (path : List String) (old new : Slot) : Prop where
  held : ∀ spot, m.held? old path = some spot → m.held? new path = some spot
  begun : ∀ type items, m.begun? new path = some (.slot (.collection type items)) →
    m.begun? old path = some (.slot (.collection type items))

namespace Spares

variable {path rest : List String} {a b c : Slot} {type : TypeName} {fields made : Fields}

theorem refl (m : Merger) (path : List String) (a : Slot) : m.Spares path a a :=
  ⟨fun _ h => h, fun _ _ h => h⟩

theorem trans (h : m.Spares path a b) (h' : m.Spares path b c) : m.Spares path a c :=
  ⟨fun _ hspot => h'.held _ (h.held _ hspot), fun _ _ hitems => h.begun _ _ (h'.begun _ _ hitems)⟩

/-- What leads to the same things from both is spared. -/
theorem of_spot?_eq (h : ∀ missing,
    m.spot? Member.writes missing b path = m.spot? Member.writes missing a path) :
    m.Spares path a b :=
  ⟨fun _ hspot => (h _).trans hspot, fun _ _ hitems => (h _).symm.trans hitems⟩

/-- A field that changes spares the paths that it spares further on. -/
theorem set {name : String} {i : Nat} {old new : Slot}
    (hnumber : m.number? Member.writes type name = some i) (hslot : fields[i]? = some old)
    (h : m.Spares rest old new) :
    m.Spares (name :: rest) (.object type fields) (.object type (fields.set i new)) := by
  obtain ⟨hi, -⟩ := List.getElem?_eq_some_iff.1 hslot
  have hset : (fields.set i new)[i]? = some new := List.getElem?_set_self hi
  constructor
  · intro spot hspot
    rw [held?, spot?_object_of_number? hnumber hslot] at hspot
    rw [held?, spot?_object_of_number? hnumber hset]
    exact h.held spot hspot
  · intro itemType items hitems
    rw [begun?, spot?_object_of_number? hnumber hset] at hitems
    rw [begun?, spot?_object_of_number? hnumber hslot]
    exact h.begun itemType items hitems

theorem set_of_ne {name : String} {i : Nat} {new : Slot}
    (hnumber : m.number? Member.writes type name ≠ some i) :
    m.Spares (name :: rest) (.object type fields) (.object type (fields.set i new)) :=
  .of_spot?_eq fun _ => spot?_set_of_number?_ne new hnumber

/-- What is spared of an object is spared of what was found, since it is made from nothing
when nothing was found. -/
private theorem of_ensures {present : Option Fields}
    (hensures : m.Ensures type s present fields s')
    (h : m.Spares path (.object type fields) (.object type made)) :
    (∀ spot, (present.or none).bind (fun f => m.held? (.object type f) path) = some spot →
      m.held? (.object type made) path = some spot) ∧
    ∀ itemType items,
      m.begun? (.object type made) path = some (.slot (.collection itemType items)) →
      (present.or (some (m.catalogue type).initialFields)).bind
          (fun f => m.begun? (.object type f) path) =
        some (.slot (.collection itemType items)) := by
  cases hensures with
  | found => exact ⟨h.held, h.begun⟩
  | made hmade =>
    refine ⟨?_, fun itemType items hitems => hmade.begun?_eq (h.begun itemType items hitems)⟩
    rintro spot ⟨⟩

/-- Within an optional object the same paths are spared as within an object. -/
theorem optional {present : Option Fields} {key : String}
    (hensures : m.Ensures type s present fields s')
    (h : m.Spares (key :: rest) (.object type fields) (.object type made)) :
    m.Spares (key :: rest) (.optional type present) (.optional type (some made)) := by
  obtain ⟨hheld, hbegun⟩ := of_ensures hensures h
  constructor
  · intro spot hspot
    rw [held?, spot?_optional_cons] at hspot ⊢
    exact hheld spot hspot
  · intro itemType items hitems
    rw [begun?, spot?_optional_cons] at hitems ⊢
    exact hbegun itemType items hitems

/-- An entry that changes spares the paths that it spares further on. -/
theorem insert {entries : List (String × Fields)} {key : String}
    (hensures : m.Ensures type s (Dictionary.find? key entries) fields s')
    (h : m.Spares rest (.object type fields) (.object type made)) :
    m.Spares (key :: rest) (.dictionary type entries)
      (.dictionary type (Dictionary.insert key made entries)) := by
  obtain ⟨hheld, hbegun⟩ := of_ensures hensures h
  constructor
  · intro spot hspot
    rw [held?, spot?_dictionary_cons] at hspot ⊢
    rw [Dictionary.find?_insert_self]
    exact hheld spot hspot
  · intro itemType items hitems
    rw [begun?, spot?_dictionary_cons] at hitems ⊢
    rw [Dictionary.find?_insert_self] at hitems
    exact hbegun itemType items hitems

theorem insert_of_ne {entries : List (String × Fields)} {key other : String}
    (hne : other ≠ key) :
    m.Spares (other :: rest) (.dictionary type entries)
      (.dictionary type (Dictionary.insert key made entries)) := by
  refine .of_spot?_eq fun missing => ?_
  rw [spot?_dictionary_cons, spot?_dictionary_cons, Dictionary.find?_insert_of_ne hne]

theorem insert_leaf_of_ne {leafType : LeafType} {entries : List (String × Cell)} {cell : Cell}
    {key other : String} (hne : other ≠ key) :
    m.Spares (other :: rest) (.leafDictionary leafType entries)
      (.leafDictionary leafType (Dictionary.insert key cell entries)) := by
  refine .of_spot?_eq fun missing => ?_
  rw [spot?_leafDictionary_cons, spot?_leafDictionary_cons, Dictionary.find?_insert_of_ne hne]

end Spares

end Merger

end SelectiveMerge
