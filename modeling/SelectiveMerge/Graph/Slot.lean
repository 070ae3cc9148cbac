import SelectiveMerge.Leaf.Coercion

/-!
# Object graphs

An object is a node: a type and the contents of its fields, each a slot. A slot
holds a leaf, an object, an optional object, a collection of objects, a
dictionary of objects or a dictionary of leaves. All items of a collection and
all entries of a dictionary have the one type that the slot names, so they are
stored as bare field lists. The module also has the operations on dictionaries,
whose entries stand in the order of their keys, and on collections.
-/

namespace SelectiveMerge

/-- The name under which a catalogue lists a type. -/
abbrev TypeName := String

/-- The content of one field of an object. -/
inductive Slot where
  | leaf (type : LeafType) (value : Cell)
  | object (type : TypeName) (fields : List Slot)
  | optional (type : TypeName) (fields : Option (List Slot))
  | collection (type : TypeName) (items : List (List Slot))
  | dictionary (type : TypeName) (entries : List (String × List Slot))
  | leafDictionary (type : LeafType) (entries : List (String × Cell))
  deriving Inhabited

/-- The contents of the fields of an object, in the order of their declaration. -/
abbrev Fields := List Slot

/-- An object: its type and the contents of its fields. -/
structure Node where
  type : TypeName
  fields : Fields
  deriving Inhabited

namespace Dictionary

variable {α : Type}

/-- The value at a key. -/
def find? (key : String) (entries : List (String × α)) : Option α :=
  (List.find? (fun entry => entry.1 == key) entries).map (·.2)

/-- Puts a value at a key that is there, instead of the value that it has. -/
def replace (key : String) (value : α) : List (String × α) → List (String × α)
  | [] => []
  | (k, v) :: rest => if k = key then (key, value) :: rest else (k, v) :: replace key value rest

/-- Puts a value at a new key, in its place among the sorted keys. -/
def place (key : String) (value : α) : List (String × α) → List (String × α)
  | [] => [(key, value)]
  | (k, v) :: rest =>
      if key < k then (key, value) :: (k, v) :: rest else (k, v) :: place key value rest

/-- Puts a value at a key, whether it is there or new. -/
def insert (key : String) (value : α) (entries : List (String × α)) : List (String × α) :=
  if (find? key entries).isSome then replace key value entries else place key value entries

/-- Whether the keys are in strictly ascending order, so that no key is repeated. -/
def Sorted (entries : List (String × α)) : Prop := entries.Pairwise fun a b => a.1 < b.1

@[simp] theorem find?_nil (key : String) : find? key ([] : List (String × α)) = none := rfl

theorem find?_cons (key k : String) (v : α) (rest : List (String × α)) :
    find? key ((k, v) :: rest) = if k = key then some v else find? key rest := by
  unfold find?
  rw [List.find?_cons]
  by_cases h : k = key
  · simp [h]
  · have hne : (k == key) = false := by simpa using h
    simp [h, hne]

theorem find?_replace {key other : String} (value : α) {entries : List (String × α)}
    (h : (find? key entries).isSome) :
    find? other (replace key value entries) =
      if key = other then some value else find? other entries := by
  induction entries with
  | nil => cases h
  | cons entry rest ih =>
    obtain ⟨k, v⟩ := entry
    rw [replace]
    by_cases hk : k = key
    · subst hk
      rw [if_pos rfl, find?_cons, find?_cons]
      split <;> rfl
    · rw [find?_cons, if_neg hk] at h
      rw [if_neg hk, find?_cons, find?_cons, ih h]
      by_cases ho : key = other
      · subst ho
        simp [hk]
      · simp [ho]

theorem find?_place {key other : String} (value : α) (entries : List (String × α))
    (h : find? key entries = none) :
    find? other (place key value entries) =
      if key = other then some value else find? other entries := by
  induction entries with
  | nil => rw [place, find?_cons]
  | cons entry rest ih =>
    obtain ⟨k, v⟩ := entry
    rw [find?_cons] at h
    have hk : k ≠ key := by
      rintro rfl
      simp at h
    rw [if_neg hk] at h
    rw [place]
    split
    · rw [find?_cons]
    · rw [find?_cons, find?_cons, ih h]
      by_cases ho : key = other
      · subst ho
        simp [hk]
      · simp [ho]

/-- What was put at a key is found there, and the other keys are not affected. -/
theorem find?_insert (key other : String) (value : α) (entries : List (String × α)) :
    find? other (insert key value entries) =
      if key = other then some value else find? other entries := by
  unfold insert
  split
  · rename_i h
    exact find?_replace value h
  · rename_i h
    exact find?_place value entries (by simpa using h)

@[simp] theorem find?_insert_self (key : String) (value : α) (entries : List (String × α)) :
    find? key (insert key value entries) = some value := by
  rw [find?_insert, if_pos rfl]

theorem find?_insert_of_ne {key other : String} (h : other ≠ key) (value : α)
    (entries : List (String × α)) : find? other (insert key value entries) = find? other entries := by
  rw [find?_insert, if_neg h.symm]

/-- Putting back what is at a key changes nothing. -/
theorem insert_eq_self {key : String} {value : α} {entries : List (String × α)}
    (h : find? key entries = some value) : insert key value entries = entries := by
  rw [insert, if_pos (by rw [h]; rfl)]
  induction entries with
  | nil => cases h
  | cons entry rest ih =>
    obtain ⟨k, v⟩ := entry
    rw [find?_cons] at h
    rw [replace]
    by_cases hk : k = key
    · subst hk
      rw [if_pos rfl] at h
      obtain rfl := Option.some_inj.1 h
      rw [if_pos rfl]
    · rw [if_neg hk] at h
      rw [if_neg hk, ih h]

end Dictionary

/-- What a member shows to a reader: a leaf, an object that may be missing, a
collection or a dictionary. -/
inductive View where
  | leaf (type : LeafType) (value : Cell)
  | object (node : Option Node)
  | collection (type : TypeName) (items : List Fields)
  | dictionary (type : TypeName) (entries : List (String × Fields))
  | leafDictionary (type : LeafType) (entries : List (String × Cell))

namespace Slot

/-- What a slot shows to a reader. -/
def view : Slot → View
  | .leaf type value => .leaf type value
  | .object type fields => .object (some ⟨type, fields⟩)
  | .optional type fields => .object (fields.map (Node.mk type))
  | .collection type items => .collection type items
  | .dictionary type entries => .dictionary type entries
  | .leafDictionary type entries => .leafDictionary type entries

/-- The name of the shape of a slot in messages. -/
def shapeName : Slot → String
  | .leaf .. => "value"
  | .object .. | .optional .. => "object"
  | .collection .. => "collection"
  | .dictionary .. | .leafDictionary .. => "dictionary"

end Slot

/-- The name of the shape of a view in messages. -/
def View.shapeName : View → String
  | .leaf .. => "value"
  | .object .. => "object"
  | .collection .. => "collection"
  | .dictionary .. | .leafDictionary .. => "dictionary"

/-- A slot and what it shows have one shape. -/
theorem Slot.shapeName_view (s : Slot) : s.view.shapeName = s.shapeName := by
  cases s <;> rfl

end SelectiveMerge
