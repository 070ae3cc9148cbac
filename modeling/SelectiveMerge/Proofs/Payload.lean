import Mathlib.Data.List.Perm.Basic
import SelectiveMerge.Merge.Directive

/-!
# The directives of a payload

Which directives a payload has, and how to reason about all of them. The directives are
the values of the payload that are no objects, each with the keys that lead to it. The
elements of an array have directives of their own, so directives are trees.

* `Leads` — keys lead from a value to one that is no object
* `mem_ofMembers_iff` — a payload has a directive for each value that keys lead to
* `elements_eq_map` — the elements of an array, one by one
* `forall_of_elements` — induction on lists of directives and their elements
-/

namespace SelectiveMerge

theorem Json.exists_of_isObject {value : Json} (h : value.isObject = true) :
    ∃ members, value = .object members := by
  cases value with
  | object members => exact ⟨members, rfl⟩
  | _ => cases h

/-- The keys lead from a value to a value that is no object, through objects, and none of
them is the removal marker. -/
inductive Leads (options : Options) : Json → List String → Json → Prop where
  | here {value : Json} (hvalue : value.isObject = false) : Leads options value [] value
  | member {members : List (String × Json)} {key : String} {value leaf : Json}
      {path : List String} (hmember : (key, value) ∈ members)
      (hmarker : options.isRemoveMarker key = false) (hrest : Leads options value path leaf) :
      Leads options (.object members) (key :: path) leaf

variable {options : Options}

/-- What keys lead to is no object. -/
theorem Leads.isObject_eq_false {value leaf : Json} {path : List String}
    (h : Leads options value path leaf) : leaf.isObject = false := by
  induction h with
  | here hvalue => exact hvalue
  | member _ _ _ ih => exact ih

theorem leads_nil_iff {value leaf : Json} :
    Leads options value [] leaf ↔ value.isObject = false ∧ value = leaf := by
  constructor
  · rintro ⟨hvalue⟩
    exact ⟨hvalue, rfl⟩
  · rintro ⟨hvalue, rfl⟩
    exact .here hvalue

theorem leads_cons_iff {value leaf : Json} {key : String} {path : List String} :
    Leads options value (key :: path) leaf ↔ ∃ members inner, value = .object members ∧
      (key, inner) ∈ members ∧ options.isRemoveMarker key = false ∧
      Leads options inner path leaf := by
  constructor
  · rintro (_ | ⟨hmember, hmarker, hrest⟩)
    exact ⟨_, _, rfl, hmember, hmarker, hrest⟩
  · rintro ⟨members, inner, rfl, hmember, hmarker, hrest⟩
    exact .member hmember hmarker hrest

namespace Directive

/-- The directive for a value that keys lead to. -/
def ofValue (options : Options) (path : List String) : Json → Directive
  | .array items => .array path (elements options items)
  | value => .scalar path value

/-- The directives of an item of an array. -/
def ofItem (options : Options) : Json → List Directive
  | .object members => ofMembers options members
  | _ => []

/-- An item that is no object has no directives. -/
theorem ofItem_of_not_isObject {item : Json} (h : item.isObject = false) :
    ofItem options item = [] := by
  cases item with
  | object => cases h
  | _ => rfl

@[simp] theorem path_ofValue (path : List String) (value : Json) :
    (ofValue options path value).path = path := by
  cases value <;> rfl

/-- The elements of an array are its items, each with its directives. -/
theorem elements_eq_map (items : List Json) :
    elements options items = items.map fun item => .mk item (ofItem options item) := by
  induction items with
  | nil => rfl
  | cons item items ih =>
    cases item <;> simp only [elements, List.map_cons, ih] <;> rfl

@[simp] theorem map_value_elements (items : List Json) :
    (elements options items).map Element.value = items := by
  rw [elements_eq_map, List.map_map]
  exact List.map_id' items

@[simp] theorem node_ofValue (path : List String) (value : Json) :
    (ofValue options path value).node = value := by
  cases value with
  | array items => exact congrArg Json.array (map_value_elements items)
  | _ => rfl

/-- Levels that are joined hold what both lists of levels held. -/
theorem perm_flatten_joinLevels {α : Type} (xs ys : List (List α)) :
    (joinLevels xs ys).flatten.Perm (xs.flatten ++ ys.flatten) := by
  induction xs generalizing ys with
  | nil => simp [joinLevels]
  | cons x xs ih =>
    cases ys with
    | nil => simp [joinLevels]
    | cons y ys =>
      rw [joinLevels, List.flatten_cons, List.flatten_cons, List.flatten_cons]
      calc (x ++ y) ++ (joinLevels xs ys).flatten
          _ = x ++ (y ++ (joinLevels xs ys).flatten) := List.append_assoc ..
          List.Perm _ (x ++ (y ++ (xs.flatten ++ ys.flatten))) := ((ih ys).append_left y).append_left x
          List.Perm _ (x ++ (xs.flatten ++ (y ++ ys.flatten))) :=
            (List.perm_append_comm_assoc y xs.flatten ys.flatten).append_left x
          _ = (x ++ xs.flatten) ++ (y ++ ys.flatten) := (List.append_assoc ..).symm

theorem mem_flatten_joinLevels {α : Type} {a : α} (xs ys : List (List α)) :
    a ∈ (joinLevels xs ys).flatten ↔ a ∈ xs.flatten ∨ a ∈ ys.flatten := by
  rw [(perm_flatten_joinLevels xs ys).mem_iff, List.mem_append]

mutual

theorem mem_levels_iff {d : Directive} (path : List String) : (value : Json) →
    (d ∈ (levels options path value).flatten ↔
      ∃ rest leaf, Leads options value rest leaf ∧ d = ofValue options (path ++ rest) leaf)
  | .object members => by
    rw [levels, List.flatten_cons, List.nil_append, mem_memberLevels_iff path members]
    constructor
    · rintro ⟨key, value, rest, leaf, hmember, hmarker, hrest, rfl⟩
      exact ⟨key :: rest, leaf, .member hmember hmarker hrest, rfl⟩
    · rintro ⟨rest, leaf, hleads, rfl⟩
      cases hleads with
      | here hvalue => cases hvalue
      | member hmember hmarker hrest => exact ⟨_, _, _, leaf, hmember, hmarker, hrest, rfl⟩
  | .array items | .null | .bool _ | .number _ | .string _ => by
    simp only [levels, List.flatten_cons, List.flatten_nil, List.append_nil, List.mem_singleton]
    constructor
    · rintro rfl
      exact ⟨[], _, .here rfl, by rw [List.append_nil]; rfl⟩
    · rintro ⟨rest, leaf, hleads, rfl⟩
      cases hleads with
      | here => rw [List.append_nil]; rfl

theorem mem_memberLevels_iff {d : Directive} (path : List String) :
    (members : List (String × Json)) →
    (d ∈ (memberLevels options path members).flatten ↔
      ∃ key value rest leaf, (key, value) ∈ members ∧ options.isRemoveMarker key = false ∧
        Leads options value rest leaf ∧ d = ofValue options (path ++ key :: rest) leaf)
  | [] => by simp [memberLevels]
  | (key, value) :: members => by
    have htail := mem_memberLevels_iff (d := d) path members
    rw [memberLevels]
    split
    · rename_i hmarker
      rw [htail]
      constructor
      · rintro ⟨key', value', rest, leaf, hmember, h⟩
        exact ⟨key', value', rest, leaf, List.mem_cons_of_mem _ hmember, h⟩
      · rintro ⟨key', value', rest, leaf, hmember, hmarker', h⟩
        rcases List.mem_cons.1 hmember with heq | hmember
        · obtain ⟨rfl, rfl⟩ := Prod.ext_iff.1 heq
          rw [hmarker] at hmarker'
          cases hmarker'
        · exact ⟨key', value', rest, leaf, hmember, hmarker', h⟩
    · rename_i hmarker
      have hmarker : options.isRemoveMarker key = false := by simpa using hmarker
      rw [mem_flatten_joinLevels, mem_levels_iff (path ++ [key]) value, htail]
      constructor
      · rintro (⟨rest, leaf, hleads, rfl⟩ | ⟨key', value', rest, leaf, hmember, h⟩)
        · exact ⟨key, value, rest, leaf, List.mem_cons_self .., hmarker, hleads, by simp⟩
        · exact ⟨key', value', rest, leaf, List.mem_cons_of_mem _ hmember, h⟩
      · rintro ⟨key', value', rest, leaf, hmember, hmarker', hleads, rfl⟩
        rcases List.mem_cons.1 hmember with heq | hmember
        · obtain ⟨rfl, rfl⟩ := Prod.ext_iff.1 heq
          exact .inl ⟨rest, leaf, hleads, by simp⟩
        · exact .inr ⟨key', value', rest, leaf, hmember, hmarker', hleads, rfl⟩

end

/-- A payload has a directive for each value that is no object, with the keys that lead to
it. -/
theorem mem_ofMembers_iff {d : Directive} {members : List (String × Json)} :
    d ∈ ofMembers options members ↔
      ∃ path leaf, Leads options (.object members) path leaf ∧ d = ofValue options path leaf := by
  have hlevels : ofMembers options members = (levels options [] (.object members)).flatten := by
    rw [levels, List.flatten_cons, List.nil_append]
    rfl
  rw [hlevels]
  exact mem_levels_iff [] (.object members)

/-- The elements of a directive, if it is an array. -/
def arrayElements : Directive → List Element
  | .scalar _ _ => []
  | .array _ elements => elements

/-! ## Induction -/

variable {motive : List Directive → Prop}

mutual

private theorem forall_elements
    (nil : motive [])
    (cons : ∀ d ds, (∀ e ∈ d.arrayElements, motive e.directives) → motive ds → motive (d :: ds)) :
    (d : Directive) → ∀ e ∈ d.arrayElements, motive e.directives
  | .scalar _ _ => by simp [arrayElements]
  | .array _ elements => forall_directives nil cons elements

private theorem forall_directives
    (nil : motive [])
    (cons : ∀ d ds, (∀ e ∈ d.arrayElements, motive e.directives) → motive ds → motive (d :: ds)) :
    (elements : List Element) → ∀ e ∈ elements, motive e.directives
  | [] => by simp
  | .mk _ directives :: elements => by
      intro e he
      rcases List.mem_cons.1 he with rfl | he
      · exact forall_list nil cons directives
      · exact forall_directives nil cons elements e he

private theorem forall_list
    (nil : motive [])
    (cons : ∀ d ds, (∀ e ∈ d.arrayElements, motive e.directives) → motive ds → motive (d :: ds)) :
    (ds : List Directive) → motive ds
  | [] => nil
  | d :: ds => cons d ds (forall_elements nil cons d) (forall_list nil cons ds)

end

/-- Induction on lists of directives: the head of a list may be used through the
directives of its elements, and the tail as a list. -/
@[elab_as_elim]
theorem forall_of_elements (directives : List Directive) (nil : motive [])
    (cons : ∀ d ds, (∀ e ∈ d.arrayElements, motive e.directives) → motive ds → motive (d :: ds)) :
    motive directives :=
  forall_list nil cons directives

end Directive

end SelectiveMerge
