import SelectiveMerge.Declaration.Derivation

/-!
# Which kind of member a declared type makes

The kind of member of a field can be read off its type without taking the type apart all
the way: what counts is the last name of the path that it is, the number of arguments
there, and, for a nested field, whether the last argument is a path that may name an
object.

* `TypeExpr.IsObject`, `TypeExpr.Applies`, `TypeExpr.IsTextMap` — forms of types
* `NestedShape` — the forms that a nested field may have
* `FieldDeclaration.HasKind` — the kind of member of a field, from the form of its type
* `FieldDeclaration.memberKind_eq_ok` — the derivation finds just that kind
-/

namespace SelectiveMerge.Declaration

/-! ## Forms of types -/

namespace TypeExpr

/-- A path that may name an object: its last name is that of no container, and of none of
the types that are never objects. -/
def IsObject (t : TypeExpr) : Prop :=
  ∃ name, t.name? = some name ∧ name ∉ ["Option", "Vec"] ∧ name ∉ mapNames ∧ name ∉ plainNames

/-- A path whose last name has these types as its arguments, and nothing else. -/
def Applies (t : TypeExpr) (name : String) (types : List TypeExpr) : Prop :=
  ∃ start segments afterColons trailingComma,
    t = .path start (segments ++ [.mk name (.angled afterColons (types.map .type) trailingComma)])

/-- A map from texts to values of a type. -/
def IsTextMap (t value : TypeExpr) : Prop :=
  ∃ name ∈ mapNames, ∃ key, t.Applies name [key, value] ∧ key.name? = some "String"

/-- The last name of a path is that of its last segment. -/
theorem name?_path_concat {start : String} {segments : List PathSegment} {name : String}
    {arguments : Arguments} :
    (TypeExpr.path start (segments ++ [.mk name arguments])).name? = some name := by
  simp [name?, PathSegment.name]

theorem Applies.name?_eq {t : TypeExpr} {name : String} {types : List TypeExpr}
    (h : t.Applies name types) : t.name? = some name := by
  obtain ⟨start, segments, afterColons, trailingComma, rfl⟩ := h
  exact name?_path_concat

/-- Arguments are smaller than the type that has them. -/
theorem Applies.sizeOf_lt {t inner : TypeExpr} {name : String} {types : List TypeExpr}
    (h : t.Applies name types) (hinner : inner ∈ types) : sizeOf inner < sizeOf t := by
  obtain ⟨start, segments, afterColons, trailingComma, rfl⟩ := h
  have hargument := List.sizeOf_lt_of_mem (List.mem_map_of_mem (f := Argument.type) hinner)
  have hsegment := List.sizeOf_lt_of_mem (List.mem_append_right segments (List.mem_singleton_self
    (PathSegment.mk name (.angled afterColons (types.map .type) trailingComma))))
  simp only [Argument.type.sizeOf_spec, PathSegment.mk.sizeOf_spec, Arguments.angled.sizeOf_spec,
    TypeExpr.path.sizeOf_spec] at hargument hsegment ⊢
  omega

/-- A type without a name is not taken for a text. -/
theorem name_eq_string {t : TypeExpr} : t.name = "String" ↔ t.name? = some "String" := by
  unfold name
  cases t.name? with
  | none => simp
  | some name => simp

end TypeExpr

/-! ## Compositions -/

namespace Composition

variable {nested : Bool}

theorem ofSegments_concat (segments : List PathSegment) (s : PathSegment) :
    ofSegments nested (segments ++ [s]) = ofSegment nested s := by
  induction segments with
  | nil => rw [List.nil_append, ofSegments]
  | cons first rest ih =>
    cases rest with
    | nil =>
      rw [List.cons_append, List.nil_append, ofSegments]
      rw [ofSegments]
    | cons second rest =>
      rw [List.cons_append, List.cons_append, ofSegments]
      exact ih

/-- The composition of a path is that of its last segment. -/
theorem ofType_path_concat (nested : Bool) (start : String) (segments : List PathSegment)
    (s : PathSegment) :
    ofType nested (.path start (segments ++ [s])) = ofSegment nested s := by
  rw [ofType]
  exact ofSegments_concat segments s

/-- The composition of a name with types as its arguments is that of the arguments. -/
theorem ofType_of_applies {t : TypeExpr} {name : String} {types : List TypeExpr}
    (h : t.Applies name types) :
    ofType nested t = ofArguments nested name (types.map .type) := by
  obtain ⟨start, segments, afterColons, trailingComma, rfl⟩ := h
  rw [ofType_path_concat, ofSegment]

/-- What arguments make of a name: one or two types may compose it, and all else leaves
the name alone. -/
theorem ofArguments_cases (nested : Bool) (name : String) (arguments : List Argument) :
    (∃ inner, arguments = [inner].map .type ∧
      ofArguments nested name arguments = ofOne nested name (ofType nested inner)) ∨
    (∃ key value, arguments = [key, value].map .type ∧
      ofArguments nested name arguments = ofTwo nested name key.name (ofType nested value)) ∨
    ofArguments nested name arguments = ofName nested name := by
  fun_cases ofArguments nested name arguments with
  | case1 inner => exact .inl ⟨inner, rfl, rfl⟩
  | case2 key value => exact .inr (.inl ⟨key, value, rfl, rfl⟩)
  | case3 => exact .inr (.inr rfl)

/-- A name alone is an object if it may name one and the field is nested. -/
theorem ofName_eq (name : String) :
    ofName nested name =
      if nested = true ∧ name ∉ ["Option", "Vec"] ∧ name ∉ mapNames ∧ name ∉ plainNames then .object
      else .plain := by
  unfold ofName
  simp only [List.contains_iff_mem]
  grind

/-! ### The composition of each form -/

theorem ofType_option {t inner : TypeExpr} (h : t.Applies "Option" [inner]) :
    ofType nested t = .option (ofType nested inner) := by
  rw [ofType_of_applies h, List.map_singleton, ofArguments, ofOne, if_pos rfl]

theorem ofType_list {t inner : TypeExpr} (h : t.Applies "Vec" [inner]) :
    ofType nested t = .list (ofType nested inner) := by
  rw [ofType_of_applies h, List.map_singleton, ofArguments, ofOne, if_neg (by decide), if_pos rfl]

theorem ofType_map {t key value : TypeExpr} {name : String} (hname : name ∈ mapNames)
    (h : t.Applies name [key, value]) :
    ofType nested t = .map (key.name == "String") (ofType nested value) := by
  rw [ofType_of_applies h, List.map_cons, List.map_singleton, ofArguments, ofTwo,
    if_pos (List.contains_iff_mem.2 hname)]

/-- The forms of types that count: a container with its arguments, a name alone, or no
name. -/
inductive Form (nested : Bool) (t : TypeExpr) : Prop where
  | option (inner : TypeExpr) (ht : t.Applies "Option" [inner])
  | list (inner : TypeExpr) (ht : t.Applies "Vec" [inner])
  | map (name : String) (hname : name ∈ mapNames) (key value : TypeExpr)
      (ht : t.Applies name [key, value])
  | named (name : String) (hname : t.name? = some name) (heq : ofType nested t = ofName nested name)
  | nameless (hname : t.name? = none) (heq : ofType nested t = .plain)

/-- Every type has one of these forms. -/
theorem form (nested : Bool) (t : TypeExpr) : Form nested t := by
  cases t with
  | bound | other => exact .nameless rfl (by rw [ofType])
  | path start segments =>
    rcases List.eq_nil_or_concat segments with rfl | ⟨initial, ⟨name, arguments⟩, hsegments⟩
    · exact .nameless rfl (by rw [ofType, ofSegments])
    rw [List.concat_eq_append] at hsegments
    subst hsegments
    have hcomposed := ofType_path_concat nested start initial (.mk name arguments)
    cases arguments with
    | none => exact .named name TypeExpr.name?_path_concat (by rw [hcomposed, ofSegment])
    | angled afterColons arguments trailingComma =>
      rw [ofSegment] at hcomposed
      rcases ofArguments_cases nested name arguments with
        ⟨inner, rfl, heq⟩ | ⟨key, value, rfl, heq⟩ | heq
      · rw [heq, ofOne] at hcomposed
        split at hcomposed
        · rename_i hoption
          exact .option inner ⟨start, initial, afterColons, trailingComma, by rw [hoption]⟩
        split at hcomposed
        · rename_i hvec
          exact .list inner ⟨start, initial, afterColons, trailingComma, by rw [hvec]⟩
        · exact .named name TypeExpr.name?_path_concat hcomposed
      · rw [heq, ofTwo] at hcomposed
        split at hcomposed
        · rename_i hmap
          exact .map name (List.contains_iff_mem.1 hmap) key value
            ⟨start, initial, afterColons, trailingComma, rfl⟩
        · exact .named name TypeExpr.name?_path_concat hcomposed
      · exact .named name TypeExpr.name?_path_concat (hcomposed.trans heq)

theorem eq_object {c : Composition} (h : c.isObject = true) : c = .object := by
  cases c with
  | object => rfl
  | plain | option | list | map => cases h

/-- The composition is that of an object just for a nested field whose type may name
one. -/
theorem isObject_ofType {t : TypeExpr} :
    (ofType nested t).isObject = true ↔ nested = true ∧ t.IsObject := by
  cases form nested t with
  | option inner ht => simp [ofType_option ht, isObject, TypeExpr.IsObject, ht.name?_eq]
  | list inner ht => simp [ofType_list ht, isObject, TypeExpr.IsObject, ht.name?_eq]
  | map name hname key value ht =>
    simp [ofType_map hname ht, isObject, TypeExpr.IsObject, ht.name?_eq, hname]
  | named name hname heq =>
    rw [heq, ofName_eq]
    split
    · rename_i hobject
      exact iff_of_true rfl ⟨hobject.1, name, hname, hobject.2⟩
    · rename_i hobject
      refine iff_of_false (by simp [isObject]) ?_
      rintro ⟨hnested, name', hname', hobject'⟩
      obtain rfl := Option.some_inj.1 (hname.symm.trans hname')
      exact hobject ⟨hnested, hobject'⟩
  | nameless hname heq => simp [heq, isObject, TypeExpr.IsObject, hname]

/-- There is no object anywhere in the type of a field that is not nested. -/
theorem containsObject_ofType (t : TypeExpr) : (ofType false t).containsObject = false := by
  cases form false t with
  | option inner ht =>
    rw [ofType_option ht]
    exact containsObject_ofType inner
  | list inner ht =>
    rw [ofType_list ht]
    exact containsObject_ofType inner
  | map name hname key value ht =>
    rw [ofType_map hname ht]
    exact containsObject_ofType value
  | named name hname heq => rw [heq, ofName_eq, if_neg (by simp), containsObject]
  | nameless hname heq => rw [heq, containsObject]
termination_by sizeOf t
decreasing_by all_goals exact ht.sizeOf_lt (by simp)

end Composition

/-! ## Kinds of members -/

/-- The forms that the type of a nested field may have, and the kinds of members that
they make: an object, or one option, list or text-keyed map of objects. -/
inductive NestedShape : TypeExpr → MemberKind → Prop where
  | object {t : TypeExpr} (ht : t.IsObject) : NestedShape t .object
  | optional {t inner : TypeExpr} (ht : t.Applies "Option" [inner]) (hinner : inner.IsObject) :
      NestedShape t .optionalObject
  | collection {t inner : TypeExpr} (ht : t.Applies "Vec" [inner]) (hinner : inner.IsObject) :
      NestedShape t .collection
  | dictionary {t value : TypeExpr} (ht : t.IsTextMap value) (hvalue : value.IsObject) :
      NestedShape t .dictionary

namespace Composition

/-- A map from texts is composed as one. -/
theorem ofType_textMap {nested : Bool} {t value : TypeExpr} (h : t.IsTextMap value) :
    ofType nested t = .map true (ofType nested value) := by
  obtain ⟨name, hname, key, ht, hkey⟩ := h
  rw [ofType_map hname ht, TypeExpr.name_eq_string.2 hkey, beq_self_eq_true]

/-- A nested field has a kind of member just in these forms. -/
theorem nestedKind_eq_ok {t : TypeExpr} {kind : MemberKind} :
    (ofType true t).nestedKind = .ok kind ↔ NestedShape t kind := by
  constructor
  · intro h
    cases form true t with
    | option inner ht =>
      rw [ofType_option ht, nestedKind] at h
      split at h
      · rename_i hinner
        cases h
        exact .optional ht (isObject_ofType.1 hinner).2
      · cases h
    | list inner ht =>
      rw [ofType_list ht, nestedKind] at h
      split at h
      · rename_i hinner
        cases h
        exact .collection ht (isObject_ofType.1 hinner).2
      · cases h
    | map name hname key value ht =>
      rw [ofType_map hname ht] at h
      cases hkey : key.name == "String" with
      | false => simp [hkey, nestedKind] at h
      | true =>
        rw [hkey, nestedKind] at h
        split at h
        · rename_i hvalue
          cases h
          exact .dictionary ⟨name, hname, key, ht, TypeExpr.name_eq_string.1 (eq_of_beq hkey)⟩
            (isObject_ofType.1 hvalue).2
        · cases h
    | named name hname heq =>
      rw [heq, ofName_eq] at h
      split at h
      · rename_i hobject
        cases h
        exact .object ⟨name, hname, hobject.2⟩
      · cases h
    | nameless hname heq =>
      rw [heq] at h
      cases h
  · intro h
    cases h with
    | object ht =>
      rw [eq_object (isObject_ofType.2 ⟨rfl, ht⟩), nestedKind]
    | optional ht hinner =>
      rw [ofType_option ht, nestedKind, if_pos (isObject_ofType.2 ⟨rfl, hinner⟩)]
    | collection ht hinner =>
      rw [ofType_list ht, nestedKind, if_pos (isObject_ofType.2 ⟨rfl, hinner⟩)]
    | dictionary ht hvalue =>
      rw [ofType_textMap ht, nestedKind, if_pos (isObject_ofType.2 ⟨rfl, hvalue⟩)]

/-- A field that is not nested is a dictionary of leaves if its type is a map from
texts. -/
theorem leafKind_textMap {t value : TypeExpr} (h : t.IsTextMap value) :
    (ofType false t).leafKind = .leafDictionary := by
  rw [ofType_textMap h, leafKind, if_neg (by simp [containsObject_ofType])]

/-- All other fields that are not nested are leaves. -/
theorem leafKind_of_not_textMap {t : TypeExpr} (h : ∀ value, ¬ t.IsTextMap value) :
    (ofType false t).leafKind = .leaf := by
  cases form false t with
  | option inner ht => rw [ofType_option ht]; rfl
  | list inner ht => rw [ofType_list ht]; rfl
  | map name hname key value ht =>
    have hkey : key.name ≠ "String" := fun hkey =>
      h value ⟨name, hname, key, ht, TypeExpr.name_eq_string.1 hkey⟩
    rw [ofType_map hname ht, beq_false_of_ne hkey]
    rfl
  | named name hname heq => rw [heq, ofName_eq, if_neg (by simp)]; rfl
  | nameless hname heq => rw [heq]; rfl

end Composition

/-! ## Fields -/

/-- The kind of member that a field makes, from the form of its type. -/
inductive FieldDeclaration.HasKind (f : FieldDeclaration) : MemberKind → Prop where
  | nested {kind : MemberKind} (hnested : f.nested = true) (hshape : NestedShape f.type kind) :
      f.HasKind kind
  | leafDictionary {value : TypeExpr} (hnested : f.nested = false)
      (htype : f.type.IsTextMap value) : f.HasKind .leafDictionary
  | leaf (hnested : f.nested = false) (htype : ∀ value, ¬ f.type.IsTextMap value) :
      f.HasKind .leaf

/-- The derivation finds just that kind. -/
theorem FieldDeclaration.memberKind_eq_ok {f : FieldDeclaration} {kind : MemberKind} :
    f.memberKind = .ok kind ↔ f.HasKind kind := by
  unfold memberKind Composition.memberKind
  cases hnested : f.nested with
  | true =>
    rw [if_pos rfl, Composition.nestedKind_eq_ok]
    constructor
    · exact .nested hnested
    · intro h
      cases h with
      | nested _ hshape => exact hshape
      | leafDictionary hnot | leaf hnot => simp [hnested] at hnot
  | false =>
    rw [if_neg (by simp)]
    by_cases htype : ∃ value, f.type.IsTextMap value
    · obtain ⟨value, htype⟩ := htype
      rw [Composition.leafKind_textMap htype]
      constructor
      · intro h
        cases h
        exact .leafDictionary hnested htype
      · intro h
        cases h with
        | nested hyes => simp [hnested] at hyes
        | leafDictionary => rfl
        | leaf _ hnone => exact absurd htype (hnone value)
    · rw [Composition.leafKind_of_not_textMap (not_exists.1 htype)]
      constructor
      · intro h
        cases h
        exact .leaf hnested (not_exists.1 htype)
      · intro h
        cases h with
        | nested hyes => simp [hnested] at hyes
        | leafDictionary _ hmap => exact absurd ⟨_, hmap⟩ htype
        | leaf => rfl

end SelectiveMerge.Declaration
