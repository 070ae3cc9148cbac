import Mathlib.Data.List.Nodup
import SelectiveMerge.Proofs.Lookup
import SelectiveMerge.Proofs.Payload

/-!
# Payloads that say one thing

The keys of an object in a payload are different, but two of them may still denote one
member, by an alias or in other case. Which member a key denotes depends on the type of
the object that the payload meets, so payloads are read along the declarations of types.

* `Merger.Unambiguous` — no two keys of an object denote one member
* `Directive.nodup_paths` — then the directives of a payload have different paths
-/

namespace SelectiveMerge

/-- What is declared for the items of a collection. -/
def Place.item : Place → Place
  | .items type => .owner type
  | .value | .owner _ | .entries _ => .value

namespace Merger

/-- What is declared behind a key. -/
def under (m : Merger) : Place → String → Place
  | .owner type, key =>
      ((m.number? Member.writes type key).map (m.catalogue.place type)).getD .value
  | .entries type, _ => .owner type
  | .value, _ | .items _, _ => .value

/-- What is declared behind a key of an object is what the field that it goes to holds. -/
theorem under_of_number? {m : Merger} {type : TypeName} {fields : Fields} {i : Nat} {slot : Slot}
    {key : String} (hconforms : Conforms m.catalogue (.object type fields))
    (hnumber : m.number? Member.writes type key = some i) (hslot : fields[i]? = some slot) :
    m.under (.owner type) key = slot.place := by
  rw [under, hnumber, Option.map_some, Option.getD_some]
  exact (hconforms.field hslot).1.symm

/-- So it is behind the key of a member that is written to. -/
theorem under_of_target? {m : Merger} {n : Node} {name : String} {member : Member} {i : Nat}
    {slot : Slot} (hconforms : Conforms m.catalogue (.object n.type n.fields))
    (hmember : m.member? n name = some member) (htarget : n.target? member = some (i, slot)) :
    m.under (.owner n.type) name = slot.place := by
  obtain ⟨hnumber, hslot⟩ := number?_of_target? hmember htarget
  exact under_of_number? hconforms hnumber hslot

/-- What is assigned as a whole is no collection. -/
theorem Assigns.under_ne_items {m : Merger} (hactions : m.configuration.NoActions) {full : Path}
    {patch original : Node} {name : String} {fields : Fields} {s s' : Session}
    (hid : isIdentityKey name = false)
    (hconforms : Conforms m.catalogue (.object original.type original.fields))
    (h : m.Assigns full patch original name s fields s') {type : TypeName} :
    m.under (.owner original.type) name ≠ .items type := by
  cases h with
  | identity htrue =>
    rw [hid] at htrue
    cases htrue
  | custom _ haction =>
    rw [hactions.setAction?_eq_none] at haction
    cases haction
  | leaf _ _ _ hom _ _ _ _ htarget | unset _ _ _ hom _ _ _ htarget =>
    rw [under_of_target? hconforms hom htarget]
    rintro ⟨⟩

/-- The keys of each object in a payload are different, and no two of them denote members
that are written to one field. -/
inductive Unambiguous (m : Merger) : Place → Json → Prop where
  | object {place : Place} {members : List (String × Json)}
      (hkeys : (members.map (·.1)).Nodup)
      (hdenotes : ∀ type i, place = .owner type → ∀ a ∈ members, ∀ b ∈ members,
        m.number? Member.writes type a.1 = some i → m.number? Member.writes type b.1 = some i →
        a.1 = b.1)
      (hmembers : ∀ a ∈ members, Unambiguous m (m.under place a.1) a.2) :
      Unambiguous m place (.object members)
  | array {place : Place} {items : List Json}
      (hitems : ∀ item ∈ items, Unambiguous m place.item item) :
      Unambiguous m place (.array items)
  | string {place : Place} {text : String} : Unambiguous m place (.string text)
  | number {place : Place} {n : JsonNumber} : Unambiguous m place (.number n)
  | bool {place : Place} {b : Bool} : Unambiguous m place (.bool b)
  | null {place : Place} : Unambiguous m place .null

variable {m : Merger} {place : Place}

namespace Unambiguous

/-- The keys of an object of a known type can be checked two by two. -/
theorem of_owner {type : TypeName} {members : List (String × Json)}
    (hkeys : (members.map (·.1)).Nodup)
    (hdenotes : ∀ a ∈ members, ∀ b ∈ members, (m.number? Member.writes type a.1).isSome →
      m.number? Member.writes type a.1 = m.number? Member.writes type b.1 → a.1 = b.1)
    (hmembers : ∀ a ∈ members, m.Unambiguous (m.under (.owner type) a.1) a.2) :
    m.Unambiguous (.owner type) (.object members) := by
  refine .object hkeys ?_ hmembers
  rintro type' i ⟨⟩ a ha b hb hi hi'
  exact hdenotes a ha b hb (by rw [hi]; rfl) (hi.trans hi'.symm)

theorem member {members : List (String × Json)} (h : m.Unambiguous place (.object members))
    {key : String} {value : Json} (hmember : (key, value) ∈ members) :
    m.Unambiguous (m.under place key) value := by
  cases h with
  | object _ _ hmembers => exact hmembers _ hmember

/-- There is one value at each key. -/
theorem value_eq {members : List (String × Json)} (h : m.Unambiguous place (.object members))
    {key : String} {value value' : Json} (hmember : (key, value) ∈ members)
    (hmember' : (key, value') ∈ members) : value = value' := by
  cases h with
  | object hkeys =>
    have heq := List.inj_on_of_nodup_map hkeys hmember hmember' rfl
    exact (Prod.ext_iff.1 heq).2

/-- There is one key for each field. -/
theorem key_eq {type : TypeName} {members : List (String × Json)}
    (h : m.Unambiguous (.owner type) (.object members)) {key key' : String} {value value' : Json}
    {i : Nat} (hmember : (key, value) ∈ members) (hmember' : (key', value') ∈ members)
    (hnumber : m.number? Member.writes type key = some i)
    (hnumber' : m.number? Member.writes type key' = some i) : key = key' := by
  cases h with
  | object _ hdenotes =>
    exact hdenotes type i rfl _ hmember _ hmember' hnumber hnumber'

theorem item {items : List Json} (h : m.Unambiguous place (.array items)) {item : Json}
    (hitem : item ∈ items) : m.Unambiguous place.item item := by
  cases h with
  | array hitems => exact hitems item hitem

end Unambiguous

end Merger

/-! ## Different paths -/

namespace Directive

open Merger (Unambiguous)

variable {m : Merger}

mutual

theorem nodup_levels {place : Place} (path : List String) : (value : Json) →
    m.Unambiguous place value →
    ((levels m.options path value).flatten.map Directive.path).Nodup
  | .object members, h => by
    rw [levels, List.flatten_cons, List.nil_append]
    obtain ⟨hkeys, -, hmembers⟩ := h
    exact nodup_memberLevels path members hkeys fun a ha => ⟨_, hmembers a ha⟩
    | .array _, _ | .null, _ | .bool _, _ | .number _, _ | .string _, _ => by
    rw [levels, List.flatten_cons, List.flatten_nil, List.append_nil, List.map_singleton]
    exact List.nodup_singleton _

theorem nodup_memberLevels (path : List String) : (members : List (String × Json)) →
    (members.map (·.1)).Nodup → (∀ a ∈ members, ∃ place, m.Unambiguous place a.2) →
    ((memberLevels m.options path members).flatten.map Directive.path).Nodup
  | [], _, _ => by simp [memberLevels]
  | (key, value) :: members, hkeys, h => by
    rw [List.map_cons, List.nodup_cons] at hkeys
    obtain ⟨place, hvalue⟩ := h _ (List.mem_cons_self ..)
    have htail := nodup_memberLevels path members hkeys.2
      fun a ha => h a (List.mem_cons_of_mem _ ha)
    rw [memberLevels]
    split
    · exact htail
    · rw [((perm_flatten_joinLevels _ _).map _).nodup_iff, List.map_append, List.nodup_append]
      refine ⟨nodup_levels (path ++ [key]) value hvalue, htail, ?_⟩
      -- the paths below a key start with it, those below the other members do not
      rintro p hp q hq rfl
      obtain ⟨d, hd, rfl⟩ := List.mem_map.1 hp
      obtain ⟨d', hd', heq⟩ := List.mem_map.1 hq
      obtain ⟨rest, leaf, -, rfl⟩ := (mem_levels_iff (path ++ [key]) value).1 hd
      obtain ⟨other, value', rest', leaf', hmember, -, -, rfl⟩ :=
        (mem_memberLevels_iff path members).1 hd'
      rw [path_ofValue, path_ofValue, List.append_assoc, List.append_cancel_left_eq] at heq
      obtain ⟨rfl, -⟩ := List.cons_eq_cons.1 heq
      exact hkeys.1 (List.mem_map.2 ⟨_, hmember, rfl⟩)

end

/-- The directives of an unambiguous payload have different paths. -/
theorem nodup_paths {place : Place} {members : List (String × Json)}
    (h : m.Unambiguous place (.object members)) :
    ((ofMembers m.options members).map Directive.path).Nodup := by
  have hlevels := nodup_levels [] (.object members) h
  rwa [levels, List.flatten_cons, List.nil_append] at hlevels

end Directive

end SelectiveMerge
