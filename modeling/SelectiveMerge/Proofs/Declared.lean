import SelectiveMerge.Proofs.Run

/-!
# Objects as they are declared

What a type declares for its fields can be read off what they hold at first. An object
conforms to its type when its fields, and the objects that they hold in turn, are as they
are declared. Objects that are made from nothing conform in a well-formed catalogue.

* `Place` — what is declared for a slot
* `Conforms` — a slot is as declared, with all that it holds
* `Catalogue.WellFormed` — what objects hold at first conforms
* `Merger.Ensures.conforms` — so does what is made during a merge
-/

namespace SelectiveMerge

/-- What is declared for a slot: an object of a type which may be optional, items of a
type, entries of a type, or nothing that has members. -/
inductive Place where
  | value
  | owner (type : TypeName)
  | items (type : TypeName)
  | entries (type : TypeName)
  deriving DecidableEq

/-- The declaration that a slot is in accord with. -/
def Slot.place : Slot → Place
  | .leaf .. | .leafDictionary .. => .value
  | .object type _ | .optional type _ => .owner type
  | .collection type _ => .items type
  | .dictionary type _ => .entries type

/-- What a type declares for the field with a number. -/
def Catalogue.place (c : Catalogue) (type : TypeName) (i : Nat) : Place :=
  (((c type).initialFields[i]?).map Slot.place).getD .value

/-- All objects that a slot holds have the fields that their types declare. -/
inductive Conforms (c : Catalogue) : Slot → Prop where
  | leaf {type : LeafType} {value : Cell} : Conforms c (.leaf type value)
  | leafDictionary {type : LeafType} {entries : List (String × Cell)} :
      Conforms c (.leafDictionary type entries)
  | object {type : TypeName} {fields : Fields}
      (hplaces : ∀ (i : Nat) slot, fields[i]? = some slot → slot.place = c.place type i)
      (hfields : ∀ (i : Nat) slot, fields[i]? = some slot → Conforms c slot) :
      Conforms c (.object type fields)
  | missing {type : TypeName} : Conforms c (.optional type none)
  | optional {type : TypeName} {fields : Fields} (hpresent : Conforms c (.object type fields)) :
      Conforms c (.optional type (some fields))
  | collection {type : TypeName} {items : List Fields}
      (hitems : ∀ item ∈ items, Conforms c (.object type item)) :
      Conforms c (.collection type items)
  | dictionary {type : TypeName} {entries : List (String × Fields)}
      (hentries : ∀ key fields, Dictionary.find? key entries = some fields →
        Conforms c (.object type fields)) :
      Conforms c (.dictionary type entries)

/-- What the objects of all types hold at first conforms. -/
def Catalogue.WellFormed (c : Catalogue) : Prop :=
  ∀ type, Conforms c (.object type (c type).initialFields)

namespace Conforms

variable {c : Catalogue}

/-- A field of an object that conforms is as it is declared. -/
theorem field {type : TypeName} {fields : Fields} {i : Nat} {slot : Slot}
    (h : Conforms c (.object type fields)) (hslot : fields[i]? = some slot) :
    slot.place = c.place type i ∧ Conforms c slot := by
  cases h with
  | object hplaces hfields => exact ⟨hplaces i slot hslot, hfields i slot hslot⟩

/-- An object still conforms when a field changes as it is declared. -/
theorem set {type : TypeName} {fields : Fields} {i : Nat} {old new : Slot}
    (h : Conforms c (.object type fields)) (hold : fields[i]? = some old)
    (hplace : new.place = old.place) (hnew : Conforms c new) :
    Conforms c (.object type (fields.set i new)) := by
  have hboth : ∀ (j : Nat) slot, (fields.set i new)[j]? = some slot →
      slot.place = c.place type j ∧ Conforms c slot := by
    intro j slot hslot
    by_cases hj : i = j
    · subst hj
      obtain ⟨hi, -⟩ := List.getElem?_eq_some_iff.1 hold
      rw [List.getElem?_set_self hi] at hslot
      obtain rfl := Option.some_inj.1 hslot
      exact ⟨hplace.trans (h.field hold).1, hnew⟩
    · rw [List.getElem?_set_ne hj] at hslot
      exact h.field hslot
  exact .object (fun j slot hslot => (hboth j slot hslot).1)
    fun j slot hslot => (hboth j slot hslot).2

theorem present {type : TypeName} {present : Option Fields}
    (h : Conforms c (.optional type present)) (fields : Fields) (hpresent : present = some fields) :
    Conforms c (.object type fields) := by
  subst hpresent
  cases h with
  | optional hpresent => exact hpresent

theorem entry {type : TypeName} {entries : List (String × Fields)} {key : String}
    {fields : Fields} (h : Conforms c (.dictionary type entries))
    (hfind : Dictionary.find? key entries = some fields) : Conforms c (.object type fields) := by
  cases h with
  | dictionary hentries => exact hentries key fields hfind

theorem insert {type : TypeName} {entries : List (String × Fields)} {key : String}
    {made : Fields} (h : Conforms c (.dictionary type entries))
    (hmade : Conforms c (.object type made)) :
    Conforms c (.dictionary type (Dictionary.insert key made entries)) := by
  refine .dictionary fun other fields hfind => ?_
  rw [Dictionary.find?_insert] at hfind
  split at hfind
  · obtain rfl := Option.some_inj.1 hfind
    exact hmade
  · exact h.entry hfind

theorem item {type : TypeName} {items : List Fields} {fields : Fields}
    (h : Conforms c (.collection type items)) (hitem : fields ∈ items) :
    Conforms c (.object type fields) := by
  cases h with
  | collection hitems => exact hitems fields hitem

end Conforms

/-! ## Objects made from nothing -/

/-- A type that is to get fresh identities declares a leaf for them. -/
theorem Schema.identity_field_of_needsFreshIdentity {s : Schema}
    (h : s.needsFreshIdentity = true) :
    ∃ i, s.identityField = some i ∧ s.initialFields[i]? = some (.leaf .uuid (.uuid Uuid.nil)) := by
  unfold needsFreshIdentity at h
  have hnil : s.identity? s.initialFields = some Uuid.nil := by
    rw [Bool.and_eq_true] at h
    exact beq_iff_eq.1 h.2
  unfold identity? at hnil
  split at hnil
  · rename_i u hfield
    obtain rfl := Option.some_inj.1 hnil
    obtain ⟨i, hi, hslot⟩ := Option.bind_eq_some_iff.1 hfield
    exact ⟨i, hi, hslot⟩
  · cases hnil

namespace Merger

variable {m : Merger} {s s' : Session}

/-- An object that is made from nothing holds what its type holds at first, save for a
leaf with its identity. -/
theorem Makes.eq_or_exists_set {type : TypeName} {fields : Fields}
    (h : m.Makes type s fields s') :
    fields = (m.catalogue type).initialFields ∨
      ∃ i id, (m.catalogue type).initialFields[i]? = some (.leaf .uuid (.uuid Uuid.nil)) ∧
        fields = (m.catalogue type).initialFields.set i (.leaf .uuid (.uuid id)) := by
  cases h with
  | plain => exact .inl rfl
  | fresh hfresh =>
    obtain ⟨i, hi, hslot⟩ := Schema.identity_field_of_needsFreshIdentity hfresh
    refine .inr ⟨i, m.mint s.minted, hslot, ?_⟩
    simp only [Schema.withIdentity, hi]

theorem Makes.conforms (hwell : m.catalogue.WellFormed) {type : TypeName} {fields : Fields}
    (h : m.Makes type s fields s') : Conforms m.catalogue (.object type fields) := by
  rcases h.eq_or_exists_set with rfl | ⟨i, id, hslot, rfl⟩
  · exact hwell type
  · exact (hwell type).set hslot rfl .leaf

/-- What was found conforms by assumption, what was not is made. -/
theorem Ensures.conforms (hwell : m.catalogue.WellFormed) {type : TypeName}
    {found : Option Fields} {fields : Fields} (h : m.Ensures type s found fields s')
    (hfound : ∀ f, found = some f → Conforms m.catalogue (.object type f)) :
    Conforms m.catalogue (.object type fields) := by
  cases h with
  | found => exact hfound fields rfl
  | made hmade => exact hmade.conforms hwell

end Merger

end SelectiveMerge
