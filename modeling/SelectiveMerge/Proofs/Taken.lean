import SelectiveMerge.Proofs.Settled

/-!
# What is taken over from a patch

`Takes` says of the end of a path how it is after a merge, given what the patch shows
there and what was there before. A leaf holds the value of the patch, as far as its type
can hold it. An array at a collection is carried out element by element: `Handles` says
which items the elements come to, and what they make of them. In an item that is left, each
of the elements that came to it had its leaves taken over, and those that no later one leads
to are as it left them.

* `TakesOver` — a leaf holds the value of another one
* `Handles` — the elements of an array come to the items of a collection
* `Touch`, `Tracked` — what came to an item
* `Merger.Takes`, `Merger.TakesAll` — what is at the end of a path, and of all paths of a
  payload, after a merge
* `Merger.Enacts` — a change writes what is taken over, and nothing else
-/

namespace SelectiveMerge

/-- A leaf of a type holds the first reading of the JSON form of a patch leaf that its type
decodes. That is the patch value itself when the type reads the form back as that value. -/
structure TakesOver (source : Cell) (type : LeafType) (cell : Cell) : Prop where
  coerced : ∃ json, source.encode = .ok json ∧ Coercion.coerce? type json = some cell
  same : ∀ json, source.encode = .ok json → type.decode? json = some source → cell = source

theorem TakesOver.of_coerce? {source cell : Cell} {type : LeafType} {json : Json}
    (hencode : source.encode = .ok json) (hcoerce : Coercion.coerce? type json = some cell) :
    TakesOver source type cell := by
  refine ⟨⟨json, hencode, hcoerce⟩, fun json' hencode' hdecode => ?_⟩
  obtain rfl : json = json' := Except.ok.inj (hencode.symm.trans hencode')
  unfold Coercion.coerce? Coercion.firstAccepted at hcoerce
  rw [List.findSome?_cons, hdecode] at hcoerce
  exact (Option.some_inj.1 hcoerce).symm

/-- A leaf of a type is as the empty array says: a list is empty. -/
structure Emptied (type : LeafType) (cell : Cell) : Prop where
  decoded : type.decode? (.array []) = some cell
  list : ∀ itemType, type = .list itemType → cell = .list []

theorem Emptied.of_decode? {type : LeafType} {cell : Cell}
    (h : type.decode? (.array []) = some cell) : Emptied type cell := by
  refine ⟨h, ?_⟩
  rintro itemType rfl
  have hlist : (LeafType.list itemType).decode? (.array []) = some (.list []) := by
    unfold LeafType.decode?
    rw [LeafType.decode]
    rfl
  exact Option.some_inj.1 (h.symm.trans hlist)

/-- How an element of an array came to an item: the item of the patch that it goes by, what
the item held before, and what it held afterwards. -/
structure Touch where
  patch : Node
  before : Fields
  after : Fields
  element : Json

/-- An item of a collection, and the elements that came to it, the last one first. -/
structure Tracked where
  fields : Fields
  touches : List Touch

/-- An item that no element has come to. -/
def Tracked.untouched (fields : Fields) : Tracked := ⟨fields, []⟩

namespace Merger

/-- How the elements of an array come to the items of a collection, when `position`
elements came before. A new item goes by the item of the patch at the same position, an
item that is updated by the one with the same identity; each is walked over with the keys
of the element. -/
inductive Handles (m : Merger) (r : Reconciliation) :
    (position : Nat) → List Json → List Tracked → List Tracked → Prop where
  | nil {position : Nat} {items : List Tracked} : Handles m r position [] items items
  | add {position : Nat} {members : List (String × Json)} {elements : List Json}
      {items items' : List Tracked} {patchItem : Node} {before fields : Fields}
      {s t u v : Session}
      (hasks : Intent.ofMembers m.options r.full members = .ok .add)
      (hpatch : Collection.item? r.patchType r.patchItems position = some patchItem)
      (hmade : m.Makes r.type s before t)
      (hwalk : m.Walks r.full.segments patchItem ⟨r.type, before⟩ members u fields v)
      (hrest : Handles m r (position + 1) elements
        (items ++ [⟨fields, [⟨patchItem, before, fields, .object members⟩]⟩]) items') :
      Handles m r position (.object members :: elements) items items'
  | update {position : Nat} {members : List (String × Json)} {elements : List Json}
      {items items' : List Tracked} {id : Uuid} {index : Nat} {item : Tracked}
      {patchItem : Node} {fields : Fields} {s t : Session}
      (hasks : Intent.ofMembers m.options r.full members = .ok (.update id))
      (hindex : m.catalogue.position? r.type (items.map Tracked.fields) id = some index)
      (hitem : items[index]? = some item)
      (hpatch : m.catalogue.itemWithId? r.patchType r.patchItems id = some patchItem)
      (hwalk : m.Walks r.full.segments patchItem ⟨r.type, item.fields⟩ members s fields t)
      (hrest : Handles m r (position + 1) elements
        (items.set index ⟨fields,
          ⟨patchItem, item.fields, fields, .object members⟩ :: item.touches⟩) items') :
      Handles m r position (.object members :: elements) items items'
  | remove {position : Nat} {members : List (String × Json)} {elements : List Json}
      {items items' : List Tracked} {id : Uuid} {index : Nat}
      (hasks : Intent.ofMembers m.options r.full members = .ok (.remove id))
      (hindex : m.catalogue.position? r.type (items.map Tracked.fields) id = some index)
      (hrest : Handles m r (position + 1) elements (items.eraseIdx index) items') :
      Handles m r position (.object members :: elements) items items'

/-- An element for an object of a type leads to the end of a path, to what is on the way
there or to what is behind it. -/
def LeadsThere (m : Merger) (type : TypeName) (element : Json) (path : List String) : Prop :=
  ∃ other leaf, Leads m.options element other leaf ∧ m.Meets (.owner type) other path

/-- What is at the end of a path after a merge with a payload that has the value `value`
there, given what the patch shows and what there was to begin with. -/
inductive Takes (m : Merger) : (shown begun held : Option Spot) → (value : Json) → Prop where
  /-- A leaf holds the value of the patch. -/
  | leaf {patchType type : LeafType} {source cell : Cell} {begun : Option Spot} {value : Json}
      (hvalue : value ≠ .array []) (htakes : TakesOver source type cell) :
      Takes m (some (.slot (.leaf patchType source))) begun (some (.slot (.leaf type cell))) value
  /-- So does an entry of a dictionary of leaves. -/
  | entry {patchType type : LeafType} {source cell : Cell} {begun : Option Spot} {value : Json}
      (htakes : TakesOver source type cell) :
      Takes m (some (.entry patchType source)) begun (some (.entry type cell)) value
  /-- A list is empty where the payload has an empty array. -/
  | emptied {type : LeafType} {cell : Cell} {shown begun : Option Spot}
      (hempty : Emptied type cell) :
      Takes m shown begun (some (.slot (.leaf type cell))) (.array [])
  /-- An optional object is not set, and neither is that of the patch. -/
  | unset {patchType type : TypeName} {begun : Option Spot} {value : Json} :
      Takes m (some (.slot (.optional patchType none))) begun
        (some (.slot (.optional type none))) value
  /-- In the items of a collection each element that came to an item had its leaves taken
  over. Where no later element leads to that is how the leaves are in the end. -/
  | collection {r : Reconciliation} {elements : List Json} {olds start : List Fields}
      {items : List Tracked} (hstart : start = olds ∨ elements = [] ∧ start = [])
      (hhandles : m.Handles r 0 elements (start.map Tracked.untouched) items)
      (htaken : ∀ item ∈ items, ∀ touch ∈ item.touches,
        ∀ path leaf, Leads m.options touch.element path leaf →
          (path.getLast?).any isIdentityKey = false →
          Takes m (m.shown? touch.patch path) (m.begun? (.object r.type touch.before) path)
            (m.held? (.object r.type touch.after) path) leaf)
      (hleft : ∀ item ∈ items, ∀ later touch earlier,
        item.touches = later ++ touch :: earlier →
        ∀ path leaf, Leads m.options touch.element path leaf →
          (path.getLast?).any isIdentityKey = false →
          (∀ t ∈ later, ¬ m.LeadsThere r.type t.element path) →
          Takes m (m.shown? touch.patch path) (m.begun? (.object r.type touch.before) path)
            (m.held? (.object r.type item.fields) path) leaf) :
      Takes m (some (.slot (.collection r.patchType r.patchItems)))
        (some (.slot (.collection r.type olds)))
        (some (.slot (.collection r.type (items.map Tracked.fields)))) (.array elements)

/-- All leaves that a payload leads to, save identities, take over what the patch shows. -/
def TakesAll (m : Merger) (value : Json) (patch : Node) (old new : Slot) : Prop :=
  ∀ path leaf, Leads m.options value path leaf →
    (path.getLast?).any isIdentityKey = false →
    m.Takes (m.shown? patch path) (m.begun? old path) (m.held? new path) leaf

/-- Only a collection depends on what there was to begin with, and something is held. -/
theorem Takes.congr {m : Merger} {shown begun begun' held held' : Option Spot} {value : Json}
    (h : m.Takes shown begun held value)
    (hbegun : ∀ type items, begun = some (.slot (.collection type items)) →
      begun' = some (.slot (.collection type items)))
    (hheld : ∀ spot, held = some spot → held' = some spot) : m.Takes shown begun' held' value := by
  cases h with
  | leaf hvalue htakes =>
    rw [hheld _ rfl]
    exact .leaf hvalue htakes
  | entry htakes =>
    rw [hheld _ rfl]
    exact .entry htakes
  | emptied hempty =>
    rw [hheld _ rfl]
    exact .emptied hempty
  | unset =>
    rw [hheld _ rfl]
    exact .unset
  | collection hstart hhandles htaken hleft =>
    rw [hheld _ rfl, hbegun _ _ rfl]
    exact .collection hstart hhandles htaken hleft

/-! ## One change -/

/-- A change writes at the end of a path what is taken over there. -/
def Enacts (m : Merger) (value : Json) (path : List String) (shown : Option Spot)
    (old new : Slot) : Prop :=
  ∃ before after, m.Writes path before after old new ∧ Fits m.catalogue before after ∧
    ((path.getLast?).any isIdentityKey = false → m.Takes shown before after value)

namespace Enacts

variable {m : Merger} {value : Json} {path : List String} {shown : Option Spot}
  {old new : Slot}

theorem takes (h : m.Enacts value path shown old new)
    (hid : (path.getLast?).any isIdentityKey = false) :
    m.Takes shown (m.begun? old path) (m.held? new path) value := by
  obtain ⟨before, after, hwrites, -, htakes⟩ := h
  exact (htakes hid).congr (fun _ _ => hwrites.begun?_eq) fun _ => hwrites.held?_eq

theorem conforms (hwell : m.catalogue.WellFormed) (h : m.Enacts value path shown old new)
    (hold : Conforms m.catalogue old) : Conforms m.catalogue new := by
  obtain ⟨before, after, hwrites, hfits, -⟩ := h
  exact (hwrites.conforms hwell hfits hold).2

theorem spares (hwell : m.catalogue.WellFormed) (h : m.Enacts value path shown old new)
    {payload leaf leaf' : Json} {other : List String} (hold : Conforms m.catalogue old)
    (hpayload : m.Unambiguous old.place payload) (hpath : Leads m.options payload path leaf)
    (hother : Leads m.options payload other leaf') (hne : other ≠ path) :
    m.Spares other old new := by
  obtain ⟨before, after, hwrites, -, -⟩ := h
  exact hwrites.spares hwell hold hpayload hpath hother hne

/-- What its path does not meet is spared by a change. -/
theorem spares_of_not_meets (hwell : m.catalogue.WellFormed)
    (h : m.Enacts value path shown old new) (hold : Conforms m.catalogue old)
    {other : List String} (hmeets : ¬ m.Meets old.place path other) : m.Spares other old new := by
  obtain ⟨before, after, hwrites, -, -⟩ := h
  exact hwrites.spares_of_not_meets hwell hold hmeets

/-- A member that is written to takes over what the patch shows. -/
theorem of_target? {original : Node} {name : String} {member : Member} {i : Nat}
    {before after : Slot} (hmember : m.member? original name = some member)
    (htarget : original.target? member = some (i, before))
    (hplace : after.place = before.place) (hafter : Conforms m.catalogue after)
    (htakes : m.Takes shown (some (.slot before)) (some (.slot after)) value) :
    m.Enacts value [name] shown (.object original.type original.fields)
      (.object original.type (original.fields.set i after)) := by
  obtain ⟨hnumber, hslot⟩ := number?_of_target? hmember htarget
  refine ⟨_, _, .member hnumber hslot .here, ?_, fun _ => htakes⟩
  rintro _ _ ⟨⟩ ⟨⟩
  exact ⟨hplace, hafter⟩

/-- Nothing is taken over at an identity. -/
theorem of_identity {key : String} {rest : List String}
    (hid : ((key :: rest).getLast?).any isIdentityKey = true) :
    m.Enacts value (key :: rest) shown old old := by
  refine ⟨none, none, .idle, ?_, fun hnot => ?_⟩
  · rintro _ _ ⟨⟩
  · rw [hid] at hnot
    cases hnot

end Enacts

end Merger

end SelectiveMerge
