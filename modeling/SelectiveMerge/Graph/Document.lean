import SelectiveMerge.Graph.Schema
import SelectiveMerge.Leaf.Document

/-!
# Documents

A document is the JSON form of an object graph: an object with one member for each
field of its type. When a document is read, a field that it does not mention holds
what it holds at first. The types of the nested objects come from a catalogue.

* `Slot.toDocument`, `Node.toDocument` — the form of a slot and of an object
* `Document.read` — the reader for a JSON value, a function from the slot at first
  to the slot that is read
-/

namespace SelectiveMerge

mutual

/-- The form of a slot in a document. -/
def Slot.toDocument (c : Catalogue) : Slot → Json
  | .leaf type value => type.toDocument value
  | .object type fields => .object ((c type).fieldNames.zip (fieldsToDocument c fields))
  | .optional _ none => .null
  | .optional type (some fields) =>
      .object ((c type).fieldNames.zip (fieldsToDocument c fields))
  | .collection type items => .array (itemsToDocument c type items)
  | .dictionary type entries => .object (entriesToDocument c type entries)
  | .leafDictionary type entries =>
      .object (entries.map fun entry => (entry.1, type.toDocument entry.2))

/-- The forms of the fields of an object. -/
def fieldsToDocument (c : Catalogue) : List Slot → List Json
  | [] => []
  | slot :: slots => slot.toDocument c :: fieldsToDocument c slots

/-- The forms of the items of a collection. -/
def itemsToDocument (c : Catalogue) (type : TypeName) : List (List Slot) → List Json
  | [] => []
  | item :: items =>
      .object ((c type).fieldNames.zip (fieldsToDocument c item)) :: itemsToDocument c type items

/-- The forms of the entries of a dictionary. -/
def entriesToDocument (c : Catalogue) (type : TypeName) :
    List (String × List Slot) → List (String × Json)
  | [] => []
  | (key, fields) :: entries =>
      (key, .object ((c type).fieldNames.zip (fieldsToDocument c fields))) ::
        entriesToDocument c type entries

end

/-- The document of an object. -/
def Node.toDocument (c : Catalogue) (n : Node) : Json :=
  (Slot.object n.type n.fields).toDocument c

namespace Document

/-- Reads what one JSON value holds for a slot, given the slot at first. -/
abbrev SlotReader := Slot → Option Slot

/-- The fields of an object whose members have these readers. -/
def readFields (c : Catalogue) (type : TypeName) (readers : List (String × SlotReader)) :
    Option Fields :=
  (c type).fields.mapM fun field =>
    match (readers.find? (·.1 == field.name)).map (·.2) with
    | some read => read field.initial
    | none => some field.initial

/-- The fields of an object of a type that a reader yields. -/
def objectFields? (type : TypeName) (read : SlotReader) : Option Fields :=
  match read (.object type []) with
  | some (.object _ fields) => some fields
  | _ => none

/-- The entries of a dictionary whose members have these readers. -/
def readEntries (type : TypeName) (readers : List (String × SlotReader)) :
    Option (List (String × Fields)) :=
  readers.foldlM (fun entries reader => do
    let fields ← objectFields? type reader.2
    some (Dictionary.insert reader.1 fields entries)) []

/-- The entries of a dictionary of leaves. -/
def readLeaves (type : LeafType) (members : List (String × Json)) :
    Option (List (String × Cell)) :=
  members.foldlM (fun entries member => do
    let cell ← type.ofDocument? member.2
    some (Dictionary.insert member.1 cell entries)) []

mutual

/-- The reader for a JSON value. -/
def read (c : Catalogue) : Json → SlotReader
  | j, .leaf type _ => (type.ofDocument? j).map (Slot.leaf type)
  | .object members, .object type _ =>
      (readFields c type (readMembers c members)).map (Slot.object type)
  | .object members, .optional type _ =>
      (readFields c type (readMembers c members)).map fun fields => .optional type (some fields)
  | .null, .optional type _ => some (.optional type none)
  | .array items, .collection type _ =>
      ((readItems c items).mapM (objectFields? type)).map (Slot.collection type)
  | .object members, .dictionary type _ =>
      (readEntries type (readMembers c members)).map (Slot.dictionary type)
  | .object members, .leafDictionary type _ =>
      (readLeaves type members).map (Slot.leafDictionary type)
  | .null, slot => some slot
  | _, _ => none

/-- The readers for the items of an array. -/
def readItems (c : Catalogue) : List Json → List SlotReader
  | [] => []
  | item :: items => read c item :: readItems c items

/-- The readers for the members of an object. -/
def readMembers (c : Catalogue) : List (String × Json) → List (String × SlotReader)
  | [] => []
  | (name, value) :: members => (name, read c value) :: readMembers c members

end

/-- Reads an object of a type. -/
def node? (c : Catalogue) (type : TypeName) (j : Json) : Option Node :=
  (objectFields? type (read c j)).map (Node.mk type)

end Document

end SelectiveMerge
