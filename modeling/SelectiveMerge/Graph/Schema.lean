import SelectiveMerge.Graph.Slot
import SelectiveMerge.Text.Ascii
import Std.Data.TreeMap

/-!
# Member tables and schemas

A type takes part in merges through its schema: its fields with what they hold
at first, the table of its members, and how its objects are told apart and made.
A member has a name and a kind and says which field it reads and which it
writes. Tables are searched through two indexes, one by the exact name and one
by the name without case.
-/

namespace SelectiveMerge

/-- The kind of a member. -/
inductive MemberKind where
  | leaf
  | object
  | optionalObject
  | collection
  | dictionary
  | leafDictionary
  deriving DecidableEq

/-- The name of the shape that a kind of member has in messages. -/
def MemberKind.shapeName : MemberKind → String
  | .leaf => "value"
  | .object | .optionalObject => "object"
  | .collection => "collection"
  | .dictionary | .leafDictionary => "dictionary"

/-- A member of a type: its name, its kind, the type it was declared with, and the
numbers of the fields that reading and writing it go to. A member that cannot be
read, or written, has no such field. -/
structure Member where
  name : String
  kind : MemberKind
  declaredType : String
  reads : Option Nat
  writes : Option Nat
  deriving DecidableEq

/-! ## Member tables -/

/-- Positions by name. -/
abbrev NameIndex := Std.TreeMap String Nat

/-- Enters names with their positions, of which the first is `start`; a name that
is already there keeps its position. -/
def NameIndex.enter (index : NameIndex) (start : Nat) : List String → NameIndex
  | [] => index
  | name :: names => NameIndex.enter (index.insertIfNew name start) (start + 1) names

/-- The members of a type, with the positions of their names. -/
structure MemberTable where
  members : List Member
  exact : NameIndex := NameIndex.enter ∅ 0 (members.map (·.name))
  folded : NameIndex := NameIndex.enter ∅ 0 (members.map fun m => Text.foldCase m.name)
  exact_eq : exact = NameIndex.enter ∅ 0 (members.map (·.name)) := by rfl
  folded_eq : folded = NameIndex.enter ∅ 0 (members.map fun m => Text.foldCase m.name) := by rfl

namespace MemberTable

/-- The table of a list of members. -/
def ofMembers (members : List Member) : MemberTable where
  members := members

/-- The position of the member with a name. A member with exactly that name comes
before one that has it in other case. -/
def position? (t : MemberTable) (name : String) (ignoreCase : Bool) : Option Nat :=
  match t.exact[name]? with
  | some position => some position
  | none => if ignoreCase then t.folded[Text.foldCase name]? else none

/-- The member with a name. -/
def find? (t : MemberTable) (name : String) (ignoreCase : Bool) : Option Member :=
  (t.position? name ignoreCase).bind (t.members[·]?)

end MemberTable

/-! ## Schemas -/

/-- A field of a type: its name and what it holds at first. -/
structure Field where
  name : String
  initial : Slot

/-- A type that takes part in merges. -/
structure Schema where
  /-- The name of the type in messages. -/
  typeName : String
  /-- The name of the type in messages about overrides, with its module. -/
  qualifiedName : String
  fields : List Field
  table : MemberTable
  /-- Whether objects of the type have an identity, as the table says. -/
  identified : Bool
  /-- The field that holds the identity. -/
  identityField : Option Nat
  /-- Whether an object can be made from nothing. -/
  constructible : Bool
  /-- Whether an object made from nothing gets a fresh identity. -/
  mintsIdentity : Bool

namespace Schema

/-- The identity of an object of the type. -/
def identity? (s : Schema) (fields : Fields) : Option Uuid :=
  match s.identityField.bind (fields[·]?) with
  | some (.leaf .uuid (.uuid u)) => some u
  | _ => none

/-- The names of the fields. -/
def fieldNames (s : Schema) : List String := s.fields.map (·.name)

/-- The contents of the fields at first. -/
def initialFields (s : Schema) : Fields := s.fields.map (·.initial)

/-- Whether objects made from nothing lack an identity that they are to have. -/
def needsFreshIdentity (s : Schema) : Bool :=
  s.mintsIdentity && s.identity? s.initialFields == some Uuid.nil

/-- The object with another identity. -/
def withIdentity (s : Schema) (id : Uuid) (fields : Fields) : Fields :=
  match s.identityField with
  | some i => fields.set i (.leaf .uuid (.uuid id))
  | none => fields

end Schema

/-- The schemas of all types. -/
abbrev Catalogue := TypeName → Schema

namespace Catalogue

/-- The name of the type of an object in messages. -/
def displayName (c : Catalogue) (n : Node) : String := (c n.type).typeName

/-- The position of the first item of a collection with an identity. -/
def position? (c : Catalogue) (type : TypeName) (items : List Fields) (id : Uuid) : Option Nat :=
  items.findIdx? fun item => (c type).identity? item == some id

/-- The first item of a collection with an identity. -/
def itemWithId? (c : Catalogue) (type : TypeName) (items : List Fields) (id : Uuid) :
    Option Node :=
  ((c.position? type items id).bind (items[·]?)).map (Node.mk type)

end Catalogue

namespace Node

/-- What a member of an object shows. -/
def read? (n : Node) (m : Member) : Option View := (m.reads.bind (n.fields[·]?)).map Slot.view

/-- The slot that a member of an object is written to, with its number. -/
def target? (n : Node) (m : Member) : Option (Nat × Slot) :=
  m.writes.bind fun i => (n.fields[i]?).map fun slot => (i, slot)

end Node

end SelectiveMerge
