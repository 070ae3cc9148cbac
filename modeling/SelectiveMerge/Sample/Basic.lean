import SelectiveMerge.Graph.Schema

/-!
# Field plans

Schemas of sample types are laid out field by field. A plan says what a field is
called, under which name it is a member if it is one, which type it was declared
with, and what it holds at first; the kind of the member is the kind of that slot.

* `Plan.leaf`, `Plan.object`, … — plans for the six kinds of field
* `Plan.schema` — the schema of a type whose fields have these plans
-/

namespace SelectiveMerge

/-- The kind of a member that is stored in a slot. -/
def Slot.kind : Slot → MemberKind
  | .leaf .. => .leaf
  | .object .. => .object
  | .optional .. => .optionalObject
  | .collection .. => .collection
  | .dictionary .. => .dictionary
  | .leafDictionary .. => .leafDictionary

/-- A slot and its kind of member have one shape. -/
theorem Slot.shapeName_kind (s : Slot) : s.kind.shapeName = s.shapeName := by
  cases s <;> rfl

namespace LeafType

mutual

/-- The name by which a declaration mentions a leaf type. -/
def declaredName : LeafType → String
  | .text => "String"
  | .uuid => "Uuid"
  | .json => "Value"
  | .option t => "Option<" ++ t.declaredName ++ ">"
  | .list t => "Vec<" ++ t.declaredName ++ ">"
  | .tuple ts => "(" ++ String.intercalate "," (declaredNames ts) ++ ")"
  | .dictionary k v => "BTreeMap<" ++ k.declaredName ++ "," ++ v.declaredName ++ ">"
  | t => bareName t.name

/-- The names of several leaf types in a declaration. -/
def declaredNames : List LeafType → List String
  | [] => []
  | t :: ts => t.declaredName :: declaredNames ts

end

/-- The integer type of so many bits, with a sign. -/
def signed (bits : Nat) : LeafType := .int ⟨true, bits⟩

/-- The integer type of so many bits, without a sign. -/
def unsigned (bits : Nat) : LeafType := .int ⟨false, bits⟩

end LeafType

/-- How a field of a type is laid out. -/
structure Plan where
  field : String
  member : Option String
  declaredType : String
  initial : Slot

namespace Plan

/-- The two sorts of dictionary that a declaration can ask for; they behave alike. -/
inductive MapSort where
  | ordered
  | hashed
  deriving DecidableEq

/-- The name of a sort of dictionary. -/
def MapSort.name : MapSort → String
  | .ordered => "BTreeMap"
  | .hashed => "HashMap"

/-- The declared type of a dictionary with text keys. -/
def mapOf (sort : MapSort) (value : String) : String := sort.name ++ "<String," ++ value ++ ">"

/-- A leaf. -/
def leaf (name : String) (type : LeafType) : Plan :=
  ⟨name, some name, type.declaredName, .leaf type type.zero⟩

/-- A text. -/
def text (name : String) : Plan := leaf name .text

/-- An object, with what it holds at first. -/
def object (name type : String) (fields : Fields) : Plan :=
  ⟨name, some name, type, .object type fields⟩

/-- An object that may be missing. -/
def optional (name type : String) : Plan :=
  ⟨name, some name, "Option<" ++ type ++ ">", .optional type none⟩

/-- A collection of objects. -/
def collection (name type : String) : Plan :=
  ⟨name, some name, "Vec<" ++ type ++ ">", .collection type []⟩

/-- A dictionary of objects. -/
def dictionary (name type : String) (sort : MapSort) : Plan :=
  ⟨name, some name, mapOf sort type, .dictionary type []⟩

/-- A dictionary of leaves. -/
def leafDictionary (name : String) (type : LeafType) (sort : MapSort) : Plan :=
  ⟨name, some name, mapOf sort type.declaredName, .leafDictionary type []⟩

/-- The field as a member under another name. -/
def called (p : Plan) (member : String) : Plan := { p with member := some member }

/-- The field as no member. -/
def hidden (p : Plan) : Plan := { p with member := none }

/-- The members among the fields, of which the first has a given number. -/
def members : Nat → List Plan → List Member
  | _, [] => []
  | i, p :: plans =>
      match p.member with
      | some name =>
          ⟨name, p.initial.kind, p.declaredType, some i, some i⟩ :: members (i + 1) plans
      | none => members (i + 1) plans

/-- The fields of a type. -/
def fields (plans : List Plan) : List Field := plans.map fun p => ⟨p.field, p.initial⟩

/-- The schema of a type without identity. -/
def schema (scope typeName : String) (plans : List Plan) : Schema where
  typeName := typeName
  qualifiedName := scope ++ typeName
  fields := fields plans
  table := .ofMembers (members 0 plans)
  identified := false
  identityField := none
  constructible := true
  mintsIdentity := false

/-- The schema of a type with its identity in the first field. -/
def identifiedSchema (scope typeName : String) (plans : List Plan) : Schema :=
  { schema scope typeName plans with
    identified := true, identityField := some 0, mintsIdentity := true }

end Plan

end SelectiveMerge
