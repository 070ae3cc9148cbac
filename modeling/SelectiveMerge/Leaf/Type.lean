import SelectiveMerge.Json.Basic
import SelectiveMerge.Uuid

/-!
# Leaf types and leaf values

A leaf is a member that a merge treats as one opaque value. Leaf types form a
closed universe: scalars, nullable values, lists, tuples, records, enumerations
and dictionaries. A value of a leaf type is a `Cell`.
-/

namespace SelectiveMerge

/-- An integer type: signed or not, of a number of bits. -/
structure IntType where
  signed : Bool
  bits : Nat
  deriving DecidableEq, Inhabited

namespace IntType

/-- The least value. -/
def least (t : IntType) : Int := if t.signed then -((Nat.pow 2 (t.bits - 1) : Nat) : Int) else 0

/-- The greatest value. -/
def greatest (t : IntType) : Int :=
  if t.signed then ((Nat.pow 2 (t.bits - 1) : Nat) : Int) - 1
  else ((Nat.pow 2 t.bits : Nat) : Int) - 1

/-- Whether a value is in the range of the type. -/
def contains (t : IntType) (i : Int) : Bool := t.least ≤ i && i ≤ t.greatest

/-- The name of the type. -/
def name (t : IntType) : String := (if t.signed then "i" else "u") ++ toString t.bits

theorem contains_iff {t : IntType} {i : Int} : t.contains i = true ↔ t.least ≤ i ∧ i ≤ t.greatest := by
  simp [contains]

end IntType

/-- The type of a leaf. A record or an enumeration is named by its qualified name. -/
inductive LeafType where
  | unit
  | bool
  | char
  | text
  | int (type : IntType)
  | float32
  | float64
  | uuid
  | json
  | option (type : LeafType)
  | list (type : LeafType)
  | tuple (types : List LeafType)
  | record (name : String) (fields : List (String × LeafType))
  | enumeration (name : String) (variants : List String)
  | dictionary (key value : LeafType)
  deriving Inhabited

/-- The value of a leaf. Dictionaries keep their entries in the order of their keys. -/
inductive Cell where
  | unit
  | bool (value : Bool)
  | char (value : Char)
  | text (value : String)
  | int (value : Int)
  | float (value : Binary64)
  | uuid (value : Uuid)
  | json (value : Json)
  | option (value : Option Cell)
  | list (items : List Cell)
  | tuple (items : List Cell)
  | record (fields : List (String × Cell))
  | variant (name : String)
  | dictionary (entries : List (Cell × Cell))
  deriving Inhabited

namespace LeafType

/-- The part of a qualified name after its last `::`. -/
def bareName (name : String) : String :=
  let rec go (word : List Char) : List Char → List Char
    | ':' :: ':' :: rest => go [] rest
    | c :: rest => go (word ++ [c]) rest
    | [] => word
  String.ofList (go [] name.toList)

mutual

/-- The full name of a leaf type. -/
def name : LeafType → String
  | .unit => "()"
  | .bool => "bool"
  | .char => "char"
  | .text => "alloc::string::String"
  | .int t => t.name
  | .float32 => "f32"
  | .float64 => "f64"
  | .uuid => "uuid::Uuid"
  | .json => "serde_json::value::Value"
  | .option t => "core::option::Option<" ++ t.name ++ ">"
  | .list t => "alloc::vec::Vec<" ++ t.name ++ ">"
  | .tuple ts => "(" ++ String.intercalate ", " (names ts) ++ ")"
  | .record n _ => n
  | .enumeration n _ => n
  | .dictionary k v =>
      "alloc::collections::btree::map::BTreeMap<" ++ k.name ++ ", " ++ v.name ++ ">"

/-- The full names of several leaf types. -/
def names : List LeafType → List String
  | [] => []
  | t :: ts => t.name :: names ts

end

mutual

/-- The value that a leaf has when nothing is said about it. -/
def zero : LeafType → Cell
  | .unit => .unit
  | .bool => .bool false
  | .char => .char '\x00'
  | .text => .text ""
  | .int _ => .int 0
  | .float32 => .float (Binary64.zero false)
  | .float64 => .float (Binary64.zero false)
  | .uuid => .uuid Uuid.nil
  | .json => .json .null
  | .option _ => .option none
  | .list _ => .list []
  | .tuple ts => .tuple (zeros ts)
  | .record _ fields => .record (fieldZeros fields)
  | .enumeration _ variants => .variant (variants.headD "")
  | .dictionary _ _ => .dictionary []

/-- The empty values of several leaf types. -/
def zeros : List LeafType → List Cell
  | [] => []
  | t :: ts => t.zero :: zeros ts

/-- The empty values of the fields of a record. -/
def fieldZeros : List (String × LeafType) → List (String × Cell)
  | [] => []
  | (n, t) :: fields => (n, t.zero) :: fieldZeros fields

end

end LeafType

end SelectiveMerge
