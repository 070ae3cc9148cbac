import SelectiveMerge.Declaration.TypeExpr
import SelectiveMerge.Graph.Schema

/-!
# Shapes of declared fields

The composition of a declared type decides which kind of member its field becomes.
A type expression is taken apart into options, lists and maps around a plain value
or, if the field is marked as nested, around an object. A nested field is an
object, or exactly one option, list or text-keyed map of objects; any other
composition is refused. A field that is not nested is a leaf, unless it is a
text-keyed map, which is a dictionary of leaves.

* `Composition.ofType` — the composition of a type expression
* `Composition.memberKind` — the kind of member of a field
-/

namespace SelectiveMerge.Declaration

/-- How a declared type is composed. -/
inductive Composition where
  | plain
  | object
  | option (inner : Composition)
  | list (inner : Composition)
  | map (textKeyed : Bool) (value : Composition)
  deriving DecidableEq

/-- The names of types that are never objects. -/
def plainNames : List String :=
  ["String", "str", "bool", "char", "i8", "i16", "i32", "i64", "i128", "isize", "u8", "u16", "u32",
    "u64", "u128", "usize", "f32", "f64", "Uuid", "Value"]

/-- The names of the two types of maps. -/
def mapNames : List String := ["BTreeMap", "HashMap"]

/-- Why a nested field is refused. -/
inductive ShapeFault where
  | keyNotText
  | notAnObject
  | unsupported
  deriving DecidableEq

/-- The wording of a refusal. -/
def ShapeFault.message : ShapeFault → String
  | .keyNotText => "#[merge(nested)] maps must have `String` keys"
  | .notAnObject =>
      "#[merge(nested)] requires a struct type deriving MergeObject, not a primitive"
  | .unsupported =>
      "#[merge(nested)] supports `T`, `Option<T>`, `Vec<T>` and `HashMap/BTreeMap<String, T>` " ++
        "where `T` derives MergeObject"

namespace Composition

/-- The composition of a type with a last name and without arguments that compose it. -/
def ofName (nested : Bool) (name : String) : Composition :=
  if ["Option", "Vec"].contains name ∨ mapNames.contains name ∨ plainNames.contains name then .plain
  else if nested then .object
  else .plain

/-- A name with one type argument, whose composition is given. -/
def ofOne (nested : Bool) (name : String) (inner : Composition) : Composition :=
  if name = "Option" then .option inner
  else if name = "Vec" then .list inner
  else ofName nested name

/-- A name with two type arguments. -/
def ofTwo (nested : Bool) (name keyName : String) (value : Composition) : Composition :=
  if mapNames.contains name then .map (keyName == "String") value else ofName nested name

mutual

/-- The composition of a type expression. -/
def ofType (nested : Bool) : TypeExpr → Composition
  | .path _ segments => ofSegments nested segments
  | .bound .. => .plain
  | .other _ => .plain

/-- The composition of a path: that of its last name. -/
def ofSegments (nested : Bool) : List PathSegment → Composition
  | [] => .plain
  | [s] => ofSegment nested s
  | _ :: s :: segments => ofSegments nested (s :: segments)

/-- The composition of a name with its arguments. -/
def ofSegment (nested : Bool) : PathSegment → Composition
  | .mk name .none => ofName nested name
  | .mk name (.angled _ arguments _) => ofArguments nested name arguments

/-- The composition of a name with arguments in angle brackets. -/
def ofArguments (nested : Bool) (name : String) : List Argument → Composition
  | [.type t] => ofOne nested name (ofType nested t)
  | [.type key, .type value] => ofTwo nested name key.name (ofType nested value)
  | _ => ofName nested name

end

/-- Whether the composition is that of an object itself. -/
def isObject : Composition → Bool
  | .object => true
  | _ => false

/-- Whether an object is somewhere inside. -/
def containsObject : Composition → Bool
  | .plain => false
  | .object => true
  | .option inner => inner.containsObject
  | .list inner => inner.containsObject
  | .map _ value => value.containsObject

/-- The kind of member of a field that is not nested. -/
def leafKind : Composition → MemberKind
  | .map true value => if value.containsObject then .leaf else .leafDictionary
  | _ => .leaf

/-- The kind of member of a nested field. -/
def nestedKind : Composition → Except ShapeFault MemberKind
  | .object => .ok .object
  | .option inner => if inner.isObject then .ok .optionalObject else .error .unsupported
  | .list inner => if inner.isObject then .ok .collection else .error .unsupported
  | .map true value => if value.isObject then .ok .dictionary else .error .unsupported
  | .map false _ => .error .keyNotText
  | .plain => .error .notAnObject

/-- The kind of member of a field. -/
def memberKind (c : Composition) (nested : Bool) : Except ShapeFault MemberKind :=
  if nested then c.nestedKind else .ok c.leafKind

end Composition

end SelectiveMerge.Declaration
