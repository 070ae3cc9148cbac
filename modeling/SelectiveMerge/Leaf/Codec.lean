import SelectiveMerge.Json.Parser
import SelectiveMerge.Json.Printer
import SelectiveMerge.Leaf.Type
import SelectiveMerge.Text.Quoted

/-!
# JSON form of leaf values

`Cell.encode` gives the JSON form of a value, `LeafType.decode` reads it at a
type. Decoding is strict: an integer type takes an integer of its range only, a
floating-point type any number, a nullable type takes `null` as nothing, and the
other types exactly the JSON type that encoding gives, save that a record is
also read from the array of its fields and an enumeration from an object.
-/

namespace SelectiveMerge

/-- Why a value has no JSON form. -/
inductive EncodeFault where
  | numberOutOfRange
  | keyNotText
  deriving DecidableEq

/-- The wording of an encoding fault. -/
def EncodeFault.message : EncodeFault → String
  | .numberOutOfRange => "number out of range"
  | .keyNotText => "key must be a string"

/-- Why a JSON value does not decode at a type. -/
inductive DecodeFault where
  | invalidType (found expected : String)
  | invalidValue (found expected : String)
  | invalidLength (length : Nat) (expected : String)
  | missingField (name : String)
  | unknownVariant (name : String) (variants : List String)
  | notIdentifier (fault : Uuid.Fault)
  | keyNotNumber
  /-- A key that has to be a number breaks off the number that it begins. -/
  | keyUnreadable (fault : JsonSyntaxError)
  /-- A fault of a key that is a number, found after so many bytes of it. -/
  | ofKey (fault : DecodeFault) (column : Nat)
  deriving DecidableEq

/-- The variants of an enumeration in words. -/
def DecodeFault.alternatives : List String → String
  | [] => "there are no variants"
  | [a] => "expected `" ++ a ++ "`"
  | [a, b] => "expected `" ++ a ++ "` or `" ++ b ++ "`"
  | vs => "expected one of " ++ String.intercalate ", " (vs.map fun v => "`" ++ v ++ "`")

/-- The wording of a decoding fault. -/
def DecodeFault.message : DecodeFault → String
  | .invalidType found expected => "invalid type: " ++ found ++ ", expected " ++ expected
  | .invalidValue found expected => "invalid value: " ++ found ++ ", expected " ++ expected
  | .invalidLength n expected => "invalid length " ++ toString n ++ ", expected " ++ expected
  | .missingField n => "missing field `" ++ n ++ "`"
  | .unknownVariant n [] => "unknown variant `" ++ n ++ "`, there are no variants"
  | .unknownVariant n vs => "unknown variant `" ++ n ++ "`, " ++ DecodeFault.alternatives vs
  | .notIdentifier fault => "UUID parsing failed: " ++ fault.message
  | .keyNotNumber => "invalid value: expected key to be a number in quotes"
  | .keyUnreadable fault => fault.message
  | .ofKey fault column => fault.message ++ " at line 1 column " ++ toString column

namespace Cell

/-! ## Encoding -/

/-- The text of a dictionary key. -/
def encodeKey : Cell → Except EncodeFault String
  | .text s => .ok s
  | .int i => .ok (toString i)
  | .bool b => .ok (if b then "true" else "false")
  | .char c => .ok (String.singleton c)
  | .variant n => .ok n
  | .uuid u => .ok u.toText
  | _ => .error .keyNotText

mutual

/-- The JSON form of a value. Integers beyond 64 bits have none, and neither have
dictionaries whose keys are no texts; infinities and NaN become `null`. -/
def encode : Cell → Except EncodeFault Json
  | .unit => .ok .null
  | .bool b => .ok (.bool b)
  | .char c => .ok (.string (String.singleton c))
  | .text s => .ok (.string s)
  | .int i => if Json.fitsInt i then .ok (Json.ofInt i) else .error .numberOutOfRange
  | .float x => .ok (Json.ofBinary64 x)
  | .uuid u => .ok (.string u.toText)
  | .json j => .ok j
  | .option none => .ok .null
  | .option (some c) => c.encode
  | .list cs => do return .array (← encodeAll cs)
  | .tuple cs => do return .array (← encodeAll cs)
  | .record fields => do return .object (← encodeFields fields)
  | .variant n => .ok (.string n)
  | .dictionary entries => do return .object (← encodeEntries entries)

/-- The JSON forms of several values. -/
def encodeAll : List Cell → Except EncodeFault (List Json)
  | [] => .ok []
  | c :: cs => do
      let j ← c.encode
      return j :: (← encodeAll cs)

/-- The JSON forms of the fields of a record. -/
def encodeFields : List (String × Cell) → Except EncodeFault (List (String × Json))
  | [] => .ok []
  | (n, c) :: fields => do
      let j ← c.encode
      return (n, j) :: (← encodeFields fields)

/-- The JSON forms of the entries of a dictionary. -/
def encodeEntries : List (Cell × Cell) → Except EncodeFault (List (String × Json))
  | [] => .ok []
  | (k, c) :: entries => do
      let n ← encodeKey k
      let j ← c.encode
      return (n, j) :: (← encodeEntries entries)

end

/-! ## Dictionary keys -/

mutual

/-- The order of dictionary keys: integers by value, texts by code points, tuples
by their first difference. -/
def compareKeys : Cell → Cell → Ordering
  | .int i, .int j => compare i j
  | .text s, .text t => compare s t
  | .char c, .char d => compare c.toNat d.toNat
  | .bool a, .bool b => compare a.toNat b.toNat
  | .tuple as, .tuple bs => compareKeyLists as bs
  | _, _ => .eq

/-- The lexicographic order of lists of keys. -/
def compareKeyLists : List Cell → List Cell → Ordering
  | a :: as, b :: bs => (compareKeys a b).then (compareKeyLists as bs)
  | [], [] => .eq
  | [], _ :: _ => .lt
  | _ :: _, [] => .gt

end

/-- Puts an entry at its place, or replaces the entry with the same key. -/
def insertEntry (key value : Cell) : List (Cell × Cell) → List (Cell × Cell)
  | [] => [(key, value)]
  | (k, v) :: rest =>
      match compareKeys key k with
      | .lt => (key, value) :: (k, v) :: rest
      | .gt => (k, v) :: insertEntry key value rest
      | .eq => (key, value) :: rest

end Cell

namespace Json

/-- What a decoding fault calls a value. -/
def describe : Json → String
  | .null => "null"
  | .bool b => "boolean `" ++ (if b then "true" else "false") ++ "`"
  | .number (.int i) => "integer `" ++ toString i ++ "`"
  | .number (.float x) => "floating point `" ++ Shortest.text x ++ "`"
  | .string s => "string " ++ Text.quoted s
  | .array _ => "sequence"
  | .object _ => "map"

end Json

namespace LeafType

/-! ## Decoding -/

/-- What a decoding fault says is expected at a type. -/
def expectation : LeafType → String
  | .unit => "unit"
  | .bool => "a boolean"
  | .char => "a character"
  | .text => "a string"
  | .int t => t.name
  | .float32 => "f32"
  | .float64 => "f64"
  | .uuid => "a formatted UUID string"
  | .json => "any valid JSON value"
  | .option _ => "option"
  | .list _ => "a sequence"
  | .tuple ts => "a tuple of size " ++ toString ts.length
  | .record n _ => "struct " ++ bareName n
  | .enumeration _ _ => "string or map"
  | .dictionary _ _ => "a map"

/-- The fault of a value of the wrong JSON type. -/
def wrongType (t : LeafType) (j : Json) : DecodeFault := .invalidType j.describe t.expectation

/-- Reads a key that is a whole number. It has to begin with a digit or a minus sign and
to be a JSON number to its end. The number is judged before what follows it is. -/
def decodeNumericKey (type : IntType) (s : String) : Except DecodeFault Cell :=
  if !s.toList.head?.any fun c => c.isDigit || c == '-' then .error .keyNotNumber
  else
    match JsonReader.signedNumber (.start s) with
    | .error fault => .error (.keyUnreadable fault)
    | .ok (n, after) =>
        match n with
        | .int i =>
            if !type.contains i then
              .error (.ofKey (.invalidValue (Json.number n).describe type.name) after.column)
            else if after.rest.isEmpty then .ok (.int i)
            else .error .keyNotNumber
        | .float _ =>
            .error (.ofKey (.invalidType (Json.number n).describe type.name) after.column)

/-- Reads a dictionary key at its type. -/
def decodeKey (t : LeafType) (s : String) : Except DecodeFault Cell :=
  match t with
  | .text => .ok (.text s)
  | .int type => decodeNumericKey type s
  | t => .error (.invalidType ("string " ++ Text.quoted s) t.expectation)

/-- The fault of the first member of an object whose field does not decode. -/
def firstFault (decoded : List (String × Option (Except DecodeFault Cell)))
    (members : List (String × Json)) : Option DecodeFault :=
  members.findSome? fun member =>
    match decoded.find? (·.1 == member.1) with
    | some (_, some (.error fault)) => some fault
    | _ => none

/-- The fields of a record when each of them was found and decoded. -/
def completeFields :
    List (String × Option (Except DecodeFault Cell)) → Except DecodeFault (List (String × Cell))
  | [] => .ok []
  | (n, some (.ok c)) :: rest => do return (n, c) :: (← completeFields rest)
  | (_, some (.error fault)) :: _ => .error fault
  | (n, none) :: _ => .error (.missingField n)

mutual

/-- Reads a JSON value at a leaf type. -/
def decode : LeafType → Json → Except DecodeFault Cell
  | .unit, .null => .ok .unit
  | .bool, .bool b => .ok (.bool b)
  | .char, .string s =>
      match s.toList with
      | [c] => .ok (.char c)
      | _ => .error (.invalidValue (Json.string s).describe "a character")
  | .text, .string s => .ok (.text s)
  | .int t, .number (.int i) =>
      if t.contains i then .ok (.int i)
      else .error (.invalidValue (Json.ofInt i).describe t.name)
  | .float32, .number (.int i) => .ok (.float (Binary64.ofRatioBinary32 (i < 0) i.natAbs 1))
  | .float32, .number (.float x) => .ok (.float x.toBinary32)
  | .float64, .number (.int i) => .ok (.float (Binary64.ofInt i))
  | .float64, .number (.float x) => .ok (.float x)
  | .uuid, .string s =>
      match Uuid.read s with
      | .ok u => .ok (.uuid u)
      | .error fault => .error (.notIdentifier fault)
  | .json, j => .ok (.json j)
  | .option _, .null => .ok (.option none)
  | .option t, j => do return .option (some (← t.decode j))
  | .list t, .array items => do return .list (← items.mapM t.decode)
  | .tuple ts, .array items => do return .tuple (← decodeTuple ts.length ts 0 items)
  | .record _ fields, .object members =>
      let decoded := decodeFields fields members
      match firstFault decoded members with
      | some fault => .error fault
      | none => do return .record (← completeFields decoded)
  | .record n fields, .array items => do
      return .record (← decodeRow n fields.length fields 0 items)
  | .enumeration _ variants, .string s =>
      if variants.contains s then .ok (.variant s) else .error (.unknownVariant s variants)
  | .enumeration _ variants, .object members =>
      match members with
      | [(s, v)] =>
          if !variants.contains s then .error (.unknownVariant s variants)
          else if v = .null then .ok (.variant s)
          else .error (.invalidType v.describe "unit")
      | _ => .error (.invalidValue "map" "map with a single key")
  | .dictionary k t, .object members => do
      let entries ← members.mapM fun member => do
        let key ← decodeKey k member.1
        let value ← t.decode member.2
        return (key, value)
      return .dictionary (entries.foldl (fun acc entry => Cell.insertEntry entry.1 entry.2 acc) [])
  | t, j => .error (t.wrongType j)

/-- Reads the items of a tuple of `size` types, `position` of which are read. -/
def decodeTuple (size : Nat) : List LeafType → Nat → List Json → Except DecodeFault (List Cell)
  | [], _, [] => .ok []
  | [], position, items =>
      .error (.invalidLength (position + items.length) "fewer elements in array")
  | _ :: _, position, [] =>
      .error (.invalidLength position ("a tuple of size " ++ toString size))
  | t :: ts, position, item :: items => do
      let c ← t.decode item
      return c :: (← decodeTuple size ts (position + 1) items)

/-- Reads the fields of a record from the items of an array. -/
def decodeRow (n : String) (size : Nat) :
    List (String × LeafType) → Nat → List Json → Except DecodeFault (List (String × Cell))
  | [], _, [] => .ok []
  | [], position, items =>
      .error (.invalidLength (position + items.length) "fewer elements in array")
  | _ :: _, position, [] =>
      .error (.invalidLength position
        ("struct " ++ bareName n ++ " with " ++ toString size ++ " elements"))
  | (name, t) :: fields, position, item :: items => do
      let c ← t.decode item
      return (name, c) :: (← decodeRow n size fields (position + 1) items)

/-- Reads the fields of a record from the members of an object; members that are
no fields are ignored. -/
def decodeFields : List (String × LeafType) → List (String × Json) →
    List (String × Option (Except DecodeFault Cell))
  | [], _ => []
  | (name, t) :: fields, members =>
      (name, ((members.find? (·.1 == name)).map (·.2)).map t.decode) :: decodeFields fields members

end

/-- The value that a JSON value decodes to, if it does. -/
def decode? (t : LeafType) (j : Json) : Option Cell := (t.decode j).toOption

end LeafType

end SelectiveMerge
