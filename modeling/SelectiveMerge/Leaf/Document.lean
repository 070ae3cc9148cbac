import SelectiveMerge.Leaf.Codec
import SelectiveMerge.Number.Numeral

/-!
# Leaf values in documents

Documents hold object graphs as JSON, and their leaves without loss. The form of a
leaf is its JSON form, except for three things that have none: the floating-point
values without digits are written by name, integers of 128 bits as decimal texts,
and a dictionary whose keys are tuples as the array of its entries.
-/

namespace SelectiveMerge

namespace Binary64

/-- The form of a floating-point number in a document. -/
def toDocument (x : Binary64) : Json :=
  if x.isNaN then .string "NaN"
  else if x.isFinite then .number (.float x)
  else .string (if x.isNegative then "-Infinity" else "Infinity")

/-- The floating-point values without digits, by name. -/
def ofName? (s : String) : Option Binary64 :=
  if s = "NaN" then some nan
  else if s = "Infinity" ∨ s = "inf" then some (infinity false)
  else if s = "-Infinity" ∨ s = "-inf" then some (infinity true)
  else none

end Binary64

/-- Whether the values of an integer type are written as decimal texts. -/
def IntType.isWide (t : IntType) : Bool := t.bits == 128

namespace LeafType

mutual

/-- The form of a value of a type in a document. -/
def toDocument : LeafType → Cell → Json
  | .float32, .float x => x.toDocument
  | .float64, .float x => x.toDocument
  | .int t, .int i => if t.isWide then .string (toString i) else Json.ofInt i
  | .option t, .option (some c) => t.toDocument c
  | .list t, .list cells => .array (cells.map t.toDocument)
  | .tuple ts, .tuple cells => .array (tupleToDocument ts cells)
  | .dictionary (.tuple ts) v, .dictionary entries =>
      .array (entries.map fun entry =>
        .array [(LeafType.tuple ts).toDocument entry.1, v.toDocument entry.2])
  | _, c =>
      match c.encode with
      | .ok j => j
      | .error _ => .null

/-- The forms of the items of a tuple. -/
def tupleToDocument : List LeafType → List Cell → List Json
  | t :: ts, c :: cells => t.toDocument c :: tupleToDocument ts cells
  | _, _ => []

end

mutual

/-- Reads a value of a type from a document. -/
def ofDocument? : LeafType → Json → Option Cell
  | .float32, .string s => (Binary64.ofName? s).map Cell.float
  | .float64, .string s => (Binary64.ofName? s).map Cell.float
  | .int t, .string s =>
      if t.isWide then ((Numeral.int? s.toList).filter t.contains).map Cell.int else none
  | .option t, j => if j = .null then some (.option none) else
      (t.ofDocument? j).map fun c => .option (some c)
  | .list t, .array items => (items.mapM t.ofDocument?).map Cell.list
  | .tuple ts, .array items => (tupleOfDocument? ts items).map Cell.tuple
  | .dictionary (.tuple ts) v, .array items => do
      let entries ← items.mapM fun
        | .array [key, value] => do
            let k ← (LeafType.tuple ts).ofDocument? key
            let c ← v.ofDocument? value
            some (k, c)
        | _ => none
      some (.dictionary (entries.foldl (fun acc e => Cell.insertEntry e.1 e.2 acc) []))
  | t, j => t.decode? j

/-- Reads the items of a tuple. -/
def tupleOfDocument? : List LeafType → List Json → Option (List Cell)
  | [], [] => some []
  | t :: ts, j :: items => do
      let c ← t.ofDocument? j
      let cells ← tupleOfDocument? ts items
      some (c :: cells)
  | _, _ => none

end

end LeafType

end SelectiveMerge
