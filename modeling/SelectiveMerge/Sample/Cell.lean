import SelectiveMerge.Merge.Outcome
import SelectiveMerge.Sample.Catalogue

/-!
# Single leaves

Leaf types by short names, and objects with a single leaf `V`, between which that
leaf is merged.
-/

namespace SelectiveMerge.Sample

open LeafType (signed unsigned)

/-- The leaf types that have a short name. -/
def cellTypes (scope : String) : List (String × LeafType) :=
  [("bool", .bool), ("char", .char), ("string", .text), ("i8", signed 8), ("i16", signed 16),
    ("i32", signed 32), ("i64", signed 64), ("i128", signed 128), ("u8", unsigned 8),
    ("u16", unsigned 16), ("u32", unsigned 32), ("u64", unsigned 64), ("u128", unsigned 128),
    ("f32", .float32), ("f64", .float64), ("unit", .unit), ("uuid", .uuid), ("value", .json),
    ("option<bool>", .option .bool), ("option<i64>", .option (signed 64)),
    ("option<u8>", .option (unsigned 8)), ("option<f64>", .option .float64),
    ("option<string>", .option .text), ("vec<i64>", .list (signed 64)),
    ("vec<string>", .list .text), ("option<vec<i64>>", .option (.list (signed 64))),
    ("vec<vec<i64>>", .list (.list (signed 64))), ("tuple", .tuple [signed 32, .text]),
    ("label", label scope), ("vec<label>", .list (label scope)), ("mood", mood scope),
    ("map<u32,string>", .dictionary (unsigned 32) .text),
    ("pairs", .dictionary (.tuple [signed 32, signed 32]) (signed 64))]

/-- The leaf type with a short name. -/
def cellType? (scope name : String) : Option LeafType :=
  ((cellTypes scope).find? (·.1 == name)).map (·.2)

/-- The catalogue of the two types with a single leaf. -/
def cellCatalogue (source target : LeafType) : Catalogue :=
  catalogue [Plan.schema "" "Source" [Plan.leaf "V" source],
    Plan.schema "" "Target" [Plan.leaf "V" target]]

/-- Merges a single leaf into another one. -/
def mergeCell (source target : LeafType) (patch original : Cell) : Outcome :=
  (Merger.plain (cellCatalogue source target) fun n => ⟨n⟩).merge
    ⟨"Source", [.leaf source patch]⟩ ⟨"Target", [.leaf target original]⟩
    (.object [("V", .null)]) 0

end SelectiveMerge.Sample
