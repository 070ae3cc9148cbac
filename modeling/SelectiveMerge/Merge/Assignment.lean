import SelectiveMerge.Merge.Session

/-!
# Assignments

What a merge does to a single member once its owner has been found: it takes the
value of the patch, coerced if need be, an optional object is unset, a list is
emptied. Each assignment asks the validator first and is recorded after it.
-/

namespace SelectiveMerge

/-- Whether a key names the identity of an object, which is never assigned. -/
def isIdentityKey (key : String) : Bool := Text.eqIgnoreCase key "id"

/-- The error of a member table whose accessors do not fit the object. -/
def tableMismatch (path : Path) (typeName : String) : MergeError :=
  .configuration path ("member table of `" ++ typeName ++ "` does not match the value")

namespace Merger

/-- The member of an object with a name. -/
def member? (m : Merger) (n : Node) (name : String) : Option Member :=
  (m.catalogue n.type).table.find? name m.options.ignoreCase

/-- The members with a name of the two objects; first the patch must have one. -/
def memberPair (m : Merger) (full : Path) (patch original : Node) (name : String) :
    Except MergeError (Member × Member) :=
  match m.member? patch name with
  | none => .error (.structuralMismatch full (m.catalogue.displayName patch) name)
  | some patchMember =>
      match m.member? original name with
      | none => .error (.structuralMismatch full (m.catalogue.displayName original) name)
      | some originalMember => .ok (patchMember, originalMember)

/-- Assigns the value of a patch leaf to a leaf of the original. -/
def assignLeaf (m : Merger) (full : Path) (patch original : Node) (member : Member)
    (sourceType : LeafType) (source : Cell) : Run Fields := do
  let value ← Run.ofExcept (source.encode.mapError fun fault => .serialization (.encoding fault))
  m.validate ⟨full, member.name, value, .updateProperty, some original, some patch⟩
  match original.target? member with
  | some (i, .leaf targetType _) =>
      match Coercion.coerce? targetType value with
      | some cell =>
          Run.record ⟨full, .updated, none⟩
          pure (original.fields.set i (.leaf targetType cell))
      | none => Run.fail (.coercion full value sourceType.name targetType.name)
  | _ => Run.fail (tableMismatch full (m.catalogue.displayName original))

/-- Unsets an optional object of the original. -/
def unsetObject (m : Merger) (full : Path) (patch original : Node) (member : Member) :
    Run Fields := do
  m.validate ⟨full, member.name, .null, .updateProperty, some original, some patch⟩
  match original.target? member with
  | some (i, .optional type _) =>
      Run.record ⟨full, .updated, none⟩
      pure (original.fields.set i (.optional type none))
  | _ => Run.fail (tableMismatch full (m.catalogue.displayName original))

/-- Assigns a member of the original from the patch. An override for the path runs
instead, and is neither validated nor checked against the tables. -/
def assignMember (m : Merger) (full : Path) (node : Json) (patch original : Node)
    (name : String) : Run Fields :=
  if isIdentityKey name then pure original.fields else
  match m.configuration.setAction? full with
  | some action => do
      let fields ← Run.ofExcept (action original patch)
      Run.record ⟨full, .custom, none⟩
      pure fields
  | none => do
      let (patchMember, originalMember) ← Run.ofExcept (m.memberPair full patch original name)
      match patch.read? patchMember, originalMember.kind with
      | some (.leaf type value), .leaf =>
          m.assignLeaf full patch original originalMember type value
      | some (.object none), .optionalObject => m.unsetObject full patch original originalMember
      | some (.leaf ..), kind => Run.fail (.typeMismatch full kind.shapeName "value")
      | some view, _ => Run.fail (.typeMismatch full view.shapeName node.typeName)
      | none, _ => Run.fail (tableMismatch full (m.catalogue.displayName patch))

/-- Assigns an entry of a dictionary of leaves from the patch. -/
def assignEntry (m : Merger) (full : Path) (patchType : LeafType)
    (patchEntries : List (String × Cell)) (originalType : LeafType)
    (originalEntries : List (String × Cell)) (key : String) : Run (List (String × Cell)) := do
  let source ← Run.require (.structuralMismatch full patchType.name key)
    (Dictionary.find? key patchEntries)
  let value ← Run.ofExcept (source.encode.mapError fun fault => .serialization (.encoding fault))
  m.validate ⟨full, key, value, .updateProperty, none, none⟩
  match Coercion.coerce? originalType value with
  | some cell =>
      Run.record ⟨full, .updated, none⟩
      pure (Dictionary.insert key cell originalEntries)
  | none => Run.fail (.coercion full value patchType.name originalType.name)

/-- Empties a list that is a leaf of the original. -/
def clearList (m : Merger) (full : Path) (node : Json) (patch original : Node)
    (member : Member) : Run Fields := do
  m.validate ⟨full, member.name, node, .updateProperty, some original, some patch⟩
  match original.target? member with
  | some (i, .leaf type _) =>
      match type.decode? (.array []) with
      | some cell =>
          Run.record ⟨full, .cleared, none⟩
          pure (original.fields.set i (.leaf type cell))
      | none => Run.fail (.typeMismatch full type.name "array")
  | _ => Run.fail (tableMismatch full (m.catalogue.displayName original))

end Merger

end SelectiveMerge
