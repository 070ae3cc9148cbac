import SelectiveMerge.Merge.Assignment

/-!
# Navigation

The two objects of a merge are navigated together along a path, until the pair of
objects is reached that own the member named last. Optional objects and
dictionary entries that the original lacks are made on the way; the patch must
have them. A path that ends inside a dictionary of leaves assigns the entry.

`Merger.visit` returns the new fields of the original it started from: what the
visitor made of the last owner, put back in its place.
-/

namespace SelectiveMerge.Merger

/-- Visits the owners of the last segment of `rest`, which starts at `patch` and
`original`; `before` are the segments of the full path that led there. The visitor
gets the two owners and the name of the member. -/
def visit (m : Merger) (node : Json) (onMember : (patch original : Node) → String → Run Fields)
    (before : List String) : (rest : List String) → (patch original : Node) → Run Fields
  | [], _, _ => Run.fail (.malformedInput "path" "empty member path")
  | [name], patch, original => onMember patch original name
  | name :: key :: rest, patch, original => do
      let full : Path := ⟨before ++ name :: key :: rest⟩
      let here : Path := ⟨before ++ [name]⟩
      let (patchMember, originalMember) ← Run.ofExcept (m.memberPair full patch original name)
      match patch.read? patchMember, original.target? originalMember with
      | some (.object (some p)), some (i, .object type fields) => do
          let made ← m.visit node onMember here.segments (key :: rest) p ⟨type, fields⟩
          pure (original.fields.set i (.object type made))
      | some (.object (some p)), some (i, .optional type present) => do
          let fields ← m.ensure type here present
          let made ← m.visit node onMember here.segments (key :: rest) p ⟨type, fields⟩
          pure (original.fields.set i (.optional type (some made)))
      | some (.object none), some (_, .object ..) | some (.object none), some (_, .optional ..) =>
          Run.fail (.typeMismatch here "object" "null")
      | some (.dictionary patchType patchEntries), some (i, .dictionary type entries) =>
          match rest with
          | [] => Run.fail (.typeMismatch full "object" node.typeName)
          | next :: rest => do
              let p ← Run.require (.structuralMismatch full (m.catalogue patchType).typeName key)
                (Dictionary.find? key patchEntries)
              let fields ← m.ensure type (here.child key) (Dictionary.find? key entries)
              let made ← m.visit node onMember (here.child key).segments (next :: rest)
                ⟨patchType, p⟩ ⟨type, fields⟩
              pure (original.fields.set i (.dictionary type (Dictionary.insert key made entries)))
      | some (.leafDictionary patchType patchEntries), some (i, .leafDictionary type entries) =>
          match rest with
          | [] => do
              let made ← m.assignEntry full patchType patchEntries type entries key
              pure (original.fields.set i (.leafDictionary type made))
          | _ :: _ => Run.fail (.typeMismatch (here.child key) "value" "object")
      | some view, some (_, slot) =>
          if view.shapeName ≠ slot.shapeName then
            Run.fail (.typeMismatch here slot.shapeName view.shapeName)
          else Run.fail (.typeMismatch here slot.shapeName "object")
      | none, _ => Run.fail (tableMismatch here (m.catalogue.displayName patch))
      | _, none => Run.fail (tableMismatch here (m.catalogue.displayName original))

end SelectiveMerge.Merger
