import SelectiveMerge.Merge.Configuration
import SelectiveMerge.Text.Blank
import SelectiveMerge.Text.Casing

/-!
# Sample overrides

Actions and factories for the sample types: some for owners of fixed types, which
refuse others, and `copyLeaf`, which copies any leaf to any other one without
coercion.
-/

namespace SelectiveMerge.Sample

/-! ## Access to fields -/

/-- The text in a field; nothing else counts as a text. -/
def textAt (i : Nat) (fields : Fields) : String :=
  match fields[i]? with
  | some (.leaf _ (.text s)) => s
  | _ => ""

/-- The text in a field that may hold none. -/
def textAt? (i : Nat) (fields : Fields) : Option String :=
  match fields[i]? with
  | some (.leaf _ (.option (some (.text s)))) => some s
  | _ => none

/-- Puts a text into a field. -/
def setTextAt (i : Nat) (s : String) (fields : Fields) : Fields :=
  fields.set i (.leaf .text (.text s))

/-! ## Actions -/

/-- Leaves the owner as it is. -/
def keepOwner : SetAction := fun original _ => .ok original.fields

/-- Refuses every assignment. -/
def refuse (message : String) : SetAction := fun _ _ => .error (.configuration ⟨["Hook"]⟩ message)

/-- Trims the number of a phone; both owners have it in the second field. -/
def trimNumber (original patch : Fields) : Fields := setTextAt 1 (Text.trim (textAt 1 patch)) original

/-- Puts the last name of a person in capital letters. -/
def capitalizeName (original patch : Fields) : Fields :=
  setTextAt 2 (Text.upper (textAt 2 patch)) original

/-- Marks the last name of a person as sent, or a hyphen if none was sent. -/
def markName (original patch : Fields) : Fields :=
  setTextAt 2 ((textAt? 1 patch).getD "-" ++ "!") original

/-- A text changed, any other value as it is. -/
def mapText (change : String → String) : Json → Json
  | .string s => .string (change s)
  | j => j

/-- The value of the leaf of the patch with exactly a name. -/
def patchLeaf? (c : Catalogue) (patch : Node) (name : String) : Option Cell :=
  match ((c patch.type).table.find? name false).bind patch.read? with
  | some (.leaf _ value) => some value
  | _ => none

/-- The leaf of the owner with exactly a name, by its number and type. -/
def ownerLeaf? (c : Catalogue) (original : Node) (name : String) : Option (Nat × LeafType) :=
  match ((c original.type).table.find? name false).bind original.target? with
  | some (i, .leaf type _) => some (i, type)
  | _ => none

/-- Copies the leaf `source` of the patch to the leaf `target` of the owner. -/
def copyLeaf (c : Catalogue) (source target : String) (change : String → String) : SetAction :=
  fun original patch =>
    match patchLeaf? c patch source with
    | none => .error (.configuration (Path.parse target) "no such patch leaf")
    | some cell => do
        let value ← cell.encode.mapError fun fault => .serialization (.encoding fault)
        match ownerLeaf? c original target with
        | none => .error (.configuration (Path.parse target) "no such original leaf")
        | some (i, type) =>
            let made ← (type.decode (mapText change value)).mapError fun fault =>
              .serialization (.decoding fault)
            .ok (original.fields.set i (.leaf type made))

/-! ## Factories -/

/-- Makes a verified phone from a phone. -/
def makePhone (id : Uuid) (patchItem : Fields) : Fields :=
  [.leaf .uuid (.uuid id), .leaf .text (.text ("made from " ++ textAt 1 patchItem)),
    .leaf .bool (.bool true),
    .leaf (.option (.int ⟨false, 32⟩)) (.option (some (.int 1)))]

/-- Makes a phone without number from a phone that was sent; one with a country code
counts as verified. -/
def makeSentPhone (id : Uuid) (patchItem : Fields) : Fields :=
  [.leaf .uuid (.uuid id), .leaf .text (.text ""),
    .leaf .bool (.bool ((textAt 1 patchItem).toList.head? == some '+')),
    .leaf (.option (.int ⟨false, 32⟩)) (.option none)]

/-- Makes a copy of a vault. -/
def makeVault (patchItem : Fields) : Fields :=
  [.leaf .text (.text ("copy of " ++ textAt 0 patchItem))]

/-- Makes the same item every time. -/
def makeAlways (item : Node) : ItemFactory := fun _ => .ok item

/-- Makes no item. -/
def makeNone (message : String) : ItemFactory := fun _ => .error (.malformedInput "factory" message)

end SelectiveMerge.Sample
