import SelectiveMerge.Proofs.Typing
import SelectiveMerge.Proofs.Unambiguous

/-!
# The effect of a merge

What a merge without overrides does to an object depends on the record of the merge only
through the identities that it is given. The effect of a directive says what becomes of the
fields of an object, which identities are taken up for it, and which changes it is recorded
with.

* `Effect`, `Effect.Then` — effects, one after the other
* `Merger.Lands` — keys that lead to a place where something is done
* `Merger.Copies`, `Merger.ArrayTakes`, `Merger.ElementTakes` — what is done there
* `Merger.effect`, `Merger.effects` — the effect of a directive, and of a list of them
-/

namespace SelectiveMerge

/-- What is done to a value: the value before, the identities that are taken up, the changes
that are recorded, and the value after. -/
abbrev Effect (α : Type) := α → List Uuid → List Change → α → Prop

namespace Effect

variable {α : Type}

/-- Nothing is done. -/
inductive Idle : α → List Uuid → List Change → α → Prop where
  | intro {a : α} : Idle a [] [] a

/-- Two things are done, one after the other. -/
inductive Then (x y : Effect α) : α → List Uuid → List Change → α → Prop where
  | intro {a b c : α} {ids later : List Uuid} {changes more : List Change}
      (hfirst : x a ids changes b) (hsecond : y b later more c) :
      Then x y a (ids ++ later) (changes ++ more) c

end Effect

namespace Merger

/-! ## What is done where keys lead to -/

/-- An object that was found, or else one that is made from nothing, with the identities that
it takes up. -/
inductive Provides (m : Merger) (type : TypeName) : Option Fields → List Uuid → Fields → Prop where
  | found {fields : Fields} : Provides m type (some fields) [] fields
  | plain (hconstructible : (m.catalogue type).constructible = true)
      (hfresh : (m.catalogue type).needsFreshIdentity = false) :
      Provides m type none [] (m.catalogue type).initialFields
  | fresh {id : Uuid} (hconstructible : (m.catalogue type).constructible = true)
      (hfresh : (m.catalogue type).needsFreshIdentity = true) :
      Provides m type none [id]
        ((m.catalogue type).withIdentity id (m.catalogue type).initialFields)

/-- What is done to a slot, given what the patch shows in its place. -/
abbrev Act := Option View → Effect Slot

/-- Keys lead to a slot where something is done, side by side with what the patch shows.
Objects that are missing on the way are made. -/
inductive Lands (m : Merger) (full : Path) (act : Act) :
    List String → Option View → Slot → List Uuid → List Change → Slot → Prop where
  | here {view : Option View} {old new : Slot} {ids : List Uuid} {changes : List Change}
      (hact : act view old ids changes new) : Lands m full act [] view old ids changes new
  /-- Nothing is done to the identity of an object. -/
  | identity {name : String} {patch : Node} {type : TypeName} {fields : Fields}
      (hid : isIdentityKey name = true) :
      Lands m full act [name] (some (.object (some patch))) (.object type fields) [] []
        (.object type fields)
  /-- A key goes to a field that is as it is declared. -/
  | field {name : String} {rest : List String} {patch : Node} {type : TypeName}
      {fields : Fields} {pm om : Member} {i : Nat} {old new : Slot} {ids : List Uuid}
      {changes : List Change} (hid : rest = [] → isIdentityKey name = false)
      (hpm : m.member? patch name = some pm) (hom : m.member? ⟨type, fields⟩ name = some om)
      (hwrites : om.writes = some i) (hslot : fields[i]? = some old)
      (hplace : m.under (.owner type) name = old.place)
      (hkind : rest = [] → om.kind = old.kind)
      (hrest : Lands m full act rest (patch.read? pm) old ids changes new) :
      Lands m full act (name :: rest) (some (.object (some patch))) (.object type fields)
        ids changes (.object type (fields.set i new))
  /-- An optional object is made when it is not set. -/
  | optional {key : String} {rest : List String} {patch : Node} {type : TypeName}
      {present : Option Fields} {fields made : Fields} {fresh ids : List Uuid}
      {changes : List Change} (hprovides : m.Provides type present fresh fields)
      (hrest : Lands m full act (key :: rest) (some (.object (some patch)))
        (.object type fields) ids changes (.object type made)) :
      Lands m full act (key :: rest) (some (.object (some patch))) (.optional type present)
        (fresh ++ ids) changes (.optional type (some made))
  /-- An entry of a dictionary is made when it is missing. -/
  | entry {key next : String} {rest : List String} {patchType type : TypeName}
      {patchEntries entries : List (String × Fields)} {p fields made : Fields}
      {fresh ids : List Uuid} {changes : List Change}
      (hpatch : Dictionary.find? key patchEntries = some p)
      (hprovides : m.Provides type (Dictionary.find? key entries) fresh fields)
      (hrest : Lands m full act (next :: rest) (some (.object (some ⟨patchType, p⟩)))
        (.object type fields) ids changes (.object type made)) :
      Lands m full act (key :: next :: rest) (some (.dictionary patchType patchEntries))
        (.dictionary type entries) (fresh ++ ids) changes
        (.dictionary type (Dictionary.insert key made entries))
  /-- An entry of a dictionary of leaves takes the value of the patch. -/
  | cell {key : String} {patchType type : LeafType}
      {patchEntries entries : List (String × Cell)} {source cell : Cell} {value : Json}
      (hsource : Dictionary.find? key patchEntries = some source)
      (hencode : source.encode = .ok value)
      (hcoerce : Coercion.coerce? type value = some cell) :
      Lands m full act [key] (some (.leafDictionary patchType patchEntries))
        (.leafDictionary type entries) [] [⟨full, .updated, none⟩]
        (.leafDictionary type (Dictionary.insert key cell entries))

/-- A slot takes over what the patch shows. -/
inductive Copies (full : Path) :
    Option View → Slot → List Uuid → List Change → Slot → Prop where
  | leaf {patchType type : LeafType} {source old cell : Cell} {value : Json}
      (hencode : source.encode = .ok value)
      (hcoerce : Coercion.coerce? type value = some cell) :
      Copies full (some (.leaf patchType source)) (.leaf type old) []
        [⟨full, .updated, none⟩] (.leaf type cell)
  | unset {type : TypeName} {old : Option Fields} :
      Copies full (some (.object none)) (.optional type old) [] [⟨full, .updated, none⟩]
        (.optional type none)

/-- What an array does to a slot. `inner` is what its elements do to the items of a
collection, given the type and the items of the one that the patch shows and the type of the
items. -/
inductive ArrayTakes (m : Merger) (full : Path) (elements : List Element)
    (inner : TypeName → List Fields → TypeName → Effect (List Fields)) :
    Option View → Slot → List Uuid → List Change → Slot → Prop where
  /-- The empty array empties a list. -/
  | emptied {view : Option View} {type : LeafType} {old cell : Cell} (helements : elements = [])
      (hcell : type.decode? (.array []) = some cell) :
      ArrayTakes m full elements inner view (.leaf type old) [] [⟨full, .cleared, none⟩]
        (.leaf type cell)
  /-- What is no collection is taken over as a whole. -/
  | assigned {view : Option View} {old new : Slot} {ids : List Uuid} {changes : List Change}
      (helements : old.kind = .leaf → elements ≠ [])
      (htakes : Copies full view old ids changes new) :
      ArrayTakes m full elements inner view old ids changes new
  /-- The empty array clears a collection of items without identities. -/
  | cleared {patchType type : TypeName} {patchItems items : List Fields}
      (helements : elements = []) (hidentified : (m.catalogue type).identified = false) :
      ArrayTakes m full elements inner (some (.collection patchType patchItems))
        (.collection type items) [] (if items = [] then [] else [⟨full, .cleared, none⟩])
        (.collection type [])
  | reconciled {patchType type : TypeName} {patchItems items left : List Fields}
      {ids : List Uuid} {changes : List Change}
      (hkept : elements = [] → (m.catalogue type).identified = true)
      (hobjects : ∀ e ∈ elements, e.value.isObject = true)
      (hinner : inner patchType patchItems type items ids changes left) :
      ArrayTakes m full elements inner (some (.collection patchType patchItems))
        (.collection type items) ids changes (.collection type left)

/-- What an element with these members does to the items of a collection. `inner` is what its
directives do to an item, given its counterpart in the patch. -/
inductive ElementTakes (m : Merger) (full : Path) (patchType : TypeName)
    (patchItems : List Fields) (type : TypeName) (position : Nat)
    (members : List (String × Json)) (inner : Node → Effect Fields) (items : List Fields) :
    List Uuid → List Change → List Fields → Prop where
  /-- A new item is made and populated without a change being recorded. -/
  | add {p fields made : Fields} {fresh ids : List Uuid} {changes : List Change}
      (hintent : Intent.ofMembers m.options full members = .ok .add)
      (hpatch : patchItems[position]? = some p)
      (hprovides : m.Provides type none fresh fields)
      (hinner : inner ⟨patchType, p⟩ fields ids changes made) :
      ElementTakes m full patchType patchItems type position members inner items
        (fresh ++ ids) [⟨full, .added, (m.catalogue type).identity? made⟩] (items ++ [made])
  | update {id : Uuid} {index : Nat} {item made : Fields} {patchItem : Node} {ids : List Uuid}
      {changes : List Change}
      (hintent : Intent.ofMembers m.options full members = .ok (.update id))
      (hindex : m.catalogue.position? type items id = some index)
      (hitem : items[index]? = some item)
      (hpatch : m.catalogue.itemWithId? patchType patchItems id = some patchItem)
      (hinner : inner patchItem item ids changes made) :
      ElementTakes m full patchType patchItems type position members inner items ids changes
        (items.set index made)
  | remove {id : Uuid} {index : Nat}
      (hintent : Intent.ofMembers m.options full members = .ok (.remove id))
      (hindex : m.catalogue.position? type items id = some index) :
      ElementTakes m full patchType patchItems type position members inner items []
        [⟨full, .removed, some id⟩] (items.eraseIdx index)

mutual

/-- The effect of a directive on the fields of an object, side by side with an object of the
patch. -/
def effect (m : Merger) (base : List String) (patch : Node) (type : TypeName) :
    Directive → Effect Fields
  | .scalar path _ => fun fields ids changes made =>
      if (path.getLast?).any isIdentityKey then Effect.Idle fields ids changes made
      else m.Lands ⟨base ++ path⟩ (Copies ⟨base ++ path⟩) path (some (.object (some patch)))
        (.object type fields) ids changes (.object type made)
  | .array path elements => fun fields ids changes made =>
      m.Lands ⟨base ++ path⟩
        (m.ArrayTakes ⟨base ++ path⟩ elements fun patchType patchItems itemType =>
          elementsEffect m ⟨base ++ path⟩ patchType patchItems itemType 0 elements)
        path (some (.object (some patch))) (.object type fields) ids changes (.object type made)

/-- The effect of directives, one after the other. -/
def effects (m : Merger) (base : List String) (patch : Node) (type : TypeName) :
    List Directive → Effect Fields
  | [] => Effect.Idle
  | directive :: directives =>
      Effect.Then (effect m base patch type directive) (effects m base patch type directives)

/-- The effect of the elements of an array, of which `position` came before, on the items of
a collection. -/
def elementsEffect (m : Merger) (full : Path) (patchType : TypeName) (patchItems : List Fields)
    (type : TypeName) (position : Nat) : List Element → Effect (List Fields)
  | [] => Effect.Idle
  | element :: elements =>
      Effect.Then (elementEffect m full patchType patchItems type position element)
        (elementsEffect m full patchType patchItems type (position + 1) elements)

/-- The effect of an element, which stands at `position` of the array. -/
def elementEffect (m : Merger) (full : Path) (patchType : TypeName) (patchItems : List Fields)
    (type : TypeName) (position : Nat) : Element → Effect (List Fields)
  | .mk (.object members) directives =>
      m.ElementTakes full patchType patchItems type position members fun patchItem =>
        effects m full.segments patchItem type directives
  | .mk _ _ => Effect.Idle

end

variable {m : Merger} {base : List String} {patch : Node} {type : TypeName} {path : List String}
  {value : Json} {fields made : Fields} {ids : List Uuid} {changes : List Change}

theorem effect_scalar_of_identity (hid : (path.getLast?).any isIdentityKey = true) :
    m.effect base patch type (.scalar path value) fields ids changes made ↔
      Effect.Idle fields ids changes made := by
  simp only [effect, if_pos hid]

theorem effect_scalar (hid : (path.getLast?).any isIdentityKey = false) :
    m.effect base patch type (.scalar path value) fields ids changes made ↔
      m.Lands ⟨base ++ path⟩ (Copies ⟨base ++ path⟩) path (some (.object (some patch)))
        (.object type fields) ids changes (.object type made) := by
  simp only [effect, hid, Bool.false_eq_true, if_false]

/-- What an array with these elements does where its path leads to. -/
abbrev arrayAct (m : Merger) (full : Path) (elements : List Element) : Act :=
  m.ArrayTakes full elements fun patchType patchItems itemType =>
    elementsEffect m full patchType patchItems itemType 0 elements

theorem effect_array {elements : List Element} :
    m.effect base patch type (.array path elements) fields ids changes made ↔
      m.Lands ⟨base ++ path⟩ (m.arrayAct ⟨base ++ path⟩ elements) path
        (some (.object (some patch))) (.object type fields) ids changes (.object type made) := by
  rw [effect]

/-- Keys that lead on from an object lead on through an object of the patch, and leave an
object. -/
theorem Lands.of_object {act : Act} {key : String} {rest : List String} {view : Option View}
    {new : Slot} (h : m.Lands full act (key :: rest) view (.object type fields) ids changes new) :
    ∃ p made, view = some (.object (some p)) ∧ new = .object type made := by
  cases h with
  | identity | field => exact ⟨_, _, rfl, rfl⟩

end Merger

end SelectiveMerge
