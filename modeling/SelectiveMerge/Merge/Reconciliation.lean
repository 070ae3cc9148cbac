import SelectiveMerge.Graph.Collection
import SelectiveMerge.Json.Printer
import SelectiveMerge.Merge.Directive
import SelectiveMerge.Merge.Navigation

/-!
# Reconciliation of collections

An array in a payload that addresses a collection of objects is reconciled with
it, element by element. An element without identity adds an item, one with an
identity updates the item that has it, and one with an identity and a true
removal marker removes that item. Items that no element names stay, unless the
collection is to be replaced as a whole. An array that addresses anything else
assigns the member, and an empty one empties a list.

The directives of a payload and of its elements are run here, so that the module
ends with the run of a list of directives on a pair of objects.
-/

namespace SelectiveMerge

/-- What an element of an array asks for. -/
inductive Intent where
  | add
  | update (id : Uuid)
  | remove (id : Uuid)
  deriving DecidableEq

namespace Intent

/-- Whether the value of a removal marker asks for removal. -/
def asksRemoval : Json → Bool
  | .bool b => b
  | .string s => Text.eqIgnoreCase (Text.trim s) "true"
  | _ => false

/-- What an element asks for, given its identity. -/
def ofIdentity (options : Options) (members : List (String × Json)) (id : Uuid) : Intent :=
  if id.isNil then .add
  else if members.any fun member => options.isRemoveMarker member.1 && asksRemoval member.2 then
    .remove id
  else .update id

/-- What an element with these members asks for. Its identity is the value of its
first identity key; nothing, `null`, a blank text and the nil identifier are no
identity. -/
def ofMembers (options : Options) (full : Path) (members : List (String × Json)) :
    Except MergeError Intent :=
  let raw : Option Json := (members.find? fun member => isIdentityKey member.1).map (·.2)
  match raw with
  | none | some .null => .ok .add
  | some (.string s) =>
      if Text.isBlankText s then .ok .add
      else
        match Uuid.ofText? (Text.trim s) with
        | some id => .ok (ofIdentity options members id)
        | none => .error (.invalidIdentity full s)
  | some other => .error (.invalidIdentity full other.compact)

end Intent

/-- A collection that is being reconciled with an array: where it is, what it
holds, and its counterpart in the patch. -/
structure Reconciliation where
  full : Path
  property : String
  patchType : TypeName
  patchItems : List Fields
  type : TypeName

/-- The items of a collection under reconciliation, and the identities that the
array has named or added so far. -/
structure Reconciled where
  items : List Fields
  mentioned : List Uuid

namespace Merger

/-- What an unknown identity may be due to. -/
def identityHint (m : Merger) (type : TypeName) : String :=
  let schema := m.catalogue type
  if schema.identified then ""
  else " (element type `" ++ schema.typeName ++ "` does not implement the identity contract)"

/-- Removes the item at a position, which has the identity `id`. -/
def removeAt (m : Merger) (r : Reconciliation) (value : Json) (id : Uuid) (position : Nat)
    (items : List Fields) : Run (List Fields) := do
  m.validate ⟨r.full, r.property, value, .removeItem, Collection.item? r.type items position,
    m.catalogue.itemWithId? r.patchType r.patchItems id⟩
  Run.record ⟨r.full, .removed, some id⟩
  pure (items.eraseIdx position)

/-- Removes the item with an identity, which there must be. -/
def removeItem (m : Merger) (r : Reconciliation) (value : Json) (id : Uuid)
    (state : Reconciled) : Run Reconciled := do
  let position ← Run.require (.unknownIdentity r.full id (m.identityHint r.type))
    (m.catalogue.position? r.type state.items id)
  let items ← m.removeAt r value id position state.items
  pure { state with items }

/-- Makes the object for a new item. -/
def freshItem (m : Merger) (r : Reconciliation) (patchItem : Node) : Run Node :=
  match m.configuration.itemFactory? r.full with
  | some make => Run.ofExcept (make patchItem)
  | none => do
      let fields ← m.construct r.type r.full
      pure ⟨r.type, fields⟩

/-- Adds an item that is made and populated. -/
def pushItem (m : Merger) (r : Reconciliation) (value : Json) (patchItem item : Node)
    (state : Reconciled) : Run Reconciled := do
  m.validate ⟨r.full, r.property, value, .addItem, some item, some patchItem⟩
  match Collection.push m.catalogue r.type state.items item with
  | .ok items => do
      let id := (m.catalogue r.type).identity? item.fields
      Run.record ⟨r.full, .added, id⟩
      pure ⟨items, id.toList ++ state.mentioned⟩
  | .error found =>
      Run.fail (.configuration r.full ("new item is `" ++ found ++ "`, collection holds `" ++
        (m.catalogue r.type).typeName ++ "`"))

/-- The element of the patch at a position of the array. -/
def patchItemAt (m : Merger) (r : Reconciliation) (position : Nat) : Run Node :=
  Run.require
    (.structuralMismatch r.full (m.catalogue r.patchType).typeName
      ("[" ++ toString position ++ "]"))
    (Collection.item? r.patchType r.patchItems position)

/-- The position of the item with an identity and its counterpart in the patch,
both of which there must be. -/
def itemPair (m : Merger) (r : Reconciliation) (id : Uuid) (state : Reconciled) :
    Run (Nat × Fields × Node) := do
  let position ← Run.require (.unknownIdentity r.full id (m.identityHint r.type))
    (m.catalogue.position? r.type state.items id)
  let patchItem ← Run.require
    (.unknownIdentity r.full id (" in the patch graph" ++ m.identityHint r.patchType))
    (m.catalogue.itemWithId? r.patchType r.patchItems id)
  let item ← Run.require (.unknownIdentity r.full id "") state.items[position]?
  pure (position, item, patchItem)

/-- Removes the items whose identity was not mentioned. -/
def dropUnmentioned (m : Merger) (r : Reconciliation) (mentioned : List Uuid) :
    List Fields → Run (List Fields)
  | [] => pure []
  | item :: items =>
      match (m.catalogue r.type).identity? item with
      | some id =>
          if mentioned.contains id then do
            return item :: (← dropUnmentioned m r mentioned items)
          else do
            m.validate ⟨r.full, r.property, .null, .removeItem, some ⟨r.type, item⟩,
              m.catalogue.itemWithId? r.patchType r.patchItems id⟩
            Run.record ⟨r.full, .removed, some id⟩
            dropUnmentioned m r mentioned items
      | none => do return item :: (← dropUnmentioned m r mentioned items)

/-- The collection that a member of the patch shows, with the type of its items. -/
def patchCollection (m : Merger) (full : Path) (patch : Node) (member : Member) :
    Run (TypeName × List Fields) :=
  match patch.read? member with
  | some (.collection type items) => pure (type, items)
  | some view => Run.fail (.typeMismatch full "collection" view.shapeName)
  | none => Run.fail (tableMismatch full (m.catalogue.displayName patch))

/-- Whether the items of the collection that a member of the original shows have
identities. -/
def itemsIdentified (m : Merger) (full : Path) (original : Node) (member : Member) : Run Bool :=
  match original.read? member with
  | some (.collection type _) => pure (m.catalogue type).identified
  | _ => Run.fail (tableMismatch full (m.catalogue.displayName original))

/-- Asks whether a collection may be cleared, if it is to be. -/
def askToClear (m : Merger) (full : Path) (node : Json) (patch original : Node) (member : Member)
    (clears : Bool) : Run Unit :=
  if clears then m.validate ⟨full, member.name, node, .updateProperty, some original, some patch⟩
  else pure ()

/-- The items that are left when a collection is cleared, if it is to be; that
something was cleared is recorded. -/
def clearItems (full : Path) (clears : Bool) (items : List Fields) : Run (List Fields) :=
  if clears then
    if items.isEmpty then pure []
    else do
      Run.record ⟨full, .cleared, none⟩
      pure []
  else pure items

/-- The items that are left when those that were not mentioned are removed, if they
are to be. -/
def keepMentioned (m : Merger) (r : Reconciliation) (drops : Bool) (state : Reconciled) :
    Run (List Fields) :=
  if drops then m.dropUnmentioned r state.mentioned state.items else pure state.items

/-- Reconciles the collection that `member` of the original is written to. The
elements are run by `runElements`. -/
def reconcile (m : Merger) (full : Path) (node : Json) (elements : List Element)
    (runElements : Reconciliation → Reconciled → Run Reconciled)
    (patch original : Node) (patchMember member : Member) : Run Fields :=
  match elements.find? fun element => !element.value.isObject with
  | some stray => Run.fail (.typeMismatch full "object" stray.value.typeName)
  | none => do
      let (patchType, patchItems) ← m.patchCollection full patch patchMember
      let identified ← m.itemsIdentified full original member
      let force := m.configuration.forcesReplace full
      let clears := !identified && (elements.isEmpty || force)
      m.askToClear full node patch original member clears
      match original.target? member with
      | some (i, .collection type items) =>
          if elements.isEmpty && identified && !force then pure original.fields
          else do
            let r : Reconciliation := ⟨full, member.name, patchType, patchItems, type⟩
            let items ← clearItems full clears items
            let state ← runElements r ⟨items, []⟩
            let items ← m.keepMentioned r (force && identified) state
            pure (original.fields.set i (.collection type items))
      | _ => Run.fail (tableMismatch full (m.catalogue.displayName original))

/-- Applies an array to a member of the original. -/
def arrayMember (m : Merger) (full : Path) (node : Json) (elements : List Element)
    (runElements : Reconciliation → Reconciled → Run Reconciled)
    (patch original : Node) (name : String) : Run Fields :=
  if isIdentityKey name then pure original.fields else do
    let (patchMember, member) ← Run.ofExcept (m.memberPair full patch original name)
    if member.kind = .leaf ∧ elements.isEmpty ∧ (m.configuration.setAction? full).isNone then
      m.clearList full node patch original member
    else if member.kind ≠ .collection then m.assignMember full node patch original name
    else m.reconcile full node elements runElements patch original patchMember member

mutual

/-- Runs a directive on a pair of objects, of which the paths of the directive are
relative. `base` is the path of the pair. -/
def runDirective (m : Merger) (base : List String) (patch original : Node) :
    Directive → Run Fields
  | .scalar path value =>
      if (path.getLast?).any isIdentityKey then pure original.fields
      else
        m.visit value (m.assignMember ⟨base ++ path⟩ value) base path patch original
  | .array path elements =>
      let full : Path := ⟨base ++ path⟩
      let node : Json := .array (elements.map Element.value)
      m.visit node
        (m.arrayMember full node elements fun r state => runElements m r 0 elements state)
        base path patch original

/-- Runs directives one after another. -/
def runDirectives (m : Merger) (base : List String) (patch : Node) (type : TypeName) :
    List Directive → Fields → Run Fields
  | [], fields => pure fields
  | directive :: directives, fields => do
      let fields ← runDirective m base patch ⟨type, fields⟩ directive
      runDirectives m base patch type directives fields

/-- Runs the elements of an array, of which `position` came before. -/
def runElements (m : Merger) (r : Reconciliation) (position : Nat) :
    List Element → Reconciled → Run Reconciled
  | [], state => pure state
  | element :: elements, state => do
      let state ← runElement m r position element state
      runElements m r (position + 1) elements state

/-- Runs an element, which stands at `position` of the array. -/
def runElement (m : Merger) (r : Reconciliation) (position : Nat) :
    Element → Reconciled → Run Reconciled
  | .mk (.object members) directives, state => do
      match ← Run.ofExcept (Intent.ofMembers m.options r.full members) with
      | .add => do
          let patchItem ← m.patchItemAt r position
          let fresh ← m.freshItem r patchItem
          let fields ← Run.quietly
            (runDirectives m r.full.segments patchItem fresh.type directives fresh.fields)
          m.pushItem r (.object members) patchItem ⟨fresh.type, fields⟩ state
      | .update id => do
          let (index, item, patchItem) ← m.itemPair r id state
          let fields ← runDirectives m r.full.segments patchItem r.type directives item
          pure ⟨state.items.set index fields, id :: state.mentioned⟩
      | .remove id => m.removeItem r (.object members) id state
  | .mk _ _, state => pure state

end

end Merger

end SelectiveMerge
