import SelectiveMerge.Error
import SelectiveMerge.Graph.Schema

/-!
# Configuration of a merge

A configuration lists overrides for paths. An override runs an action of its own
instead of an assignment, makes the new items of a collection, or has a
collection replaced as a whole. Of the overrides of one sort that match a path
the first one holds.
-/

namespace SelectiveMerge

/-- The paths to which an override applies. -/
inductive PathMatcher where
  /-- One path, up to the case of ASCII letters. -/
  | exact (path : Path)
  /-- Every path that begins and ends with two given ones, which do not overlap in
  it. -/
  | range (start finish : Path)
  deriving DecidableEq

namespace PathMatcher

/-- Whether the override applies to a path. -/
def covers (m : PathMatcher) (full : Path) : Bool :=
  match m with
  | .exact path => full.eqIgnoreCase path
  | .range start finish =>
      start.length + finish.length ≤ full.length && full.startsWithIgnoreCase start &&
        full.endsWithIgnoreCase finish

/-- The path by which messages name the override. -/
def anchor : PathMatcher → Path
  | .exact path => path
  | .range start finish => start.join finish

end PathMatcher

/-- An action that runs instead of an assignment: from the owner of the member and
its counterpart in the patch it gives the new fields of the owner. -/
abbrev SetAction := (original patch : Node) → Except MergeError Fields

/-- Makes a new item of a collection from an item of the patch. -/
abbrev ItemFactory := (patchItem : Node) → Except MergeError Node

/-- What an override does. -/
inductive Override where
  | set (action : SetAction)
  | factory (make : ItemFactory)
  | forceReplace

/-- The name of an override in descriptions. -/
def Override.text : Override → String
  | .set _ => "Set(..)"
  | .factory _ => "Factory(..)"
  | .forceReplace => "ForceReplace"

/-- An override and the paths to which it applies. -/
structure ConfigurationEntry where
  matcher : PathMatcher
  override : Override

/-- The overrides of a merge. -/
structure Configuration where
  entries : List ConfigurationEntry

namespace Configuration

/-- No overrides. -/
def empty : Configuration := ⟨[]⟩

/-- The action of an entry that applies to a path. -/
def actionAt? (full : Path) (e : ConfigurationEntry) : Option SetAction :=
  match e.override with
  | .set action => if e.matcher.covers full then some action else none
  | _ => none

/-- The factory of an entry that applies to a path. -/
def factoryAt? (full : Path) (e : ConfigurationEntry) : Option ItemFactory :=
  match e.override with
  | .factory make => if e.matcher.covers full then some make else none
  | _ => none

/-- Whether an entry has the collection at a path replaced. -/
def forcesAt (full : Path) (e : ConfigurationEntry) : Bool :=
  match e.override with
  | .forceReplace => e.matcher.covers full
  | _ => false

/-- The action that runs instead of an assignment at a path. -/
def setAction? (c : Configuration) (full : Path) : Option SetAction :=
  c.entries.findSome? (actionAt? full)

/-- The factory for the items of the collection at a path. -/
def itemFactory? (c : Configuration) (full : Path) : Option ItemFactory :=
  c.entries.findSome? (factoryAt? full)

/-- Whether the collection at a path is replaced as a whole. -/
def forcesReplace (c : Configuration) (full : Path) : Bool := c.entries.any (forcesAt full)

/-- The position of the entry whose action `setAction?` gives. -/
def setPosition? (c : Configuration) (full : Path) : Option Nat :=
  c.entries.findIdx? fun e => (actionAt? full e).isSome

/-- The position of the entry whose factory `itemFactory?` gives. -/
def factoryPosition? (c : Configuration) (full : Path) : Option Nat :=
  c.entries.findIdx? fun e => (factoryAt? full e).isSome

/-- The positions of all entries that apply to a path. -/
def positions (c : Configuration) (full : Path) : List Nat :=
  (c.entries.zipIdx.filter fun e => e.1.matcher.covers full).map (·.2)

end Configuration

/-- An action for owners of given types, which refuses owners of others. -/
def SetAction.typed (c : Catalogue) (anchor : Path) (originalType patchType : TypeName)
    (action : (original patch : Fields) → Fields) : SetAction := fun original patch =>
  if original.type ≠ originalType then
    .error (.configuration anchor
      ("override expects original `" ++ (c originalType).qualifiedName ++ "`, got `" ++
        c.displayName original ++ "`"))
  else if patch.type ≠ patchType then
    .error (.configuration anchor
      ("override expects patch `" ++ (c patchType).qualifiedName ++ "`, got `" ++
        c.displayName patch ++ "`"))
  else .ok (action original.fields patch.fields)

/-- A factory for patch items of a given type, which refuses items of others. -/
def ItemFactory.typed (c : Catalogue) (anchor : Path) (originalType patchType : TypeName)
    (make : (patchItem : Fields) → Fields) : ItemFactory := fun patchItem =>
  if patchItem.type ≠ patchType then
    .error (.configuration anchor
      ("factory expects `" ++ (c patchType).qualifiedName ++ "`, got `" ++
        c.displayName patchItem ++ "`"))
  else .ok ⟨originalType, make patchItem.fields⟩

end SelectiveMerge
