import SelectiveMerge.Graph.Schema

/-!
# Collections

The operations on the items of a collection: one is looked up, removed or added. A
collection takes only items of its own type.
-/

namespace SelectiveMerge.Collection

/-- The item at a position. -/
def item? (type : TypeName) (items : List Fields) (i : Nat) : Option Node :=
  (items[i]?).map (Node.mk type)

/-- The items without the one at a position, if there is one. -/
def removeAt? (items : List Fields) (i : Nat) : Option (List Fields) :=
  if i < items.length then some (items.eraseIdx i) else none

/-- The items with one more at the end. An item of another type is refused, by the
name of its type. -/
def push (c : Catalogue) (type : TypeName) (items : List Fields) (item : Node) :
    Except String (List Fields) :=
  if item.type = type then .ok (items ++ [item.fields]) else .error (c.displayName item)

end SelectiveMerge.Collection
