import SelectiveMerge.Json.Basic
import SelectiveMerge.Options

/-!
# Directives of a payload

A payload is read as a list of directives. Each scalar and each array that is
reached from the root through object keys is one: it addresses a member by the
keys on the way. Keys equal to the removal marker, with all that is below them,
give none. Directives come in level order: by the number of keys, and within a
level in the order of the document. The elements of an array are read in the same
way, each with directives relative to itself.
-/

namespace SelectiveMerge

mutual

/-- What a payload says about the member at a path. -/
inductive Directive where
  /-- A scalar: the member takes the value of the patch. -/
  | scalar (path : List String) (value : Json)
  /-- An array: a list takes the value of the patch, a collection is reconciled. -/
  | array (path : List String) (elements : List Element)

/-- An element of an array: its JSON value, and its directives if it is an object. -/
inductive Element where
  | mk (value : Json) (directives : List Directive)

end

namespace Element

/-- The JSON value of an element. -/
def value : Element → Json
  | .mk value _ => value

/-- The directives of an element. -/
def directives : Element → List Directive
  | .mk _ directives => directives

end Element

namespace Directive

/-- The keys on the way to the value. -/
def path : Directive → List String
  | .scalar path _ => path
  | .array path _ => path

/-- The JSON value of a directive. -/
def node : Directive → Json
  | .scalar _ value => value
  | .array _ elements => .array (elements.map Element.value)

/-- Lists of levels side by side: the first levels joined, then the second ones,
and so on. -/
def joinLevels {α : Type} : List (List α) → List (List α) → List (List α)
  | [], bs => bs
  | as, [] => as
  | a :: as, b :: bs => (a ++ b) :: joinLevels as bs

mutual

/-- The directives of the value at a path, by the number of further keys. -/
def levels (options : Options) (path : List String) : Json → List (List Directive)
  | .object members => [] :: memberLevels options path members
  | .array items => [[.array path (elements options items)]]
  | .null => [[.scalar path .null]]
  | .bool b => [[.scalar path (.bool b)]]
  | .number n => [[.scalar path (.number n)]]
  | .string s => [[.scalar path (.string s)]]

/-- The directives of the members of an object at a path. -/
def memberLevels (options : Options) (path : List String) :
    List (String × Json) → List (List Directive)
  | [] => []
  | (key, value) :: members =>
      if options.isRemoveMarker key then memberLevels options path members
      else joinLevels (levels options (path ++ [key]) value) (memberLevels options path members)

/-- The elements of an array. -/
def elements (options : Options) : List Json → List Element
  | [] => []
  | .object members :: items =>
      .mk (.object members) (memberLevels options [] members).flatten :: elements options items
  | item :: items => .mk item [] :: elements options items

end

/-- The directives of a payload that is an object with these members. -/
def ofMembers (options : Options) (members : List (String × Json)) : List Directive :=
  (memberLevels options [] members).flatten

end Directive

end SelectiveMerge
