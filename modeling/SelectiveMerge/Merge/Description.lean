import SelectiveMerge.Json.Printer
import SelectiveMerge.Merge.Session
import SelectiveMerge.Text.Quoted

/-!
# Descriptions

Texts that show the parts of a merge in full, for logs: JSON values with their
types, requests, members, and the overrides and options of a merger. Texts inside
are quoted.
-/

namespace SelectiveMerge

/-- A description of the form `Name { field: value, … }`. -/
def describeRecord (name : String) (fields : List (String × String)) : String :=
  name ++ " \x7b " ++ String.intercalate ", " (fields.map fun f => f.1 ++ ": " ++ f.2) ++ " \x7d"

/-- A description of the form `[item, …]`. -/
def describeList (items : List String) : String := "[" ++ String.intercalate ", " items ++ "]"

/-- The description of a truth value. -/
def describeBool (b : Bool) : String := if b then "true" else "false"

mutual

/-- The description of a JSON value. -/
def Json.description : Json → String
  | .null => "Null"
  | .bool b => "Bool(" ++ describeBool b ++ ")"
  | .number n => "Number(" ++ n.text ++ ")"
  | .string s => "String(" ++ Text.quoted s ++ ")"
  | .array items => "Array " ++ describeList (itemDescriptions items)
  | .object members =>
      "Object \x7b" ++ String.intercalate ", " (memberDescriptions members) ++ "\x7d"

/-- The descriptions of the items of an array. -/
def itemDescriptions : List Json → List String
  | [] => []
  | item :: items => item.description :: itemDescriptions items

/-- The descriptions of the members of an object. -/
def memberDescriptions : List (String × Json) → List String
  | [] => []
  | (name, value) :: members =>
      (Text.quoted name ++ ": " ++ value.description) :: memberDescriptions members

end

/-- The description of a path. -/
def Path.description (p : Path) : String := "Path(" ++ describeList (p.segments.map Text.quoted) ++ ")"

/-- The name of an operation in descriptions. -/
def Operation.description : Operation → String
  | .updateProperty => "UpdateProperty"
  | .addItem => "AddItem"
  | .removeItem => "RemoveItem"

/-- The description of an item by the name of its type. -/
def Catalogue.describeItem (c : Catalogue) : Option Node → String
  | none => "None"
  | some n => "Some(" ++ Text.quoted (c.displayName n) ++ ")"

/-- The description of a request. -/
def Request.description (c : Catalogue) (r : Request) : String :=
  describeRecord "ValidationRequest"
    [("path", r.path.description), ("property", Text.quoted r.property),
      ("value", r.value.description), ("operation", r.operation.description),
      ("original_item", c.describeItem r.originalItem), ("patch_item", c.describeItem r.patchItem)]

/-- The name of a kind of member in descriptions. -/
def MemberKind.text : MemberKind → String
  | .leaf => "Leaf"
  | .object => "Object"
  | .optionalObject => "OptionalObject"
  | .collection => "Collection"
  | .dictionary => "Map"
  | .leafDictionary => "LeafMap"

/-- The description of a member. -/
def Member.description (m : Member) : String :=
  describeRecord "FieldDescriptor"
    [("name", Text.quoted m.name), ("kind", m.kind.text),
      ("declared_type", Text.quoted m.declaredType)]

/-- The description of the paths to which an override applies. -/
def PathMatcher.description : PathMatcher → String
  | .exact path => "Exact(" ++ path.description ++ ")"
  | .range start finish =>
      describeRecord "Range" [("prefix", start.description), ("suffix", finish.description)]

/-- The description of an override with its paths. -/
def ConfigurationEntry.description (e : ConfigurationEntry) : String :=
  describeRecord "ConfigEntry"
    [("matcher", e.matcher.description), ("action", e.override.text)]

/-- The description of a list of overrides. -/
def Configuration.description (c : Configuration) : String :=
  describeRecord "PatchConfig"
    [("entries", describeList (c.entries.map ConfigurationEntry.description))]

/-- The description of options. -/
def Options.description (o : Options) : String :=
  describeRecord "MergeOptions"
    [("remove_marker", Text.quoted o.removeMarker), ("ignore_case", describeBool o.ignoreCase)]

/-- The description of a merger by its overrides and options. -/
def Merger.description (m : Merger) : String :=
  "Merger \x7b config: " ++ m.configuration.description ++ ", options: " ++
    m.options.description ++ ", .. \x7d"

end SelectiveMerge
