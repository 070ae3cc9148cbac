import SelectiveMerge.Sample.Basic

/-!
# Sample types

A catalogue of types that between them have every kind of member: people with
their phones and addresses, orders, trees, racks of devices, types with one member
of each kind under one name, and a type whose member table does not fit it. The
names of their leaf types and their own full names begin with a scope.

* `Sample.schemas` — the schemas of all sample types
* `Sample.catalogue` — the catalogue of some schemas
-/

namespace SelectiveMerge.Sample

open LeafType (signed unsigned)
open Plan (leaf text object optional collection dictionary leafDictionary schema identifiedSchema)

/-! ## Leaf types -/

/-- A label: a name and a color. -/
def label (scope : String) : LeafType :=
  .record (scope ++ "Label") [("name", .text), ("color", .text)]

/-- A mood. -/
def mood (scope : String) : LeafType := .enumeration (scope ++ "Mood") ["calm", "angry"]

/-! ## People -/

/-- A phone, which has an identity. -/
def phone (scope : String) : Schema :=
  identifiedSchema scope "Phone"
    [leaf "Id" .uuid, text "PhoneNumber", leaf "Verified" .bool,
      leaf "Extension" (.option (unsigned 32))]

/-- An address, which has none. -/
def address (scope : String) : Schema :=
  schema scope "Address" [text "Street", text "City", leaf "Zip" (.option .text)]

/-- A region. -/
def region (scope : String) : Schema :=
  schema scope "Region"
    [text "Name", leaf "Capacity" (unsigned 32), optional "Office" "Address",
      collection "Lines" "Phone", leafDictionary "Attrs" (signed 64) .ordered]

/-- A vault, which cannot be made from nothing. -/
def vault (scope : String) : Schema :=
  { schema scope "Vault" [text "Code"] with constructible := false }

/-- A person. -/
def person (scope : String) : Schema :=
  identifiedSchema scope "Person"
    [leaf "Id" .uuid, text "FirstName", text "LastName", leaf "Age" (.option (unsigned 32)),
      leaf "Level" (unsigned 8), leaf "Rank" (signed 64), leaf "Balance" .float64,
      leaf "Ratio" .float32, leaf "Big" (unsigned 128), leaf "Active" .bool,
      leaf "Mood" (mood scope), leaf "Meta" .json,
      object "Home" "Address" (address scope).initialFields, optional "Address" "Address",
      optional "Vault" "Vault", collection "PhoneNumbers" "Phone",
      collection "Addresses" "Address", collection "Vaults" "Vault",
      leaf "Nicknames" (.list .text), leaf "Scores" (.list (.list (signed 64))),
      leaf "Labels" (.list (label scope)), leaf "Aliases" (.option (.list .text)),
      leaf "Badge" (label scope), leafDictionary "Tags" .text .ordered,
      leafDictionary "Points" (signed 32) .hashed, dictionary "Regions" "Region" .ordered,
      dictionary "Sites" "Address" .hashed, dictionary "Safes" "Vault" .ordered,
      leaf "Ranks" (.dictionary (unsigned 32) .text), (leaf "Revision" (unsigned 64)).hidden]

/-! ## People as they are sent -/

/-- A phone as it is sent. -/
def phoneDto (scope : String) : Schema :=
  schema scope "PhoneDto"
    [leaf "Id" (.option .text), text "PhoneNumber", leaf "Extension" (.option .text)]

/-- An address as it is sent. -/
def addressDto (scope : String) : Schema :=
  schema scope "AddressDto" [leaf "Street" (.option .text), leaf "City" (signed 64)]

/-- A person as it is sent. -/
def personDto (scope : String) : Schema :=
  schema scope "PersonDto"
    [text "FirstName", leaf "LastName" (.option .text), leaf "Age" (.option .text),
      text "Level", leaf "Rank" .json, text "Balance", text "Active", text "Mood",
      optional "Home" "AddressDto", object "Address" "AddressDto" (addressDto scope).initialFields,
      collection "PhoneNumbers" "PhoneDto", collection "Addresses" "AddressDto",
      text "Nicknames", leafDictionary "Tags" (signed 64) .ordered,
      leafDictionary "Points" .text .ordered, dictionary "Regions" "AddressDto" .hashed,
      dictionary "Safes" "Vault" .ordered, text "Extra"]

/-! ## Orders, trees, racks -/

/-- A line of an order. -/
def orderLine (scope : String) : Schema :=
  identifiedSchema scope "OrderLine"
    [leaf "Id" .uuid, text "Sku", leaf "Qty" (signed 32), collection "Notes" "Address"]

/-- An order. -/
def order (scope : String) : Schema :=
  identifiedSchema scope "Order"
    [leaf "Id" .uuid, text "Number", optional "Ship" "Address", collection "Lines" "OrderLine",
      leafDictionary "Attrs" .text .ordered]

/-- A customer. -/
def customer (scope : String) : Schema :=
  schema scope "Customer" [text "Name", collection "Orders" "Order"]

/-- A tree, with its subtrees in a collection and in a dictionary. -/
def tree (scope : String) : Schema :=
  identifiedSchema scope "Tree"
    [leaf "Id" .uuid, text "Name", collection "Children" "Tree",
      dictionary "Branches" "Tree" .ordered]

/-- A device, whose identity is its key; a new device has none yet. -/
def device (scope : String) : Schema :=
  { identifiedSchema scope "Device" [leaf "serialKey" .uuid, text "displayName"] with
    mintsIdentity := false }

/-- A rack of devices. -/
def rack (scope : String) : Schema :=
  identifiedSchema scope "Rack"
    [leaf "rack_key" .uuid, text "type", collection "devices" "Device",
      optional "main_device" "Device"]

/-! ## Names and kinds -/

/-- A type with names that differ in case, are repeated, empty or not in ASCII. -/
def odd (scope : String) : Schema :=
  schema scope "Odd"
    [(text "first").called "Name", (text "second").called "name", (text "third").called "NAME",
      (text "dotted").called "a.b", (text "empty").called "", (text "street").called "Straße",
      (text "summer").called "Été", text "remove", (leaf "same_one" (signed 64)).called "same",
      (leaf "same_two" (signed 64)).called "same",
      (object "id_object" "Address" (address scope).initialFields).called "id",
      (collection "id_list" "Address").called "Id", dictionary "ids" "Address" .ordered,
      leafDictionary "plain" .text .ordered]

/-- Types with one member of each kind under one name, and one without it. -/
def kinds (scope : String) : List Schema :=
  [schema scope "KLeaf" [leaf "m" (signed 64)],
    schema scope "KText" [text "m"],
    schema scope "KList" [leaf "m" (.list (signed 64))],
    schema scope "KObject" [object "m" "Address" (address scope).initialFields],
    schema scope "KOption" [optional "m" "Address"],
    schema scope "KItems" [collection "m" "Address"],
    schema scope "KPhones" [collection "m" "Phone"],
    schema scope "KMap" [dictionary "m" "Address" .ordered],
    schema scope "KLeafMap" [leafDictionary "m" (signed 64) .ordered],
    schema scope "KNone" [leaf "other" (signed 64)]]

/-! ## A member table that does not fit -/

/-- A type with the member names of `broken` whose table fits. -/
def sound (scope : String) : Schema :=
  schema scope "Sound"
    [text "NoGet", text "NoSet", text "LeafSetsObject",
      object "HopNoGet" "Address" (address scope).initialFields,
      object "HopNoSet" "Address" (address scope).initialFields,
      optional "OptionSetsObject" "Address", collection "ItemsGetLeaf" "Address",
      collection "ItemsNoGet" "Address", collection "ItemsNoSet" "Address",
      leaf "ListNoSet" (.list .text)]

/-- The members of `broken`. Its fields are a text, an object, an optional object
and a collection. -/
def brokenMembers : List Member :=
  [⟨"NoGet", .leaf, "broken", none, some 0⟩,
    ⟨"NoSet", .leaf, "broken", some 0, none⟩,
    ⟨"LeafSetsObject", .leaf, "broken", some 0, some 1⟩,
    ⟨"HopNoGet", .object, "broken", none, some 1⟩,
    ⟨"HopNoSet", .object, "broken", some 1, none⟩,
    ⟨"OptionSetsObject", .optionalObject, "broken", some 2, some 1⟩,
    ⟨"ItemsGetLeaf", .collection, "broken", some 0, some 3⟩,
    ⟨"ItemsNoGet", .collection, "broken", none, some 3⟩,
    ⟨"ItemsNoSet", .collection, "broken", some 3, none⟩,
    ⟨"ListNoSet", .leaf, "broken", some 0, none⟩]

/-- A type whose members lack accessors or have accessors of the wrong kind. -/
def broken (scope : String) : Schema :=
  { schema scope "Broken"
      [text "Text", object "Inner" "Address" (address scope).initialFields,
        optional "Maybe" "Address", collection "Items" "Address"] with
    table := .ofMembers brokenMembers, constructible := false }

/-! ## The catalogue -/

/-- The schemas of all sample types. -/
def schemas (scope : String) : List Schema :=
  [phone scope, address scope, region scope, vault scope, person scope, phoneDto scope,
    addressDto scope, personDto scope, orderLine scope, order scope, customer scope, tree scope,
    device scope, rack scope, odd scope, sound scope, broken scope] ++ kinds scope

/-- The schema of a type that is not among the sample types. -/
def unknown (name : TypeName) : Schema := { schema "" name [] with constructible := false }

/-- The catalogue of some schemas. -/
def catalogue (all : List Schema) : Catalogue := fun name =>
  (all.find? fun s => s.typeName == name).getD (unknown name)

end SelectiveMerge.Sample
