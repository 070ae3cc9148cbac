import SelectiveMerge.Declaration.Item
import SelectiveMerge.Declaration.Naming
import SelectiveMerge.Declaration.Settings
import SelectiveMerge.Declaration.Shape

/-!
# Derived member tables

From the declaration of a structure its member table is derived: one member for
each field that is not skipped, named by the naming rule or by the field's own
option, with accessors for the shape of its type. At most one field is the
identity. A declaration is refused when its attributes or its form are at fault,
when it has parameters, or when its options contradict each other.

* `StructDeclaration.ofItem` — reads the options of an item
* `StructDeclaration.derive` — the derived table of a declaration, or why there is
  none
-/

namespace SelectiveMerge.Declaration

/-! ## Declarations -/

/-- A field with its options. -/
structure FieldDeclaration where
  name : String
  type : TypeExpr
  rename : Option String
  skip : Bool
  nested : Bool
  identity : Bool

/-- A structure with named fields and its options. -/
structure StructDeclaration where
  name : String
  parameterized : Bool
  renameAll : Option String
  noDefault : Bool
  identified : Bool
  fields : List FieldDeclaration

/-- The options of a structure. -/
def structOptions : List (String × OptionSort) :=
  [("rename_all", .text), ("no_default", .flag), ("identified", .flag)]

/-- The options of a field. -/
def fieldOptions : List (String × OptionSort) :=
  [("rename", .text), ("skip", .flag), ("nested", .flag), ("id", .flag)]

/-- The fault of a body that is not that of a structure with named fields. -/
def ItemBody.fault? : ItemBody → Option AttributeFault
  | .named _ => none
  | .unnamed 1 => some (.unsupportedShape "one unnamed field" "named fields")
  | .unnamed _ => some (.unsupportedShape "unnamed fields" "named fields")
  | .unit => some (.unsupportedShape "no fields" "named fields")
  | .enumeration => some (.unsupportedShape "enum" "struct with named fields")
  | .union => some (.unsupportedShape "union" "struct with named fields")

namespace FieldDeclaration

/-- The field with the options that its attributes set. -/
def ofReading (source : FieldSource) (r : OptionReading) : FieldDeclaration :=
  ⟨source.name, source.type, r.text? "rename", r.flag "skip", r.flag "nested", r.flag "id"⟩

/-- Reads the options of a field. -/
def ofSource (source : FieldSource) : Except AttributeFault FieldDeclaration :=
  let r := OptionReading.ofAttributes fieldOptions source.attributes
  if r.faults.isEmpty then .ok (ofReading source r)
  else .error (.located source.name (.ofList r.faults))

/-- The faults of several fields. -/
def faults (sources : List FieldSource) : List AttributeFault :=
  sources.filterMap fun source =>
    match ofSource source with
    | .ok _ => none
    | .error fault => some fault

end FieldDeclaration

namespace StructDeclaration

/-- Reads the options of an item and of its fields. All faults of the item itself
come first; the fields are looked at only when it has none. -/
def ofItem (item : Item) : Except AttributeFault StructDeclaration :=
  let r := OptionReading.ofAttributes structOptions item.attributes
  let faults := r.faults ++ item.body.fault?.toList
  if !faults.isEmpty then .error (.ofList faults)
  else
    let sources : List FieldSource :=
      match item.body with
      | .named sources => sources
      | _ => []
    match FieldDeclaration.faults sources with
    | [] => do
        let fields ← sources.mapM FieldDeclaration.ofSource
        .ok ⟨item.name, item.parameterized, r.text? "rename_all", r.flag "no_default",
          r.flag "identified", fields⟩
    | faults => .error (.ofList faults)

end StructDeclaration

/-! ## Errors -/

/-- Why no table is derived. -/
inductive DeriveError where
  | union
  | attributes (fault : AttributeFault)
  | parameterized
  | unknownRule (rule : String)
  | secondIdentity
  | identitySkippedOrNested
  | identityTwice
  | shape (fault : ShapeFault)

/-- The wording of an error. -/
def DeriveError.message : DeriveError → String
  | .union => "#[derive(MergeObject)] does not support unions"
  | .attributes fault => fault.message
  | .parameterized => "#[derive(MergeObject)] does not support generic types"
  | .unknownRule rule =>
      "unknown rename_all rule `" ++ rule ++
        "`; expected \"PascalCase\", \"camelCase\" or \"snake_case\""
  | .secondIdentity => "only one field can be marked #[merge(id)]"
  | .identitySkippedOrNested =>
      "#[merge(id)] cannot be combined with #[merge(skip)] or #[merge(nested)]"
  | .identityTwice =>
      "#[merge(id)] generates `Identified`; remove #[merge(identified)] from the struct"
  | .shape fault => fault.message

/-! ## Derived tables -/

/-- What reading a member gives. -/
inductive SharedView where
  | leaf
  | object
  | collection
  | dictionary
  | leafDictionary
  deriving DecidableEq

namespace SharedView

/-- The view of a member of a kind: it does not tell whether an object may be missing. -/
def ofKind : MemberKind → SharedView
  | .leaf => .leaf
  | .object => .object
  | .optionalObject => .object
  | .collection => .collection
  | .dictionary => .dictionary
  | .leafDictionary => .leafDictionary

/-- The name of a view. -/
def text : SharedView → String
  | .leaf => "Leaf"
  | .object => "Object"
  | .collection => "Collection"
  | .dictionary => "Map"
  | .leafDictionary => "LeafMap"

end SharedView

/-- A derived member: its name, its kind, its declared type, the field it stands for
by number and name, and the views that reading and writing it give. -/
structure DerivedMember where
  name : String
  kind : MemberKind
  declaredType : String
  field : Nat
  fieldName : String
  getter : SharedView
  setter : MemberKind

/-- How an object is made from nothing. -/
inductive Construction where
  | none
  | initial
  /-- An identity that is nil at first is replaced by a fresh one. -/
  | freshIdentity (fieldName : String)
  deriving DecidableEq

/-- The table that is derived from a declaration. -/
structure Derivation where
  typeName : String
  /-- Whether the table says that objects have an identity. -/
  identified : Bool
  /-- Whether objects give their identity. -/
  givesIdentity : Bool
  /-- The field that the derivation makes the identity. -/
  identityField : Option String
  construction : Construction
  members : List DerivedMember

namespace Derivation

/-- The member table. -/
def table (d : Derivation) : MemberTable :=
  .ofMembers (d.members.map fun m =>
    ⟨m.name, m.kind, m.declaredType, some m.field, some m.field⟩)

end Derivation

/-! ## Derivation -/

namespace FieldDeclaration

/-- The name of a field without the mark of a raw identifier. -/
def plainName (f : FieldDeclaration) : String :=
  match f.name.toList with
  | 'r' :: '#' :: rest => String.ofList rest
  | _ => f.name

/-- The name of the member for a field. -/
def memberName (f : FieldDeclaration) (rule : NamingRule) : String :=
  f.rename.getD (rule.apply f.plainName)

/-- The kind of member for a field. -/
def memberKind (f : FieldDeclaration) : Except ShapeFault MemberKind :=
  (Composition.ofType f.nested f.type).memberKind f.nested

/-- The member for a field with a number; a skipped one has none. -/
def member? (rule : NamingRule) (number : Nat) (f : FieldDeclaration) : Option DerivedMember :=
  if f.skip then none
  else
    match f.memberKind with
    | .ok kind =>
        some ⟨f.memberName rule, kind, f.type.text, number, f.name, .ofKind kind, kind⟩
    | .error _ => none

end FieldDeclaration

namespace StructDeclaration

/-- The naming rule that the options ask for. -/
def rule? (s : StructDeclaration) : Except DeriveError NamingRule :=
  match s.renameAll with
  | none => .ok .keep
  | some text =>
      match NamingRule.ofText? text with
      | some rule => .ok rule
      | none => .error (.unknownRule text)

/-- Checks that a field may be the identity, when another one is already or not. -/
def checkIdentity (s : StructDeclaration) (seen : Bool) (f : FieldDeclaration) :
    Except DeriveError Unit :=
  if !f.identity then .ok ()
  else if seen then .error .secondIdentity
  else if f.skip || f.nested then .error .identitySkippedOrNested
  else if s.identified then .error .identityTwice
  else .ok ()

/-- Checks that a field that is not skipped has a shape. -/
def checkShape (f : FieldDeclaration) : Except DeriveError Unit :=
  if f.skip then .ok ()
  else
    match f.memberKind with
    | .ok _ => .ok ()
    | .error fault => .error (.shape fault)

/-- Checks fields one after another; `seen` says whether an identity came before. -/
def checkFields (s : StructDeclaration) : Bool → List FieldDeclaration → Except DeriveError Unit
  | _, [] => .ok ()
  | seen, f :: fields => do
      s.checkIdentity seen f
      checkShape f
      s.checkFields (seen || f.identity) fields

/-- The members for fields, the first of which has a given number. -/
def membersFrom (rule : NamingRule) : Nat → List FieldDeclaration → List DerivedMember
  | _, [] => []
  | number, f :: fields => (f.member? rule number).toList ++ membersFrom rule (number + 1) fields

/-- The name of the field that is marked as the identity. -/
def identityField? (s : StructDeclaration) : Option String :=
  (s.fields.find? (·.identity)).map (·.name)

/-- How an object is made from nothing. -/
def construction (s : StructDeclaration) : Construction :=
  if s.noDefault then .none
  else
    match s.identityField? with
    | some name => .freshIdentity name
    | none => .initial

/-- The table of a declaration. -/
def derive (s : StructDeclaration) : Except DeriveError Derivation := do
  if s.parameterized then .error .parameterized
  else
    let rule ← s.rule?
    s.checkFields false s.fields
    let identified := s.identityField?.isSome || s.identified
    .ok ⟨s.name, identified, identified, s.identityField?, s.construction,
      membersFrom rule 0 s.fields⟩

end StructDeclaration

/-- The table that is derived from an item. A union is turned away whatever its
attributes are. -/
def Item.derive (item : Item) : Except DeriveError Derivation :=
  match item.body with
  | .union => .error .union
  | _ =>
      match StructDeclaration.ofItem item with
      | .ok s => s.derive
      | .error fault => .error (.attributes fault)

end SelectiveMerge.Declaration
