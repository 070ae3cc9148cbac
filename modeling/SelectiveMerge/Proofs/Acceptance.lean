import Mathlib.Data.List.Forall2
import SelectiveMerge.Proofs.Shapes

/-!
# Which declarations are accepted

A table is derived from an item just when the item is a structure with named fields
whose options can be read, and what it declares keeps the rules: no parameters, a known
naming rule, at most one identity, and a type of an allowed form for every nested field
that is shown. The table then has one member for each field that is shown.

* `Item.Declares` — what an item declares, if its options can be read
* `StructDeclaration.Accepted` — the rules that a declaration has to keep
* `Derivation.Tabulates` — a table is that of a declaration
* `Item.exact_derive` — the derivation accepts just these declarations, and tabulates them
-/

namespace SelectiveMerge.Declaration

/-! ## What an item declares -/

/-- The options of a field. -/
def FieldSource.options (source : FieldSource) : OptionReading :=
  OptionReading.ofAttributes fieldOptions source.attributes

/-- The options of an item. -/
def Item.options (item : Item) : OptionReading :=
  OptionReading.ofAttributes structOptions item.attributes

/-- An item is a structure with named fields, nothing is wrong with its options and with
those of its fields, and the declaration says what they are. -/
structure Item.Declares (item : Item) (s : StructDeclaration) : Prop where
  readable : item.options.faults = []
  fields : ∃ sources, item.body = .named sources ∧
    (∀ source ∈ sources, source.options.faults = []) ∧
    s.fields = sources.map fun source => .ofReading source source.options
  name : s.name = item.name
  parameterized : s.parameterized = item.parameterized
  renameAll : s.renameAll = item.options.text? "rename_all"
  noDefault : s.noDefault = item.options.flag "no_default"
  identified : s.identified = item.options.flag "identified"

namespace FieldDeclaration

theorem ofSource_of_readable {source : FieldSource} (h : source.options.faults = []) :
    ofSource source = .ok (ofReading source source.options) := by
  rw [ofSource]
  exact if_pos (List.isEmpty_iff.2 h)

theorem ofSource_of_faults {source : FieldSource} (h : source.options.faults ≠ []) :
    ofSource source = .error (.located source.name (.ofList source.options.faults)) := by
  rw [ofSource]
  exact if_neg (mt List.isEmpty_iff.1 h)

/-- Several fields have no faults just when nothing is wrong with the options of each. -/
theorem faults_eq_nil {sources : List FieldSource} :
    faults sources = [] ↔ ∀ source ∈ sources, source.options.faults = [] := by
  rw [faults, List.filterMap_eq_nil_iff]
  refine forall₂_congr fun source _ => ?_
  by_cases h : source.options.faults = []
  · simp [ofSource_of_readable h, h]
  · simp [ofSource_of_faults h, h]

theorem mapM_ofSource {sources : List FieldSource}
    (h : ∀ source ∈ sources, source.options.faults = []) :
    sources.mapM ofSource = .ok (sources.map fun source => ofReading source source.options) := by
  induction sources with
  | nil => rfl
  | cons source sources ih =>
    rw [List.mapM_cons, ofSource_of_readable (h source List.mem_cons_self),
      ih fun other hother => h other (List.mem_cons_of_mem _ hother)]
    rfl

end FieldDeclaration

theorem ItemBody.fault?_eq_none {body : ItemBody} :
    body.fault? = none ↔ ∃ sources, body = .named sources := by
  constructor
  · intro h
    unfold fault? at h
    split at h
    · exact ⟨_, rfl⟩
    all_goals cases h
  · rintro ⟨sources, rfl⟩
    rfl

/-- The declaration that is read from an item is the one that it declares. -/
theorem StructDeclaration.ofItem_eq_ok {item : Item} {s : StructDeclaration} :
    ofItem item = .ok s ↔ item.Declares s := by
  constructor
  · intro h
    simp only [ofItem] at h
    split at h
    · cases h
    rename_i hempty
    obtain ⟨hreadable, hbody⟩ : item.options.faults = [] ∧ item.body.fault? = none := by
      simpa [Item.options] using hempty
    obtain ⟨sources, hsources⟩ := ItemBody.fault?_eq_none.1 hbody
    simp only [hsources] at h
    split at h
    · rename_i hfaults
      have hread := FieldDeclaration.faults_eq_nil.1 hfaults
      rw [FieldDeclaration.mapM_ofSource hread] at h
      cases h
      exact ⟨hreadable, ⟨sources, hsources, hread, rfl⟩, rfl, rfl, rfl, rfl, rfl⟩
    · cases h
  · rintro ⟨hreadable, ⟨sources, hsources, hread, hfields⟩, hname, hparameterized, hrenameAll,
      hnoDefault, hidentified⟩
    have hall : s = ⟨item.name, item.parameterized, item.options.text? "rename_all",
        item.options.flag "no_default", item.options.flag "identified",
        sources.map fun source => .ofReading source source.options⟩ := by
      cases s
      simp_all only
    have hfaults := FieldDeclaration.faults_eq_nil.2 hread
    unfold Item.options at hreadable
    simp only [ofItem, hreadable, hsources, ItemBody.fault?, hfaults, hall]
    rw [FieldDeclaration.mapM_ofSource hread]
    rfl

/-! ## Rules for declarations -/

/-- A nested field that is shown has a type of an allowed form. -/
def FieldDeclaration.Shaped (f : FieldDeclaration) : Prop :=
  f.skip = false → f.nested = true → ∃ kind, NestedShape f.type kind

theorem FieldDeclaration.shaped_iff {f : FieldDeclaration} :
    f.Shaped ↔ f.skip = true ∨ ∃ kind, f.memberKind = .ok kind := by
  simp only [memberKind_eq_ok]
  constructor
  · intro h
    cases hskip : f.skip with
    | true => exact .inl rfl
    | false =>
      refine .inr ?_
      cases hnested : f.nested with
      | true =>
        obtain ⟨kind, hshape⟩ := h hskip hnested
        exact ⟨kind, .nested hnested hshape⟩
      | false =>
        by_cases htype : ∃ value, f.type.IsTextMap value
        · exact ⟨_, .leafDictionary hnested htype.choose_spec⟩
        · exact ⟨_, .leaf hnested (not_exists.1 htype)⟩
  · rintro (hskip | ⟨kind, hkind⟩) hshown hnested
    · simp [hskip] at hshown
    · cases hkind with
      | nested _ hshape => exact ⟨kind, hshape⟩
      | leafDictionary hnot | leaf hnot => simp [hnested] at hnot

theorem NamingRule.isSome_ofText? (text : String) :
    (ofText? text).isSome = true ↔ text ∈ ["PascalCase", "camelCase", "snake_case"] := by
  unfold ofText?
  grind

namespace StructDeclaration

variable {s : StructDeclaration}

/-- A field that is the identity is a shown leaf, and the structure has no other way to
its identity. -/
def MayIdentify (s : StructDeclaration) (f : FieldDeclaration) : Prop :=
  f.identity = true → f.skip = false ∧ f.nested = false ∧ s.identified = false

/-- The rules that a declaration has to keep. -/
structure Accepted (s : StructDeclaration) : Prop where
  plain : s.parameterized = false
  rule : ∀ text, s.renameAll = some text → text ∈ ["PascalCase", "camelCase", "snake_case"]
  single : s.fields.countP (·.identity) ≤ 1
  identity : ∀ f ∈ s.fields, s.MayIdentify f
  shapes : ∀ f ∈ s.fields, f.Shaped

theorem exists_rule_iff :
    (∃ rule, s.rule? = .ok rule) ↔
      ∀ text, s.renameAll = some text → text ∈ ["PascalCase", "camelCase", "snake_case"] := by
  unfold rule?
  cases s.renameAll with
  | none => simp
  | some text =>
    have hknown := NamingRule.isSome_ofText? text
    cases hrule : NamingRule.ofText? text with
    | none => simpa [hrule] using hknown
    | some rule => simpa [hrule] using hknown

theorem checkShape_eq_ok {f : FieldDeclaration} : checkShape f = .ok () ↔ f.Shaped := by
  rw [FieldDeclaration.shaped_iff]
  unfold checkShape
  cases f.memberKind with
  | ok kind => simp
  | error fault => simp

theorem checkIdentity_eq_ok {seen : Bool} {f : FieldDeclaration} :
    s.checkIdentity seen f = .ok () ↔ (f.identity = true → seen = false) ∧ s.MayIdentify f := by
  unfold checkIdentity MayIdentify
  grind

/-- The checks of a field pass, and then those of the others. -/
theorem checkFields_cons {seen : Bool} {f : FieldDeclaration} {fields : List FieldDeclaration} :
    s.checkFields seen (f :: fields) = .ok () ↔
      s.checkIdentity seen f = .ok () ∧ checkShape f = .ok () ∧
        s.checkFields (seen || f.identity) fields = .ok () := by
  rw [checkFields]
  cases s.checkIdentity seen f with
  | error e => simp [bind, Except.bind]
  | ok =>
    cases checkShape f with
    | error e => simp [bind, Except.bind]
    | ok => simp [bind, Except.bind]

theorem checkFields_eq_ok {seen : Bool} {fields : List FieldDeclaration} :
    s.checkFields seen fields = .ok () ↔
      fields.countP (·.identity) + seen.toNat ≤ 1 ∧ (∀ f ∈ fields, s.MayIdentify f) ∧
        ∀ f ∈ fields, f.Shaped := by
  induction fields generalizing seen with
  | nil =>
    have hseen := Bool.toNat_le seen
    simp [checkFields, hseen]
  | cons f fields ih =>
    rw [checkFields_cons, ih, checkIdentity_eq_ok, checkShape_eq_ok, List.countP_cons,
      List.forall_mem_cons, List.forall_mem_cons]
    -- another identity is counted just when it is refused
    have hcount : ((f.identity = true → seen = false) ∧
        fields.countP (·.identity) + (seen || f.identity).toNat ≤ 1) ↔
        fields.countP (·.identity) + (if f.identity = true then 1 else 0) + seen.toNat ≤ 1 := by
      cases f.identity <;> cases seen <;> simp
    rw [← hcount]
    tauto

/-- The table that a declaration has under a naming rule. -/
def derivation (s : StructDeclaration) (rule : NamingRule) : Derivation :=
  let identified := s.identityField?.isSome || s.identified
  ⟨s.name, identified, identified, s.identityField?, s.construction, membersFrom rule 0 s.fields⟩

/-- The declarations that keep the rules have a table, under the rule that they ask for. -/
theorem derive_eq_ok {d : Derivation} :
    s.derive = .ok d ↔ s.Accepted ∧ ∃ rule, s.rule? = .ok rule ∧ d = s.derivation rule := by
  unfold derive
  cases hparameterized : s.parameterized with
  | true => exact iff_of_false (by simp) fun h => by simpa [hparameterized] using h.1.plain
  | false =>
    cases hrule : s.rule? with
    | error e =>
      refine iff_of_false (by simp [bind, Except.bind]) ?_
      rintro ⟨-, rule, hrule', -⟩
      cases hrule'
    | ok rule =>
      have hknown := exists_rule_iff.1 ⟨rule, hrule⟩
      cases hchecks : s.checkFields false s.fields with
      | error e =>
        refine iff_of_false (by simp [bind, Except.bind]) ?_
        rintro ⟨⟨-, -, hsingle, hidentity, hshapes⟩, -⟩
        rw [checkFields_eq_ok.2 ⟨by simpa using hsingle, hidentity, hshapes⟩] at hchecks
        cases hchecks
      | ok =>
        obtain ⟨hsingle, hidentity, hshapes⟩ := checkFields_eq_ok.1 hchecks
        have haccepted : s.Accepted := ⟨hparameterized, hknown, hsingle, hidentity, hshapes⟩
        simp [bind, Except.bind, haccepted, derivation, eq_comm]

end StructDeclaration

/-! ## What the table holds -/

/-- The kind of a member agrees with the view that reading it gives, and with the kind of
slot that writing it gives. -/
inductive ViewsAgree : MemberKind → SharedView → MemberKind → Prop where
  | leaf : ViewsAgree .leaf .leaf .leaf
  | object : ViewsAgree .object .object .object
  | optionalObject : ViewsAgree .optionalObject .object .optionalObject
  | collection : ViewsAgree .collection .collection .collection
  | dictionary : ViewsAgree .dictionary .dictionary .dictionary
  | leafDictionary : ViewsAgree .leafDictionary .leafDictionary .leafDictionary

theorem ViewsAgree.ofKind (kind : MemberKind) : ViewsAgree kind (.ofKind kind) kind := by
  cases kind <;> constructor

/-- A member is that of a field with a number. -/
structure DerivedMember.StandsFor (rule : NamingRule) (m : DerivedMember)
    (shown : FieldDeclaration × Nat) : Prop where
  name : m.name = shown.1.memberName rule
  declaredType : m.declaredType = shown.1.type.text
  field : m.field = shown.2
  fieldName : m.fieldName = shown.1.name
  kind : shown.1.HasKind m.kind
  views : ViewsAgree m.kind m.getter m.setter

/-- The fields that have members, with their numbers. -/
def StructDeclaration.shown (s : StructDeclaration) : List (FieldDeclaration × Nat) :=
  s.fields.zipIdx.filter fun shown => !shown.1.skip

theorem FieldDeclaration.Shaped.exists_member {f : FieldDeclaration} (h : f.Shaped)
    (hshown : f.skip = false) (rule : NamingRule) (number : Nat) :
    ∃ m, f.member? rule number = some m ∧ m.StandsFor rule (f, number) := by
  obtain hskip | ⟨kind, hkind⟩ := FieldDeclaration.shaped_iff.1 h
  · simp [hshown] at hskip
  · refine ⟨_, by rw [member?, hshown, hkind]; rfl, rfl, rfl, rfl, rfl, ?_, ?_⟩
    · exact memberKind_eq_ok.1 hkind
    · exact ViewsAgree.ofKind kind

theorem StructDeclaration.membersFrom_standFor {rule : NamingRule} {number : Nat}
    {fields : List FieldDeclaration} (h : ∀ f ∈ fields, f.Shaped) :
    List.Forall₂ (DerivedMember.StandsFor rule) (membersFrom rule number fields)
      ((fields.zipIdx number).filter fun shown => !shown.1.skip) := by
  induction fields generalizing number with
  | nil => exact .nil
  | cons f fields ih =>
    have hothers : ∀ other ∈ fields, other.Shaped := fun other hother =>
      h other (List.mem_cons_of_mem _ hother)
    have hrest := @ih (number + 1) hothers
    rw [membersFrom, List.zipIdx_cons]
    cases hskip : f.skip with
    | true =>
      rw [List.filter_cons_of_neg (by simp [hskip])]
      simpa [FieldDeclaration.member?, hskip] using hrest
    | false =>
      obtain ⟨m, hm, hstands⟩ := (h f List.mem_cons_self).exists_member hskip rule number
      rw [List.filter_cons_of_pos (by simp [hskip]), hm]
      exact .cons hstands hrest

/-- A table is that of a declaration: it has one member for each field that is shown, in
their order, and objects give their identity just when the table says that they have one. -/
structure Derivation.Tabulates (d : Derivation) (s : StructDeclaration) : Prop where
  typeName : d.typeName = s.name
  members : ∃ rule, s.rule? = .ok rule ∧
    List.Forall₂ (DerivedMember.StandsFor rule) d.members s.shown
  identified : d.identified = true ↔ (∃ f ∈ s.fields, f.identity = true) ∨ s.identified = true
  identity : d.givesIdentity = true ↔ d.identified = true

theorem StructDeclaration.Accepted.tabulates {s : StructDeclaration} (h : s.Accepted)
    {rule : NamingRule} (hrule : s.rule? = .ok rule) : (s.derivation rule).Tabulates s where
  typeName := rfl
  members := ⟨rule, hrule, membersFrom_standFor h.shapes⟩
  identified := by simp [derivation, identityField?, List.find?_isSome]
  identity := Iff.rfl

/-- The table of an item is that of what it declares. -/
theorem Item.derive_eq_ok {item : Item} {d : Derivation} :
    item.derive = .ok d ↔ ∃ s, item.Declares s ∧ s.derive = .ok d := by
  unfold derive
  split
  · rename_i hunion
    refine iff_of_false (by simp) ?_
    rintro ⟨s, ⟨-, ⟨sources, hsources, -⟩, -⟩, -⟩
    simp [hunion] at hsources
  · cases hread : StructDeclaration.ofItem item with
    | error fault =>
      refine iff_of_false (by simp) ?_
      rintro ⟨s, hs, -⟩
      rw [StructDeclaration.ofItem_eq_ok.2 hs] at hread
      cases hread
    | ok s =>
      constructor
      · exact fun h => ⟨s, StructDeclaration.ofItem_eq_ok.1 hread, h⟩
      · rintro ⟨s', hs', h⟩
        rw [StructDeclaration.ofItem_eq_ok.2 hs'] at hread
        cases hread
        exact h

/-- A table is derived from an item just when the item declares something that keeps the
rules, and it is the table of what is declared. -/
theorem Item.exact_derive (item : Item) :
    ((∃ d, item.derive = .ok d) ↔ ∃ s, item.Declares s ∧ s.Accepted) ∧
      ∀ d, item.derive = .ok d → ∃ s, item.Declares s ∧ d.Tabulates s := by
  constructor
  · constructor
    · rintro ⟨d, hd⟩
      obtain ⟨s, hs, hderived⟩ := derive_eq_ok.1 hd
      exact ⟨s, hs, (StructDeclaration.derive_eq_ok.1 hderived).1⟩
    · rintro ⟨s, hs, haccepted⟩
      obtain ⟨rule, hrule⟩ := StructDeclaration.exists_rule_iff.2 haccepted.rule
      have hderived := StructDeclaration.derive_eq_ok.2 ⟨haccepted, rule, hrule, rfl⟩
      exact ⟨_, derive_eq_ok.2 ⟨s, hs, hderived⟩⟩
  · intro d hd
    obtain ⟨s, hs, hderived⟩ := derive_eq_ok.1 hd
    obtain ⟨haccepted, rule, hrule, rfl⟩ := StructDeclaration.derive_eq_ok.1 hderived
    exact ⟨s, hs, haccepted.tabulates hrule⟩

namespace Sample

/-- A type by its name and its arguments. -/
def typeOf (name : String) (types : List TypeExpr) : TypeExpr :=
  .path "" [.mk name (if types.isEmpty then .none else .angled false (types.map .type) false)]

/-- The attribute that holds options. -/
def options (content : List TokenTree) : Attribute := ⟨false, "merge", .list .paren content⟩

/-- An item with an identity, a nested field, a field that is not shown and a map. -/
def person : Item where
  attributes :=
    [options [.ident "rename_all", .punct '=' false, .literal (.text "PascalCase") "PascalCase"]]
  name := "Person"
  parameterized := false
  body := .named
    [⟨[options [.ident "id"]], "id", typeOf "Uuid" []⟩,
      ⟨[], "first_name", typeOf "String" []⟩,
      ⟨[options [.ident "nested"]], "address", typeOf "Option" [typeOf "Address" []]⟩,
      ⟨[options [.ident "skip"]], "cache", typeOf "u64" []⟩,
      ⟨[], "tags", typeOf "BTreeMap" [typeOf "String" [], typeOf "u8" []]⟩]

/-- Its table. -/
def personTable : Derivation where
  typeName := "Person"
  identified := true
  givesIdentity := true
  identityField := some "id"
  construction := .freshIdentity "id"
  members :=
    [⟨"Id", .leaf, "Uuid", 0, "id", .leaf, .leaf⟩,
      ⟨"FirstName", .leaf, "String", 1, "first_name", .leaf, .leaf⟩,
      ⟨"Address", .optionalObject, "Option<Address>", 2, "address", .object, .optionalObject⟩,
      ⟨"Tags", .leafDictionary, "BTreeMap<String,u8>", 4, "tags", .leafDictionary,
        .leafDictionary⟩]

end Sample

theorem exact_derive_person :
    Sample.person.derive = .ok Sample.personTable ∧ (∃ s, Sample.person.Declares s ∧ s.Accepted) ∧
      ∃ s, Sample.person.Declares s ∧ Sample.personTable.Tabulates s := by
  have hderived : Sample.person.derive = .ok Sample.personTable := rfl
  obtain ⟨haccepted, htabulated⟩ := Item.exact_derive Sample.person
  exact ⟨hderived, haccepted.1 ⟨_, hderived⟩, htabulated _ hderived⟩

end SelectiveMerge.Declaration
