import Mathlib.Data.Set.Basic
import SelectiveMerge.Proofs.Comparison
import SelectiveMerge.Proofs.Frame
import SelectiveMerge.Proofs.Identity
import SelectiveMerge.Proofs.Usable

/-!
# Patch values that no key mentions

A patch is filled in everywhere, though a payload mentions little of it. What it does not
mention does not show: two patches that differ in one leaf, to which no key of the payload
goes, have one effect. For a leaf of an item of a collection the keys that count are those of
the elements that are matched with the item, by its identity or by its position.

* `Merger.partsOfField`, `Merger.partsOfEntry`, `Merger.partsOfItem` — the objects of a payload
  that are about one object of the patch
* `Merger.Differs` — two objects that differ in one leaf that these do not mention
* `Merger.Differs.read?` — what a member shows is the same, or differs in the same way
* `Merger.Differs.visit`, `Merger.Differs.arrayMember` — navigations and arrays are in step
* `Merger.unmentioned_values_inert` — so are whole merges
-/

namespace SelectiveMerge

/-! ## Validators that do not look at the patch -/

/-- A request without the object of the patch. -/
def Request.withoutPatchItem (r : Request) : Request := { r with patchItem := none }

/-- The validator decides on requests without regard to the patch. -/
def Validator.IgnoresPatchItem (v : Validator) : Prop :=
  ∀ (earlier : List Request) (r : Request),
    v.approves earlier r = v.approves (earlier.map Request.withoutPatchItem) r.withoutPatchItem

theorem Validator.ignoresPatchItem_approveAll : Validator.approveAll.IgnoresPatchItem :=
  fun _ _ => rfl

/-- Two records that differ at most in what their requests show of the patch. -/
def Comparison.upToPatchItems : Comparison := leavingOut Request.withoutPatchItem Eq Eq

open Comparison (upToPatchItems)

theorem Comparison.lawful_upToPatchItems {m : Merger} (hignores : m.validator.IgnoresPatchItem) :
    upToPatchItems.Lawful m :=
  lawful_leavingOut hignores (by rintro r _ rfl; rfl) (fun _ => rfl) (by rintro _ _ rfl; rfl)
    (fun _ => rfl) (by rintro _ _ full expected rfl; rfl)

/-- Two requests that differ at most in what they show of the patch get one answer. -/
theorem InStep.validate_of_withoutPatchItem {m : Merger}
    (hignores : m.validator.IgnoresPatchItem) {r r' : Request}
    (h : r.withoutPatchItem = r'.withoutPatchItem) :
    InStep upToPatchItems (m.validate r) (m.validate r') := by
  have hpath : r.path = r'.path := (congrArg Request.path h :)
  have hoperation : r.operation = r'.operation := (congrArg Request.operation h :)
  refine ⟨fun {s t} hst => ?_⟩
  have hst' := hst
  obtain ⟨hrequests, hreport, hminted, hpopulating⟩ := hst
  have hasking : upToPatchItems.sessions (s.asking r) (t.asking r') := by
    refine ⟨?_, hreport, hminted, hpopulating⟩
    rw [Session.requests_asking, Session.requests_asking, List.map_append, List.map_append,
      hrequests, List.map_singleton, List.map_singleton, h]
  have hanswer : m.validator.approves s.requests r = m.validator.approves t.requests r' := by
    rw [hignores, hignores t.requests, hrequests, h]
  unfold Merger.validate
  rw [hanswer, hpath, hoperation]
  split
  · exact .ok hasking
  · exact .error rfl

namespace Merger

/-! ## The parts of a payload that are about an object -/

/-- Objects of a payload, by their members. -/
abbrev Parts := Set (List (String × Json))

/-- The parts behind the keys that go to a field of an object. -/
def partsOfField (m : Merger) (parts : Parts) (type : TypeName) (i : Nat) : Parts :=
  {inner | ∃ members ∈ parts, ∃ key, (key, Json.object inner) ∈ members ∧
    m.options.isRemoveMarker key = false ∧ m.number? Member.reads type key = some i}

/-- The parts behind a key of a dictionary. -/
def partsOfEntry (m : Merger) (parts : Parts) (key : String) : Parts :=
  {inner | ∃ members ∈ parts, (key, Json.object inner) ∈ members ∧
    m.options.isRemoveMarker key = false}

/-- An element of an array is matched with an item of the patch: it adds an item and has the
position of that one, or it updates the item of the same identity. -/
def Matches (m : Merger) (type : TypeName) (items : List Fields) (j position : Nat)
    (element : List (String × Json)) : Prop :=
  (Intent.ofMembers m.options .root element = .ok .add ∧ position = j) ∨
    ∃ id, Intent.ofMembers m.options .root element = .ok (.update id) ∧
      m.catalogue.position? type items id = some j

/-- The elements that are matched with an item of the collection in a field. -/
def partsOfItem (m : Merger) (parts : Parts) (type : TypeName) (i : Nat) (itemType : TypeName)
    (items : List Fields) (j : Nat) : Parts :=
  {element | ∃ members ∈ parts, ∃ key values position, (key, Json.array values) ∈ members ∧
    m.options.isRemoveMarker key = false ∧ m.number? Member.reads type key = some i ∧
    values[position]? = some (.object element) ∧ m.Matches itemType items j position element}

mutual

/-- Two objects of a type that differ in one leaf, or in one entry of a dictionary of leaves,
which is no identity and which these parts of a payload do not mention. -/
inductive Differs (m : Merger) : Parts → TypeName → Fields → Fields → Prop where
  | field {parts : Parts} {type : TypeName} {fields : Fields} {i : Nat} {old new : Slot}
      (hold : fields[i]? = some old) (hslot : SlotDiffers m parts type i old new) :
      Differs m parts type fields (fields.set i new)

/-- Two contents of a field that differ in such a way. -/
inductive SlotDiffers (m : Merger) : Parts → TypeName → Nat → Slot → Slot → Prop where
  | leaf {parts : Parts} {type : TypeName} {i : Nat} {leafType : LeafType} {value value' : Cell}
      (hid : (m.catalogue type).identityField ≠ some i)
      (hkeys : ∀ members ∈ parts, ∀ key content, (key, content) ∈ members →
        m.options.isRemoveMarker key = false → m.number? Member.reads type key ≠ some i) :
      SlotDiffers m parts type i (.leaf leafType value) (.leaf leafType value')
  | object {parts : Parts} {type inner : TypeName} {i : Nat} {fields fields' : Fields}
      (h : Differs m (m.partsOfField parts type i) inner fields fields') :
      SlotDiffers m parts type i (.object inner fields) (.object inner fields')
  | optional {parts : Parts} {type inner : TypeName} {i : Nat} {fields fields' : Fields}
      (h : Differs m (m.partsOfField parts type i) inner fields fields') :
      SlotDiffers m parts type i (.optional inner (some fields)) (.optional inner (some fields'))
  | item {parts : Parts} {type inner : TypeName} {i j : Nat} {items : List Fields}
      {item item' : Fields} (hitem : items[j]? = some item)
      (h : Differs m (m.partsOfItem parts type i inner items j) inner item item') :
      SlotDiffers m parts type i (.collection inner items) (.collection inner (items.set j item'))
  | entry {parts : Parts} {type inner : TypeName} {i : Nat} {key : String}
      {entries : List (String × Fields)} {fields fields' : Fields}
      (hentry : Dictionary.find? key entries = some fields)
      (h : Differs m (m.partsOfEntry (m.partsOfField parts type i) key) inner fields fields') :
      SlotDiffers m parts type i (.dictionary inner entries)
        (.dictionary inner (Dictionary.replace key fields' entries))
  | cell {parts : Parts} {type : TypeName} {i : Nat} {key : String} {leafType : LeafType}
      {entries : List (String × Cell)} {value value' : Cell}
      (hentry : Dictionary.find? key entries = some value)
      (hkeys : ∀ members ∈ m.partsOfField parts type i, ∀ content, (key, content) ∈ members →
        m.options.isRemoveMarker key = true) :
      SlotDiffers m parts type i (.leafDictionary leafType entries)
        (.leafDictionary leafType (Dictionary.replace key value' entries))

end

variable {m : Merger} {parts : Parts} {type : TypeName} {fields fields' : Fields} {name : String}

/-- Two objects that differ in this way have one identity. -/
theorem Differs.identity?_eq (h : m.Differs parts type fields fields') :
    (m.catalogue type).identity? fields' = (m.catalogue type).identity? fields := by
  obtain ⟨hold, hslot⟩ := h
  cases hslot with
  | leaf hid => exact Schema.identity?_set_of_ne hid
  | _ => exact Schema.identity?_set_of_isBranch hold trivial trivial

/-- What a member shows is the same, or it differs in the same way. -/
theorem Differs.read? (h : m.Differs parts type fields fields') (member : Member) :
    Node.read? ⟨type, fields'⟩ member = Node.read? ⟨type, fields⟩ member ∨
      ∃ i old new, member.reads = some i ∧ Node.read? ⟨type, fields⟩ member = some old.view ∧
        Node.read? ⟨type, fields'⟩ member = some new.view ∧ m.SlotDiffers parts type i old new := by
  obtain @⟨_, _, _, i, old, new, hold, hslot⟩ := h
  obtain ⟨hi, -⟩ := List.getElem?_eq_some_iff.1 hold
  cases hreads : member.reads with
  | none => exact .inl (by simp only [Node.read?, hreads, Option.bind_none])
  | some j =>
    by_cases hij : i = j
    · subst hij
      refine .inr ⟨i, old, new, rfl, ?_, ?_, hslot⟩
      · exact Node.read?_eq_some.2 ⟨i, old, hreads, hold, rfl⟩
      · exact Node.read?_eq_some.2 ⟨i, new, hreads, List.getElem?_set_self hi, rfl⟩
    · refine .inl ?_
      simp only [Node.read?, hreads, Option.bind_some, List.getElem?_set_ne hij]

/-- A key of one of the parts, which is not the removal marker. -/
def Mentions (m : Merger) (parts : Parts) (key : String) (content : Json) : Prop :=
  ∃ members ∈ parts, (key, content) ∈ members ∧ m.options.isRemoveMarker key = false

/-- A key that is mentioned goes to the field that its member reads. -/
theorem number?_of_reads {key : String} {member : Member} {i : Nat}
    (hmember : m.member? ⟨type, fields⟩ key = some member) (hreads : member.reads = some i) :
    m.number? Member.reads type key = some i :=
  Option.bind_eq_some_iff.2 ⟨member, hmember, hreads⟩

section Steps

variable (hignores : m.validator.IgnoresPatchItem)

include hignores

/-! ## Assignments -/

theorem inStep_assignLeaf_patch (full : Path) (patch patch' original : Node) (member : Member)
    (sourceType : LeafType) (source : Cell) :
    InStep upToPatchItems (m.assignLeaf full patch original member sourceType source)
      (m.assignLeaf full patch' original member sourceType source) := by
  have hc := Comparison.lawful_upToPatchItems hignores
  refine .bind (.ofExcept hc _) fun value =>
    .bind (.validate_of_withoutPatchItem hignores rfl) fun _ => ?_
  split
  · split
    · exact .bind (.record hc _) fun _ => .pure _
    · exact .fail hc _
  · exact .fail hc _

theorem inStep_unsetObject_patch (full : Path) (patch patch' original : Node) (member : Member) :
    InStep upToPatchItems (m.unsetObject full patch original member)
      (m.unsetObject full patch' original member) := by
  have hc := Comparison.lawful_upToPatchItems hignores
  refine .bind (.validate_of_withoutPatchItem hignores rfl) fun _ => ?_
  split
  · exact .bind (.record hc _) fun _ => .pure _
  · exact .fail hc _

theorem inStep_clearList_patch (full : Path) (node : Json) (patch patch' original : Node)
    (member : Member) :
    InStep upToPatchItems (m.clearList full node patch original member)
      (m.clearList full node patch' original member) := by
  have hc := Comparison.lawful_upToPatchItems hignores
  refine .bind (.validate_of_withoutPatchItem hignores rfl) fun _ => ?_
  split
  · split
    · exact .bind (.record hc _) fun _ => .pure _
    · exact .fail hc _
  · exact .fail hc _

/-- A member that is mentioned is assigned alike. -/
theorem Differs.assignMember (h : m.Differs parts type fields fields')
    (hactions : m.configuration.NoActions) {content : Json}
    (hkey : m.Mentions parts name content) (full : Path) (node : Json) (original : Node) :
    InStep upToPatchItems (m.assignMember full node ⟨type, fields⟩ original name)
      (m.assignMember full node ⟨type, fields'⟩ original name) := by
  have hc := Comparison.lawful_upToPatchItems hignores
  have hpair : m.memberPair full ⟨type, fields'⟩ original name =
      m.memberPair full ⟨type, fields⟩ original name := rfl
  unfold Merger.assignMember
  split
  · exact .pure _
  · rw [hactions.setAction?_eq_none full, hpair]
    refine .bind' (.ofExcept hc _) fun members hmembers => ?_
    obtain ⟨patchMember, member⟩ := members
    obtain ⟨_, _, hmembers⟩ := hmembers
    have hpm := (memberPair_eq_ok.1 (Run.Succeeds.ofExcept_iff.1 hmembers).1).1
    dsimp only
    rcases h.read? patchMember with hsame | ⟨i, old, new, hreads, hread, hread', hslot⟩
    · rw [hsame]
      split
      · exact inStep_assignLeaf_patch hignores ..
      · exact inStep_unsetObject_patch hignores ..
      all_goals exact .fail hc _
    · rw [hread, hread']
      cases hslot with
      | leaf _ hkeys =>
        obtain ⟨members, hmembers, hkey, hmarker⟩ := hkey
        exact (hkeys members hmembers name content hkey hmarker (number?_of_reads hpm hreads)).elim
      | _ => exact .fail hc _

end Steps

/-! ## Collections -/

/-- Directives do the same with two items of the patch, to whichever object. -/
def Confuses (m : Merger) (type : TypeName) (item item' : Fields) (directives : List Directive) :
    Prop :=
  ∀ (base : List String) (inner : TypeName) (fields : Fields),
    InStep upToPatchItems (m.runDirectives base ⟨type, item⟩ inner directives fields)
      (m.runDirectives base ⟨type, item'⟩ inner directives fields)

section Steps

variable (hignores : m.validator.IgnoresPatchItem)

include hignores

theorem inStep_dropUnmentioned_patch (r : Reconciliation) (patchItems' : List Fields)
    (mentioned : List Uuid) (items : List Fields) :
    InStep upToPatchItems (m.dropUnmentioned r mentioned items)
      (m.dropUnmentioned { r with patchItems := patchItems' } mentioned items) := by
  have hc := Comparison.lawful_upToPatchItems hignores
  induction items with
  | nil => exact .pure _
  | cons item items ih =>
    unfold dropUnmentioned
    dsimp only
    split
    · split
      · exact .bind ih fun _ => .pure _
      · exact .bind (.validate_of_withoutPatchItem hignores rfl) fun _ =>
          .bind (.record hc _) fun _ => ih
    · exact .bind ih fun _ => .pure _

theorem inStep_removeItem_patch (r : Reconciliation) (patchItems' : List Fields) (value : Json)
    (id : Uuid) (state : Reconciled) :
    InStep upToPatchItems (m.removeItem r value id state)
      (m.removeItem { r with patchItems := patchItems' } value id state) := by
  have hc := Comparison.lawful_upToPatchItems hignores
  exact .bind (.require hc _ _) fun position =>
    .bind (.bind (.validate_of_withoutPatchItem hignores rfl) fun _ =>
      .bind (.record hc _) fun _ => .pure _) fun _ => .pure _

theorem inStep_pushItem_patch (r : Reconciliation) (patchItems' : List Fields) (value : Json)
    (patchItem patchItem' item : Node) (state : Reconciled) :
    InStep upToPatchItems (m.pushItem r value patchItem item state)
      (m.pushItem { r with patchItems := patchItems' } value patchItem' item state) := by
  have hc := Comparison.lawful_upToPatchItems hignores
  refine .bind (.validate_of_withoutPatchItem hignores rfl) fun _ => ?_
  dsimp only
  split
  · exact .bind (.record hc _) fun _ => .pure _
  · exact .fail hc _

theorem inStep_freshItem_patch (hfactories : m.configuration.NoFactories) (r : Reconciliation)
    (patchItems' : List Fields) (patchItem patchItem' : Node) :
    InStep upToPatchItems (m.freshItem r patchItem)
      (m.freshItem { r with patchItems := patchItems' } patchItem') := by
  have hc := Comparison.lawful_upToPatchItems hignores
  unfold freshItem
  dsimp only
  rw [hfactories.itemFactory?_eq_none]
  exact .bind (.construct hc _ _) fun _ => .pure _

/-- An element does the same beside two collections of the patch that differ in one item, if
its directives do so with the two items whenever it is matched with them. -/
theorem inStep_runElement_patch (hfactories : m.configuration.NoFactories) {r : Reconciliation}
    {j : Nat} {item item' : Fields} (hitem : r.patchItems[j]? = some item)
    (hidentity : (m.catalogue r.patchType).identity? item' =
      (m.catalogue r.patchType).identity? item)
    {position : Nat} {members : List (String × Json)} {directives : List Directive}
    (hinner : m.Matches r.patchType r.patchItems j position members →
      m.Confuses r.patchType item item' directives) (state : Reconciled) :
    InStep upToPatchItems (m.runElement r position (.mk (.object members) directives) state)
      (m.runElement { r with patchItems := r.patchItems.set j item' } position
        (.mk (.object members) directives) state) := by
  have hc := Comparison.lawful_upToPatchItems hignores
  obtain ⟨hj, -⟩ := List.getElem?_eq_some_iff.1 hitem
  rw [runElement, runElement]
  refine .bind' (.ofExcept hc _) fun intent hintent => ?_
  obtain ⟨_, _, hintent⟩ := hintent
  have hintent : Intent.ofMembers m.options .root members = .ok intent :=
    Intent.ofMembers_eq_ok (Run.Succeeds.ofExcept_iff.1 hintent).1
  cases intent with
  | add =>
    dsimp only
    unfold patchItemAt
    by_cases hposition : position = j
    · subst hposition
      have hold : Collection.item? r.patchType r.patchItems position =
          some ⟨r.patchType, item⟩ := by
        rw [Collection.item?, hitem, Option.map_some]
      have hnew : Collection.item? r.patchType (r.patchItems.set position item') position =
          some ⟨r.patchType, item'⟩ := by
        rw [Collection.item?, List.getElem?_set_self hj, Option.map_some]
      dsimp only
      rw [hold, hnew, Run.require, Run.require, pure_bind, pure_bind]
      exact .bind (inStep_freshItem_patch hignores hfactories ..) fun fresh =>
        .bind (.quietly hc (hinner (.inl ⟨hintent, rfl⟩) ..)) fun _ =>
          inStep_pushItem_patch hignores ..
    · have hsame : Collection.item? r.patchType (r.patchItems.set j item') position =
          Collection.item? r.patchType r.patchItems position := by
        rw [Collection.item?, Collection.item?, List.getElem?_set_ne (Ne.symm hposition)]
      dsimp only
      rw [hsame]
      exact .bind (.require hc _ _) fun patchItem =>
        .bind (inStep_freshItem_patch hignores hfactories ..) fun fresh =>
        .bind (.quietly hc (inStep_runDirectives hc ..)) fun _ => inStep_pushItem_patch hignores ..
  | update id =>
    have hposition := position?_congr (map_identity?_set hitem hidentity) id
    dsimp only
    unfold itemPair
    simp only [bind_assoc, pure_bind]
    refine .bind (.require hc _ _) fun index => ?_
    unfold Catalogue.itemWithId?
    rw [hposition]
    cases hfound : m.catalogue.position? r.patchType r.patchItems id with
    | none =>
      exact .bind (.fail hc _) fun patchItem => .bind (.require hc _ _) fun found =>
        .bind (inStep_runDirectives hc ..) fun _ => .pure _
    | some k =>
      by_cases hk : k = j
      · subst hk
        rw [Option.bind_some, Option.bind_some, hitem, List.getElem?_set_self hj, Option.map_some,
          Option.map_some, Run.require, Run.require, pure_bind, pure_bind]
        exact .bind (.require hc _ _) fun found =>
          .bind (hinner (.inr ⟨id, hintent, hfound⟩) ..) fun _ => .pure _
      · rw [Option.bind_some, Option.bind_some, List.getElem?_set_ne (Ne.symm hk)]
        exact .bind (.require hc _ _) fun patchItem => .bind (.require hc _ _) fun found =>
          .bind (inStep_runDirectives hc ..) fun _ => .pure _
  | remove id => exact inStep_removeItem_patch hignores ..

theorem inStep_runElements_patch (hfactories : m.configuration.NoFactories) {r : Reconciliation}
    {j : Nat} {item item' : Fields} (hitem : r.patchItems[j]? = some item)
    (hidentity : (m.catalogue r.patchType).identity? item' =
      (m.catalogue r.patchType).identity? item) (elements : List Element) (start : Nat)
    (hinner : ∀ k members directives, elements[k]? = some (.mk (.object members) directives) →
      m.Matches r.patchType r.patchItems j (start + k) members →
      m.Confuses r.patchType item item' directives) (state : Reconciled) :
    InStep upToPatchItems (m.runElements r start elements state)
      (m.runElements { r with patchItems := r.patchItems.set j item' } start elements state) := by
  induction elements generalizing start state with
  | nil => exact .pure _
  | cons element elements ih =>
    rw [runElements, runElements]
    refine .bind ?_ fun state => ih (start + 1) (fun k members directives hk hmatches => ?_) state
    · obtain ⟨value, directives⟩ := element
      cases hvalue : value.isObject with
      | false =>
        rw [runElement_of_not_isObject hvalue, runElement_of_not_isObject hvalue]
        exact .pure _
      | true =>
        obtain ⟨members, rfl⟩ := Json.exists_of_isObject hvalue
        exact inStep_runElement_patch hignores hfactories hitem hidentity
          (hinner 0 members directives rfl) state
    · rw [Nat.add_right_comm, Nat.add_assoc] at hmatches
      exact hinner (k + 1) members directives hk hmatches

theorem inStep_askToClear_patch (full : Path) (node : Json) (patch patch' original : Node)
    (member : Member) (clears : Bool) :
    InStep upToPatchItems (m.askToClear full node patch original member clears)
      (m.askToClear full node patch' original member clears) := by
  cases clears with
  | true => exact .validate_of_withoutPatchItem hignores rfl
  | false => exact .pure _

theorem inStep_keepMentioned_patch (r : Reconciliation) (patchItems' : List Fields) (drops : Bool)
    (state : Reconciled) :
    InStep upToPatchItems (m.keepMentioned r drops state)
      (m.keepMentioned { r with patchItems := patchItems' } drops state) := by
  cases drops with
  | true => exact inStep_dropUnmentioned_patch hignores ..
  | false => exact .pure _

/-- A collection is reconciled alike beside two collections of the patch, if its elements are
run alike. -/
theorem inStep_reconcile_patch {full : Path} {node : Json} {elements : List Element}
    {runElements : Reconciliation → Reconciled → Run Reconciled} {patch patch' : Node}
    {patchMember : Member} {patchType : TypeName} {patchItems patchItems' : List Fields}
    (hread : patch.read? patchMember = some (.collection patchType patchItems))
    (hread' : patch'.read? patchMember = some (.collection patchType patchItems'))
    (hrun : ∀ property type state, InStep upToPatchItems
      (runElements ⟨full, property, patchType, patchItems, type⟩ state)
      (runElements ⟨full, property, patchType, patchItems', type⟩ state))
    (original : Node) (member : Member) :
    InStep upToPatchItems
      (m.reconcile full node elements runElements patch original patchMember member)
      (m.reconcile full node elements runElements patch' original patchMember member) := by
  have hc := Comparison.lawful_upToPatchItems hignores
  unfold reconcile
  split
  · exact .fail hc _
  · unfold patchCollection
    rw [hread, hread']
    simp only [pure_bind]
    refine .bind (inStep_itemsIdentified hc ..) fun identified =>
      .bind (inStep_askToClear_patch hignores ..) fun _ => ?_
    split
    · split
      · exact .pure _
      · exact .bind (inStep_clearItems hc ..) fun items => .bind (hrun ..) fun state =>
          .bind (inStep_keepMentioned_patch hignores ⟨full, _, patchType, patchItems, _⟩ ..)
            fun _ => .pure _
    · exact .fail hc _

/-- A collection is not reconciled with what is none. -/
theorem inStep_reconcile_of_fail {full : Path} {node : Json} {elements : List Element}
    {runElements : Reconciliation → Reconciled → Run Reconciled} {patch patch' : Node}
    {patchMember : Member} {e : MergeError}
    (hfail : m.patchCollection full patch patchMember = Run.fail e)
    (hfail' : m.patchCollection full patch' patchMember = Run.fail e)
    (original : Node) (member : Member) :
    InStep upToPatchItems
      (m.reconcile full node elements runElements patch original patchMember member)
      (m.reconcile full node elements runElements patch' original patchMember member) := by
  have hc := Comparison.lawful_upToPatchItems hignores
  unfold reconcile
  split
  · exact .fail hc _
  · rw [hfail, hfail']
    exact ⟨fun _ => .error rfl⟩

end Steps

/-- What is shown as a collection is one in both patches, with the same items up to one that
differs in the same way, or in neither. -/
theorem Differs.patchCollection (h : m.Differs parts type fields fields') (full : Path)
    (member : Member) :
    (∃ e, m.patchCollection full ⟨type, fields⟩ member = Run.fail e ∧
      m.patchCollection full ⟨type, fields'⟩ member = Run.fail e) ∨
    ∃ inner items items', Node.read? ⟨type, fields⟩ member = some (.collection inner items) ∧
      Node.read? ⟨type, fields'⟩ member = some (.collection inner items') ∧
      (items' = items ∨ ∃ i j item item', member.reads = some i ∧ items[j]? = some item ∧
        items' = items.set j item' ∧
        m.Differs (m.partsOfItem parts type i inner items j) inner item item') := by
  rcases h.read? member with hsame | ⟨i, old, new, hreads, hread, hread', hslot⟩
  · cases hread : Node.read? ⟨type, fields⟩ member with
    | none => exact .inl ⟨_, by rw [Merger.patchCollection, hread],
        by rw [Merger.patchCollection, hsame, hread]; rfl⟩
    | some view =>
      rw [hread] at hsame
      cases view with
      | collection inner items => exact .inr ⟨inner, items, items, rfl, hsame, .inl rfl⟩
      | _ => exact .inl ⟨_, by rw [Merger.patchCollection, hread],
          by rw [Merger.patchCollection, hsame]⟩
  · cases hslot with
    | item hitem hinner =>
      exact .inr ⟨_, _, _, hread, hread', .inr ⟨i, _, _, _, hreads, hitem, rfl, hinner⟩⟩
    | _ => exact .inl ⟨_, by rw [Merger.patchCollection, hread]; rfl,
        by rw [Merger.patchCollection, hread']; rfl⟩

section Steps

variable (hignores : m.validator.IgnoresPatchItem)

include hignores

/-- An array at a member that is mentioned is applied alike, if the directives of its elements
do the same with objects that differ in what they do not mention. -/
theorem Differs.arrayMember (h : m.Differs parts type fields fields')
    (hactions : m.configuration.NoActions) (hfactories : m.configuration.NoFactories)
    {values : List Json} (hkey : m.Mentions parts name (.array values))
    (hinner : ∀ element, Json.object element ∈ values → ∀ parts inner item item',
      element ∈ parts → m.Differs parts inner item item' →
      m.Confuses inner item item' (Directive.ofMembers m.options element))
    (full : Path) (node : Json) (original : Node) :
    InStep upToPatchItems
      (m.arrayMember full node (Directive.elements m.options values)
        (fun r state => m.runElements r 0 (Directive.elements m.options values) state)
        ⟨type, fields⟩ original name)
      (m.arrayMember full node (Directive.elements m.options values)
        (fun r state => m.runElements r 0 (Directive.elements m.options values) state)
        ⟨type, fields'⟩ original name) := by
  have hc := Comparison.lawful_upToPatchItems hignores
  have hpair : m.memberPair full ⟨type, fields'⟩ original name =
      m.memberPair full ⟨type, fields⟩ original name := rfl
  unfold Merger.arrayMember
  split
  · exact .pure _
  · rw [hpair]
    refine .bind' (.ofExcept hc _) fun members hmembers => ?_
    obtain ⟨patchMember, member⟩ := members
    obtain ⟨_, _, hmembers⟩ := hmembers
    have hpm := (memberPair_eq_ok.1 (Run.Succeeds.ofExcept_iff.1 hmembers).1).1
    dsimp only
    split
    · exact inStep_clearList_patch hignores ..
    · split
      · exact h.assignMember hignores hactions hkey ..
      · rcases h.patchCollection full patchMember with
          ⟨e, hfail, hfail'⟩ | ⟨inner, items, items', hread, hread', rfl | hdiffers⟩
        · exact inStep_reconcile_of_fail hignores hfail hfail' ..
        · exact inStep_reconcile_patch hignores hread hread'
            (fun _ _ _ => inStep_runElements hc ..) ..
        · obtain ⟨i, j, item, item', hreads, hitem, rfl, hdiffers⟩ := hdiffers
          refine inStep_reconcile_patch hignores hread hread' (fun property itemType state => ?_) ..
          refine inStep_runElements_patch hignores hfactories
            (r := ⟨full, property, inner, items, itemType⟩) hitem hdiffers.identity?_eq _ 0
            (fun k element directives hk hmatches => ?_) state
          obtain ⟨members, hmembers, hkey, hmarker⟩ := hkey
          rw [Directive.elements_eq_map, List.getElem?_map, Option.map_eq_some_iff] at hk
          obtain ⟨value, hvalue, heq⟩ := hk
          obtain ⟨rfl, rfl⟩ := Element.mk.inj heq
          rw [Nat.zero_add] at hmatches
          exact hinner element (List.mem_of_getElem? hvalue)
            (m.partsOfItem parts type i inner items j) inner item item'
            ⟨members, hmembers, name, values, k, hkey, hmarker, number?_of_reads hpm hreads, hvalue,
              hmatches⟩ hdiffers

/-! ## Navigation -/

omit hignores in
/-- Two things of different shapes are told apart by their shapes alone. -/
theorem inStep_shapeMismatch (hc : upToPatchItems.Lawful m) (here : Path) (shape found : String) :
    InStep upToPatchItems
      (if found ≠ shape then (Run.fail (.typeMismatch here shape found) : Run Fields)
        else Run.fail (.typeMismatch here shape "object"))
      (if found ≠ shape then Run.fail (.typeMismatch here shape found)
        else Run.fail (.typeMismatch here shape "object")) := by
  split <;> exact .fail hc _

omit hignores in
/-- A navigation sees of an object of the patch what the member of its first key shows. -/
theorem visit_congr_patch {node : Json} {onMember : Node → Node → String → Run Fields}
    {before rest : List String} {key : String} {original : Node} {pm om : Member}
    (hpm : m.member? ⟨type, fields⟩ name = some pm) (hom : m.member? original name = some om)
    (hread : Node.read? ⟨type, fields'⟩ pm = Node.read? ⟨type, fields⟩ pm) :
    m.visit node onMember before (name :: key :: rest) ⟨type, fields'⟩ original =
      m.visit node onMember before (name :: key :: rest) ⟨type, fields⟩ original := by
  have hpm' : m.member? ⟨type, fields'⟩ name = some pm := hpm
  unfold Merger.visit
  dsimp only
  rw [memberPair_eq_ok.2 ⟨hpm, hom⟩, memberPair_eq_ok.2 ⟨hpm', hom⟩, Run.ofExcept, pure_bind,
    pure_bind, hread]
  rfl

/-- A navigation that does not find its first member fails whatever the object of the patch
holds. -/
theorem inStep_visit_of_members {node : Json} {onMember : Node → Node → String → Run Fields}
    {before rest : List String} {key : String} {original : Node}
    (h : ∀ pm om, m.member? ⟨type, fields⟩ name = some pm → m.member? original name = some om →
      InStep upToPatchItems
        (m.visit node onMember before (name :: key :: rest) ⟨type, fields⟩ original)
        (m.visit node onMember before (name :: key :: rest) ⟨type, fields'⟩ original)) :
    InStep upToPatchItems
      (m.visit node onMember before (name :: key :: rest) ⟨type, fields⟩ original)
      (m.visit node onMember before (name :: key :: rest) ⟨type, fields'⟩ original) := by
  have hsame (full : Path) : m.memberPair full ⟨type, fields'⟩ original name =
      m.memberPair full ⟨type, fields⟩ original name := rfl
  cases hpair : m.memberPair ⟨before ++ name :: key :: rest⟩ ⟨type, fields⟩ original name with
  | ok pair =>
    obtain ⟨hpm, hom⟩ := memberPair_eq_ok.1 hpair
    exact h pair.1 pair.2 hpm hom
  | error e =>
    unfold Merger.visit
    dsimp only
    rw [hsame, hpair]
    exact .fail (Comparison.lawful_upToPatchItems hignores) _

section Kinds

variable {node : Json} {onMember : Node → Node → String → Run Fields} {before rest : List String}
  {key : String} {original : Node} {pm om : Member}
  (hpm : m.member? ⟨type, fields⟩ name = some pm) (hom : m.member? original name = some om)

include hpm hom

/-- Through an object of the patch a navigation goes on in it. -/
theorem inStep_visit_object {p p' : Node}
    (hread : Node.read? ⟨type, fields⟩ pm = some (.object (some p)))
    (hread' : Node.read? ⟨type, fields'⟩ pm = some (.object (some p')))
    (hinner : ∀ before o, InStep upToPatchItems (m.visit node onMember before (key :: rest) p o)
      (m.visit node onMember before (key :: rest) p' o)) :
    InStep upToPatchItems
      (m.visit node onMember before (name :: key :: rest) ⟨type, fields⟩ original)
      (m.visit node onMember before (name :: key :: rest) ⟨type, fields'⟩ original) := by
  have hc := Comparison.lawful_upToPatchItems hignores
  have hpm' : m.member? ⟨type, fields'⟩ name = some pm := hpm
  unfold Merger.visit
  dsimp only
  rw [memberPair_eq_ok.2 ⟨hpm, hom⟩, memberPair_eq_ok.2 ⟨hpm', hom⟩, Run.ofExcept, pure_bind,
    pure_bind, hread, hread']
  rcases original.target? om with _ | ⟨k, slot⟩
  · exact .fail hc _
  · cases slot with
    | object => exact .bind (hinner ..) fun _ => .pure _
    | optional => exact .bind (.ensure hc _ _ _) fun _ => .bind (hinner ..) fun _ => .pure _
    | _ => exact inStep_shapeMismatch hc ..

/-- No navigation goes through a collection. -/
theorem inStep_visit_collection {inner : TypeName} {items items' : List Fields}
    (hread : Node.read? ⟨type, fields⟩ pm = some (.collection inner items))
    (hread' : Node.read? ⟨type, fields'⟩ pm = some (.collection inner items')) :
    InStep upToPatchItems
      (m.visit node onMember before (name :: key :: rest) ⟨type, fields⟩ original)
      (m.visit node onMember before (name :: key :: rest) ⟨type, fields'⟩ original) := by
  have hc := Comparison.lawful_upToPatchItems hignores
  have hpm' : m.member? ⟨type, fields'⟩ name = some pm := hpm
  unfold Merger.visit
  dsimp only
  rw [memberPair_eq_ok.2 ⟨hpm, hom⟩, memberPair_eq_ok.2 ⟨hpm', hom⟩, Run.ofExcept, pure_bind,
    pure_bind, hread, hread']
  rcases original.target? om with _ | ⟨k, slot⟩
  · exact .fail hc _
  · cases slot with
    | _ => exact inStep_shapeMismatch hc ..

/-- Through a dictionary it goes on in the entry that the second key names. -/
theorem inStep_visit_dictionary {inner : TypeName} {entries entries' : List (String × Fields)}
    (hread : Node.read? ⟨type, fields⟩ pm = some (.dictionary inner entries))
    (hread' : Node.read? ⟨type, fields'⟩ pm = some (.dictionary inner entries'))
    (hsome : (Dictionary.find? key entries').isSome = (Dictionary.find? key entries).isSome)
    (hinner : ∀ p p' before next later o, rest = next :: later →
      Dictionary.find? key entries = some p → Dictionary.find? key entries' = some p' →
      InStep upToPatchItems (m.visit node onMember before rest ⟨inner, p⟩ o)
        (m.visit node onMember before rest ⟨inner, p'⟩ o)) :
    InStep upToPatchItems
      (m.visit node onMember before (name :: key :: rest) ⟨type, fields⟩ original)
      (m.visit node onMember before (name :: key :: rest) ⟨type, fields'⟩ original) := by
  have hc := Comparison.lawful_upToPatchItems hignores
  have hpm' : m.member? ⟨type, fields'⟩ name = some pm := hpm
  unfold Merger.visit
  dsimp only
  rw [memberPair_eq_ok.2 ⟨hpm, hom⟩, memberPair_eq_ok.2 ⟨hpm', hom⟩, Run.ofExcept, pure_bind,
    pure_bind, hread, hread']
  rcases original.target? om with _ | ⟨k, slot⟩
  · exact .fail hc _
  · cases slot with
    | dictionary =>
      cases rest with
      | nil => exact .fail hc _
      | cons next later =>
        dsimp only
        cases hfind : Dictionary.find? key entries with
        | none =>
          rw [hfind, Option.isSome_none, Option.isSome_eq_false_iff, Option.isNone_iff_eq_none]
            at hsome
          rw [hsome]
          exact .fail hc _
        | some p =>
          rw [hfind, Option.isSome_some] at hsome
          obtain ⟨p', hp'⟩ := Option.isSome_iff_exists.1 hsome
          rw [hp', Run.require, Run.require, pure_bind, pure_bind]
          exact .bind (.ensure hc _ _ _) fun _ =>
            .bind (hinner p p' _ next later _ rfl hfind hp') fun _ => .pure _
    | _ => exact inStep_shapeMismatch hc ..

/-- Through a dictionary of leaves it ends at an entry, which is the same in both. -/
theorem inStep_visit_leafDictionary {leafType : LeafType} {entries entries' : List (String × Cell)}
    (hread : Node.read? ⟨type, fields⟩ pm = some (.leafDictionary leafType entries))
    (hread' : Node.read? ⟨type, fields'⟩ pm = some (.leafDictionary leafType entries'))
    (hfind : rest = [] → Dictionary.find? key entries' = Dictionary.find? key entries) :
    InStep upToPatchItems
      (m.visit node onMember before (name :: key :: rest) ⟨type, fields⟩ original)
      (m.visit node onMember before (name :: key :: rest) ⟨type, fields'⟩ original) := by
  have hc := Comparison.lawful_upToPatchItems hignores
  have hpm' : m.member? ⟨type, fields'⟩ name = some pm := hpm
  unfold Merger.visit
  dsimp only
  rw [memberPair_eq_ok.2 ⟨hpm, hom⟩, memberPair_eq_ok.2 ⟨hpm', hom⟩, Run.ofExcept, pure_bind,
    pure_bind, hread, hread']
  rcases original.target? om with _ | ⟨k, slot⟩
  · exact .fail hc _
  · cases slot with
    | leafDictionary =>
      cases rest with
      | nil =>
        dsimp only
        unfold Merger.assignEntry
        rw [hfind rfl]
        exact .bind (inStep_assignEntry hc ..) fun _ => .pure _
      | cons next later => exact .fail hc _
    | _ => exact inStep_shapeMismatch hc ..

end Kinds

/-- A navigation does the same with two objects of the patch that differ in one leaf, along
keys of one of the parts that do not mention it. -/
theorem Differs.visit {node leaf : Json} {onMember : Node → Node → String → Run Fields}
    (hsame : ∀ p o name, InStep upToPatchItems (onMember p o name) (onMember p o name))
    (hact : ∀ {parts : Parts} {type : TypeName} {fields fields' : Fields} (o : Node)
      {name : String}, m.Differs parts type fields fields' → m.Mentions parts name leaf →
      InStep upToPatchItems (onMember ⟨type, fields⟩ o name) (onMember ⟨type, fields'⟩ o name)) :
    (before rest : List String) → {parts : Parts} → {type : TypeName} →
    {fields fields' : Fields} → (original : Node) → m.Differs parts type fields fields' →
    (∃ members ∈ parts, Leads m.options (.object members) rest leaf) →
    InStep upToPatchItems (m.visit node onMember before rest ⟨type, fields⟩ original)
      (m.visit node onMember before rest ⟨type, fields'⟩ original)
  | _, [], _, _, _, _, _, _, _ => .fail (Comparison.lawful_upToPatchItems hignores) _
  | _, [name], _, _, _, _, original, h, hleads => by
    obtain ⟨members, hmembers, hleads⟩ := hleads
    obtain ⟨_, _, ⟨rfl⟩, hkey, hmarker, hrest⟩ := leads_cons_iff.1 hleads
    obtain ⟨-, rfl⟩ := leads_nil_iff.1 hrest
    exact hact original h ⟨members, hmembers, hkey, hmarker⟩
  | before, name :: key :: rest, parts, type, fields, fields', original, h, hleads => by
    have hc := Comparison.lawful_upToPatchItems hignores
    have hrefl (before rest : List String) (p o : Node) :
        InStep upToPatchItems (m.visit node onMember before rest p o)
          (m.visit node onMember before rest p o) :=
      inStep_visit hc (fun _ _ _ => True) (fun _ _ _ => trivial) (hc.values_refl _)
        (fun _ _ _ _ => hsame ..) before rest p o trivial
    obtain ⟨members, hmembers, hleads⟩ := hleads
    obtain ⟨_, inside, ⟨rfl⟩, hkey, hmarker, hrest⟩ := leads_cons_iff.1 hleads
    refine inStep_visit_of_members hignores fun pm om hpm hom => ?_
    rcases h.read? pm with heq | ⟨i, old, new, hreads, hread, hread', hslot⟩
    · rw [visit_congr_patch hpm hom heq]
      exact hrefl ..
    · have hnumber := number?_of_reads hpm hreads
      -- the value at the first key is an object, which is a part behind it
      obtain ⟨inner, further, rfl, hfurther, hfurtherMarker, hlast⟩ := leads_cons_iff.1 hrest
      have hpart : inner ∈ m.partsOfField parts type i :=
        ⟨members, hmembers, name, hkey, hmarker, hnumber⟩
      cases hslot with
      | leaf _ hkeys => exact (hkeys members hmembers name _ hkey hmarker hnumber).elim
      | object hinner | optional hinner =>
        exact inStep_visit_object hignores hpm hom hread hread' fun before o =>
          Differs.visit hsame hact before (key :: rest) o hinner ⟨inner, hpart, hrest⟩
      | item => exact inStep_visit_collection hignores hpm hom hread hread'
      | @entry _ _ _ _ changed entries _ _ hentry hinner =>
        have hpresent : (Dictionary.find? changed entries).isSome :=
          Option.isSome_iff_exists.2 ⟨_, hentry⟩
        refine inStep_visit_dictionary hignores hpm hom hread hread' ?_
          fun p p' before next later o hnext hp hp' => ?_
        · rw [Dictionary.find?_replace _ hpresent]
          split <;> simp_all
        · rw [Dictionary.find?_replace _ hpresent] at hp'
          by_cases hchanged : changed = key
          · subst hchanged hnext
            obtain ⟨_, _, rfl, -⟩ := leads_cons_iff.1 hlast
            rw [if_pos rfl] at hp'
            obtain rfl := Option.some_inj.1 hp'
            obtain rfl := Option.some_inj.1 (hentry.symm.trans hp)
            exact Differs.visit hsame hact before (next :: later) o hinner
              ⟨_, ⟨inner, hpart, hfurther, hfurtherMarker⟩, hlast⟩
          · rw [if_neg hchanged, hp] at hp'
            obtain rfl := Option.some_inj.1 hp'
            exact hrefl ..
      | @cell _ _ _ unmentioned leafType entries value value' hentry hkeys =>
        refine inStep_visit_leafDictionary hignores hpm hom hread hread' fun _ => ?_
        have hne : unmentioned ≠ key := by
          rintro rfl
          rw [hkeys inner hpart further hfurther] at hfurtherMarker
          cases hfurtherMarker
        rw [Dictionary.find?_replace _ (Option.isSome_iff_exists.2 ⟨_, hentry⟩), if_neg hne]

/-! ## Directives -/

/-- The directives of the parts of a payload do the same with two objects of the patch that
differ in one leaf which the parts do not mention. -/
theorem Differs.confuses (hactions : m.configuration.NoActions)
    (hfactories : m.configuration.NoFactories) (directives : List Directive) :
    ∀ {parts : Parts} {type : TypeName} {fields fields' : Fields},
      m.Differs parts type fields fields' →
      (∀ d ∈ directives, ∃ members ∈ parts, ∃ path leaf,
        Leads m.options (.object members) path leaf ∧ d = .ofValue m.options path leaf) →
      m.Confuses type fields fields' directives := by
  have hc := Comparison.lawful_upToPatchItems hignores
  induction directives using Directive.forall_of_elements with
  | nil => exact fun _ _ _ _ _ => .pure _
  | cons d ds helements ih =>
    intro parts type fields fields' h hparts base inner original
    obtain ⟨members, hmembers, path, leaf, hleads, rfl⟩ := hparts d (List.mem_cons_self ..)
    have hlater := ih h fun d hd => hparts d (List.mem_cons_of_mem _ hd)
    rw [runDirectives, runDirectives]
    refine .bind ?_ fun made => hlater base inner made
    have hobject := hleads.isObject_eq_false
    cases leaf with
    | object => cases hobject
    | array values =>
      rw [Directive.ofValue, runDirective, runDirective]
      refine h.visit hignores (fun _ _ _ => inStep_arrayMember hc (hc.values_refl _)
        (List.forall₂_same.2 fun _ _ => hc.values_refl _) _ _ _
        fun _ _ _ _ _ _ => inStep_runElements hc ..) (fun o name h hkey => ?_) base path _
        ⟨members, hmembers, hleads⟩
      refine h.arrayMember hignores hactions hfactories hkey
        (fun element helement parts inner item item' hpart hdiffers => ?_) ..
      have hin : Element.mk (.object element) (Directive.ofMembers m.options element) ∈
          (Directive.ofValue m.options path (.array values)).arrayElements := by
        rw [Directive.ofValue, Directive.arrayElements, Directive.elements_eq_map]
        exact List.mem_map.2 ⟨_, helement, rfl⟩
      refine helements _ hin hdiffers fun d hd => ?_
      obtain ⟨path, leaf, hleads, rfl⟩ := Directive.mem_ofMembers_iff.1 hd
      exact ⟨element, hpart, path, leaf, hleads, rfl⟩
    | _ =>
      rw [Directive.ofValue, runDirective, runDirective]
      · split
        · exact .pure _
        · refine h.visit hignores (fun _ _ _ => inStep_assignMember hc _ (hc.values_refl _) ..)
            (fun o name h hkey => ?_) base path _ ⟨members, hmembers, hleads⟩
          exact h.assignMember hignores hactions hkey _ _ o
      · rintro _ ⟨⟩

end Steps

/-! ## A whole merge -/

/-- Patch values that are not mentioned do not leak. Two patches that differ in one leaf, or in
one entry of a dictionary of leaves, which is no identity and to which no key of the payload
goes, give one report or one error, and one object. -/
theorem unmentioned_values_inert (hactions : m.configuration.NoActions)
    (hfactories : m.configuration.NoFactories) (hignores : m.validator.IgnoresPatchItem)
    {payload : Json} {type : TypeName} {fields fields' : Fields}
    (h : m.Differs {members | payload = .object members} type fields fields')
    (original : Node) (minted : Nat) :
    (m.merge ⟨type, fields⟩ original payload minted).result =
        (m.merge ⟨type, fields'⟩ original payload minted).result ∧
      (m.merge ⟨type, fields⟩ original payload minted).original =
        (m.merge ⟨type, fields'⟩ original payload minted).original := by
  cases payload with
  | object members =>
    have hconfuses : m.Confuses type fields fields' (Directive.ofMembers m.options members) :=
      h.confuses hignores hactions hfactories _ fun d hd =>
        ⟨members, rfl, Directive.mem_ofMembers_iff.1 hd⟩
    have hagree := (hconfuses [] original.type original.fields).agree (s := Session.start minted)
      (t := Session.start minted) ⟨rfl, rfl, rfl, rfl⟩
    rw [merge_object, merge_object]
    change upToPatchItems.Agree (m.applyMembers ⟨type, fields⟩ original members _)
      (m.applyMembers ⟨type, fields'⟩ original members _) at hagree
    generalize m.applyMembers ⟨type, fields⟩ original members _ = ends at hagree ⊢
    generalize m.applyMembers ⟨type, fields'⟩ original members _ = ends' at hagree ⊢
    cases hagree with
    | ok hst => exact ⟨congrArg Except.ok hst.2.1, rfl⟩
    | error heq => exact ⟨congrArg Except.error heq, rfl⟩
  | _ => exact ⟨rfl, rfl⟩

end Merger

/-! ## Trees -/

namespace Sample

/-- A patch with an elm and, behind it, an oak of some name. -/
def oakCalled (name : String) : Node :=
  ⟨"Tree", sapling 1 "Root" [sapling 11 "Elm" [], sapling 10 name []]⟩

/-- The only element of the payload names the elm, so the name of the oak is not mentioned. -/
theorem oakCalled_differs (name name' : String) :
    grove.Differs {members | nameOfElm = .object members} "Tree" (oakCalled name).fields
      (oakCalled name').fields := by
  have hname : grove.SlotDiffers
      (grove.partsOfItem {members | nameOfElm = .object members} "Tree" 2 "Tree"
        [sapling 11 "Elm" [], sapling 10 name []] 1) "Tree" 1 (.leaf .text (.text name))
      (.leaf .text (.text name')) := by
    refine .leaf (by decide) fun element helement => ?_
    obtain ⟨members, hmembers, key, values, position, hkey, -, -, hvalue, hmatches⟩ := helement
    obtain rfl := Json.object.inj hmembers
    obtain ⟨rfl, hvalues⟩ := Prod.ext_iff.1 (List.mem_singleton.1 hkey)
    obtain rfl := Json.array.inj hvalues
    have hfirst : position = 0 := by
      have hlt := (List.getElem?_eq_some_iff.1 hvalue).1
      simpa using hlt
    subst hfirst
    obtain rfl := Json.object.inj (Option.some_inj.1 hvalue)
    have hasks : Intent.ofMembers grove.options .root
        [("Id", .string "00000000-0000-0000-0000-00000000000b"), ("Name", .null)] =
          .ok (.update ⟨11⟩) := by
      decide +kernel
    rw [Merger.Matches, hasks] at hmatches
    rcases hmatches with ⟨hadd, -⟩ | ⟨id, hupdate, hposition⟩
    · cases hadd
    · obtain ⟨⟩ := hupdate
      cases hposition
  exact .field (i := 2) rfl (.item (j := 1) rfl (.field (i := 1) rfl hname))

end Sample

/-- The name of the oak does not show when only the elm gets its name. -/
theorem unmentioned_values_inert_grove :
    (Sample.grove.merge (Sample.oakCalled "Oak") Sample.oakAndElm Sample.nameOfElm 0).result =
        .ok ⟨[⟨⟨["Children", "Name"]⟩, .updated, none⟩]⟩ ∧
      (Sample.grove.merge (Sample.oakCalled "Oak") Sample.oakAndElm Sample.nameOfElm 0).result =
        (Sample.grove.merge (Sample.oakCalled "Yew") Sample.oakAndElm Sample.nameOfElm 0).result ∧
      (Sample.grove.merge (Sample.oakCalled "Oak") Sample.oakAndElm Sample.nameOfElm 0).original =
        (Sample.grove.merge (Sample.oakCalled "Yew") Sample.oakAndElm Sample.nameOfElm
          0).original :=
  ⟨by decide +kernel, Merger.unmentioned_values_inert Configuration.noActions_empty
    (by rintro e ⟨⟩) Validator.ignoresPatchItem_approveAll (Sample.oakCalled_differs "Oak" "Yew")
    Sample.oakAndElm 0⟩

end SelectiveMerge
