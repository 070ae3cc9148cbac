import SelectiveMerge.Proofs.InertKeys
import SelectiveMerge.Proofs.Stability

/-!
# Payload values never reach the original

A payload says which members are taken over, the patch says what they become. So any scalar
of a payload can be exchanged for another one, and a removal marker outside of elements can
come or go with all that is below it, and the merge does the same. Elements are the exception:
the scalars at their own identity and marker keys say what is asked for.

* `MergeError.SameKind` — errors of one variant that point at one path
* `Resembles` — payloads with the same keys and other scalars
* `ResemblesMembers.ofMembers_inStep` — elements that resemble each other ask for the same
* `Merger.directiveLevels_of_resembles` — the directives of payloads that resemble each other do
  so too, level by level
* `Merger.payload_values_inert` — such payloads have one effect
-/

namespace SelectiveMerge

/-- Two errors of one variant that point at one path. -/
def MergeError.SameKind (e e' : MergeError) : Prop :=
  e.ctorIdx = e'.ctorIdx ∧ e.path? = e'.path?

theorem MergeError.SameKind.refl (e : MergeError) : e.SameKind e := ⟨rfl, rfl⟩

/-- Two records that differ at most in the values of their requests, and failures that
differ at most in their wording. -/
def Comparison.upToPayload : Comparison :=
  leavingOut Request.withoutValue MergeError.SameKind fun v w => v.isObject = w.isObject

open Comparison (upToPayload)
open Merger (SameScalar isObject_of_isScalar ofMembers_eq_ok_of_forall₂)

theorem Comparison.lawful_upToPayload {m : Merger} (hignores : m.validator.IgnoresValue) :
    upToPayload.Lawful m :=
  lawful_leavingOut hignores (fun _ => rfl) (fun _ => rfl) id .refl fun _ _ _ => ⟨rfl, rfl⟩

/-! ## Payloads that resemble each other -/

mutual

/-- Two values of payloads with the same keys in the same order, up to their scalars and up
to removal markers that say nothing. -/
inductive Resembles (options : Options) : Json → Json → Prop where
  | scalar {value value' : Json} (hvalue : value.isScalar = true)
      (hvalue' : value'.isScalar = true) : Resembles options value value'
  | array {items items' : List Json} (hitems : ResemblesItems options items items') :
      Resembles options (.array items) (.array items')
  | object {members members' : List (String × Json)}
      (hmembers : ResemblesMembers options false members members') :
      Resembles options (.object members) (.object members')

/-- The members of two objects, which are elements of arrays or not. An element keeps its
markers, and the scalars at its markers and identity keys. -/
inductive ResemblesMembers (options : Options) :
    (element : Bool) → List (String × Json) → List (String × Json) → Prop where
  | nil {element : Bool} : ResemblesMembers options element [] []
  | keep {element : Bool} {key : String} {value value' : Json}
      {members members' : List (String × Json)} (hvalue : Resembles options value value')
      (hsame : element = true → isIdentityKey key = true ∨ options.isRemoveMarker key = true →
        SameScalar value value')
      (hrest : ResemblesMembers options element members members') :
      ResemblesMembers options element ((key, value) :: members) ((key, value') :: members')
  | dropMarker {key : String} {value : Json} {members members' : List (String × Json)}
      (hmarker : options.isRemoveMarker key = true)
      (hrest : ResemblesMembers options false members members') :
      ResemblesMembers options false ((key, value) :: members) members'
  | addMarker {key : String} {value : Json} {members members' : List (String × Json)}
      (hmarker : options.isRemoveMarker key = true)
      (hrest : ResemblesMembers options false members members') :
      ResemblesMembers options false members ((key, value) :: members')

/-- The items of two arrays, one by one. -/
inductive ResemblesItems (options : Options) : List Json → List Json → Prop where
  | nil : ResemblesItems options [] []
  | element {members members' : List (String × Json)} {items items' : List Json}
      (hmembers : ResemblesMembers options true members members')
      (hrest : ResemblesItems options items items') :
      ResemblesItems options (.object members :: items) (.object members' :: items')
  | other {item item' : Json} {items items' : List Json} (hobject : item.isObject = false)
      (hitem : Resembles options item item') (hrest : ResemblesItems options items items') :
      ResemblesItems options (item :: items) (item' :: items')

end

variable {options : Options} {m : Merger}


theorem Resembles.isObject_eq {value value' : Json} (h : Resembles options value value') :
    value.isObject = value'.isObject := by
  cases h with
  | scalar hvalue hvalue' => rw [isObject_of_isScalar hvalue, isObject_of_isScalar hvalue']
  | array | object => rfl

/-! ## What elements ask for -/

/-- The only error of an element that does not say what it asks for is its identity. -/
theorem Intent.eq_invalidIdentity {full : Path} {members : List (String × Json)} {e : MergeError}
    (h : Intent.ofMembers options full members = .error e) :
    ∃ raw, e = .invalidIdentity full raw := by
  unfold Intent.ofMembers at h
  dsimp only at h
  split at h
  · cases h
  · cases h
  · split at h
    · cases h
    · split at h
      · cases h
      · exact ⟨_, (Except.error.inj h).symm⟩
  · exact ⟨_, (Except.error.inj h).symm⟩

/-- An element keeps its own keys, and what can be read at those that count. -/
theorem ResemblesMembers.forall₂ : {members members' : List (String × Json)} →
    ResemblesMembers options true members members' →
    List.Forall₂ (fun a b => a.1 = b.1 ∧
      (isIdentityKey a.1 = true ∨ options.isRemoveMarker a.1 = true → SameScalar a.2 b.2))
      members members'
  | _, _, .nil => .nil
  | _, _, .keep _ hsame hrest => .cons ⟨rfl, hsame rfl⟩ hrest.forall₂

/-- Elements that resemble each other ask for the same, or do not say what they ask for. -/
theorem ResemblesMembers.ofMembers_inStep {members members' : List (String × Json)}
    (h : ResemblesMembers options true members members') (full : Path) :
    InStep upToPayload (Run.ofExcept (Intent.ofMembers options full members))
      (Run.ofExcept (Intent.ofMembers options full members')) := by
  have hkeys := h.forall₂
  have hkeys' := hkeys.flip.imp fun _ _ h => (⟨h.1.symm, fun hkey =>
    (h.2 (h.1 ▸ hkey)).symm⟩ : _ ∧ (_ → SameScalar _ _))
  cases hintent : Intent.ofMembers options full members with
  | ok intent =>
    rw [ofMembers_eq_ok_of_forall₂ hkeys hintent]
    exact .pure intent
  | error e =>
    cases hintent' : Intent.ofMembers options full members' with
    | ok intent =>
      rw [ofMembers_eq_ok_of_forall₂ hkeys' hintent'] at hintent
      cases hintent
    | error e' =>
      obtain ⟨raw, rfl⟩ := Intent.eq_invalidIdentity hintent
      obtain ⟨raw', rfl⟩ := Intent.eq_invalidIdentity hintent'
      exact ⟨fun _ => .error ⟨rfl, rfl⟩⟩

/-! ## Directives that resemble each other -/

namespace Merger

/-- Two elements that ask for the same, and whose directives have one effect. -/
structure ElementResembles (m : Merger) (e e' : Element) : Prop where
  isObject_eq : e.value.isObject = e'.value.isObject
  intents : ∀ members members', e.value = .object members → e'.value = .object members' →
    ∀ full, InStep upToPayload (Run.ofExcept (Intent.ofMembers m.options full members))
      (Run.ofExcept (Intent.ofMembers m.options full members'))
  directives : ∀ (base : List String) (patch : Node) (type : TypeName) (fields : Fields),
    InStep upToPayload (runDirectives m base patch type e.directives fields)
      (runDirectives m base patch type e'.directives fields)

/-- Two directives with one path: scalars, or arrays of elements that resemble each other. -/
inductive DirectiveResembles (m : Merger) : Directive → Directive → Prop where
  | scalar {path : List String} {value value' : Json} (hvalue : value.isScalar = true)
      (hvalue' : value'.isScalar = true) :
      DirectiveResembles m (.scalar path value) (.scalar path value')
  | array {path : List String} {elements elements' : List Element}
      (helements : List.Forall₂ m.ElementResembles elements elements') :
      DirectiveResembles m (.array path elements) (.array path elements')

section

variable (hc : upToPayload.Lawful m)

include hc

theorem ElementResembles.runElement {e e' : Element} (h : m.ElementResembles e e')
    (r : Reconciliation) (position : Nat) (state : Reconciled) :
    InStep upToPayload (m.runElement r position e state) (m.runElement r position e' state) := by
  obtain ⟨hobject, hintents, hdirectives⟩ := h
  obtain ⟨value, directives⟩ := e
  obtain ⟨value', directives'⟩ := e'
  change value.isObject = value'.isObject at hobject
  cases hvalue : value.isObject with
  | false =>
    rw [runElement_of_not_isObject hvalue, runElement_of_not_isObject (hobject ▸ hvalue)]
    exact .pure state
  | true =>
    obtain ⟨members, rfl⟩ := Json.exists_of_isObject hvalue
    obtain ⟨members', rfl⟩ := Json.exists_of_isObject (hobject ▸ hvalue)
    have hvalues : upToPayload.values (.object members) (.object members') := rfl
    rw [Merger.runElement, Merger.runElement]
    refine .bind (hintents members members' rfl rfl r.full) fun intent => ?_
    cases intent with
    | add =>
      exact .bind (.require hc _ _) fun patchItem => .bind (inStep_freshItem hc r patchItem)
        fun fresh => .bind (.quietly hc (hdirectives ..)) fun _ =>
          inStep_pushItem hc r hvalues ..
    | update id =>
      exact .bind (inStep_itemPair hc ..) fun pair => .bind (hdirectives ..) fun _ => .pure _
    | remove id => exact inStep_removeItem hc r hvalues ..

theorem ElementResembles.runElements {elements elements' : List Element}
    (h : List.Forall₂ m.ElementResembles elements elements') (r : Reconciliation)
    (position : Nat) (state : Reconciled) :
    InStep upToPayload (m.runElements r position elements state)
      (m.runElements r position elements' state) := by
  induction h generalizing position state with
  | nil => exact .pure state
  | cons hhead _ ih =>
    rw [Merger.runElements, Merger.runElements]
    exact .bind (hhead.runElement hc r position state) fun state => ih (position + 1) state

theorem DirectiveResembles.runDirective {directive directive' : Directive}
    (h : m.DirectiveResembles directive directive') (base : List String) (patch original : Node) :
    InStep upToPayload (m.runDirective base patch original directive)
      (m.runDirective base patch original directive') := by
  cases h with
  | @scalar path value value' hvalue hvalue' =>
    have hnode : upToPayload.values value value' :=
      (isObject_of_isScalar hvalue).trans (isObject_of_isScalar hvalue').symm
    rw [Merger.runDirective, Merger.runDirective]
    split
    · exact .pure _
    · exact inStep_visit hc (fun _ _ _ => True) (fun _ _ _ => trivial) hnode
        (fun _ _ _ _ => inStep_assignMember hc _ hnode ..) base path patch original trivial
  | @array path elements elements' helements =>
    have hvalues := helements.imp fun _ _ h => h.isObject_eq
    have hnode : upToPayload.values (.array (elements.map Element.value))
        (.array (elements'.map Element.value)) := rfl
    rw [Merger.runDirective, Merger.runDirective]
    exact inStep_visit hc (fun _ _ _ => True) (fun _ _ _ => trivial) hnode
      (fun _ _ _ _ => inStep_arrayMember hc hnode hvalues _ _ _ fun _ _ _ _ _ _ =>
        ElementResembles.runElements hc helements _ 0 _) base path patch original trivial

theorem DirectiveResembles.runDirectives {directives directives' : List Directive}
    (h : List.Forall₂ m.DirectiveResembles directives directives') (base : List String)
    (patch : Node) (type : TypeName) (fields : Fields) :
    InStep upToPayload (m.runDirectives base patch type directives fields)
      (m.runDirectives base patch type directives' fields) := by
  induction h generalizing fields with
  | nil => exact .pure fields
  | cons hhead _ ih =>
    rw [Merger.runDirectives, Merger.runDirectives]
    exact .bind (hhead.runDirective hc base patch _) fun fields => ih fields

end

/-- Levels that are related one by one are so when they are joined. -/
theorem forall₂_joinLevels {α : Type} {R : α → α → Prop} {xs xs' ys ys' : List (List α)}
    (hx : List.Forall₂ (List.Forall₂ R) xs xs') (hy : List.Forall₂ (List.Forall₂ R) ys ys') :
    List.Forall₂ (List.Forall₂ R) (Directive.joinLevels xs ys)
      (Directive.joinLevels xs' ys') := by
  induction hx generalizing ys ys' with
  | nil =>
    rw [Directive.joinLevels, Directive.joinLevels]
    exact hy
  | cons hhead htail ih =>
    cases hy with
    | nil => exact .cons hhead htail
    | cons hhead' htail' =>
      rw [Directive.joinLevels, Directive.joinLevels]
      exact .cons (List.rel_append hhead hhead') (ih htail')

mutual

/-- The directives of values that resemble each other do so too, level by level. -/
theorem directiveLevels_of_resembles (hc : upToPayload.Lawful m) (path : List String)
    {value value' : Json} : Resembles m.options value value' →
    List.Forall₂ (List.Forall₂ m.DirectiveResembles) (Directive.levels m.options path value)
      (Directive.levels m.options path value')
  | .scalar hvalue hvalue' => by
    rw [Directive.levels_of_not_isObject (isObject_of_isScalar hvalue),
      Directive.levels_of_not_isObject (isObject_of_isScalar hvalue'),
      ofValue_of_isScalar hvalue, ofValue_of_isScalar hvalue']
    exact .cons (.cons (.scalar hvalue hvalue') .nil) .nil
  | .object hmembers => by
    rw [Directive.levels, Directive.levels]
    exact .cons .nil (directiveLevels_of_resemblesMembers hc path hmembers)
  | .array hitems => by
    rw [Directive.levels, Directive.levels]
    exact .cons (.cons (.array (elements_of_resemblesItems hc hitems)) .nil) .nil

theorem directiveLevels_of_resemblesMembers (hc : upToPayload.Lawful m) (path : List String)
    {element : Bool} {members members' : List (String × Json)} :
    ResemblesMembers m.options element members members' →
    List.Forall₂ (List.Forall₂ m.DirectiveResembles)
      (Directive.memberLevels m.options path members)
      (Directive.memberLevels m.options path members')
  | .nil => .nil
  | @ResemblesMembers.keep _ _ key _ _ _ _ hvalue _ hrest => by
    have hrest := directiveLevels_of_resemblesMembers hc path hrest
    rw [Directive.memberLevels, Directive.memberLevels]
    split
    · exact hrest
    · exact forall₂_joinLevels (directiveLevels_of_resembles hc (path ++ [key]) hvalue) hrest
  | .dropMarker hmarker hrest => by
    rw [Directive.memberLevels, if_pos hmarker]
    exact directiveLevels_of_resemblesMembers hc path hrest
  | .addMarker hmarker hrest => by
    rw [Directive.memberLevels, if_pos hmarker]
    exact directiveLevels_of_resemblesMembers hc path hrest

theorem elements_of_resemblesItems (hc : upToPayload.Lawful m) {items items' : List Json} :
    ResemblesItems m.options items items' →
    List.Forall₂ m.ElementResembles (Directive.elements m.options items)
      (Directive.elements m.options items')
  | .nil => .nil
  | .element hmembers hrest => by
    have hrest := elements_of_resemblesItems hc hrest
    have hlevels := directiveLevels_of_resemblesMembers hc [] hmembers
    rw [Directive.elements, Directive.elements]
    refine .cons ⟨rfl, ?_, fun base patch type fields => ?_⟩ hrest
    · rintro _ _ ⟨⟩ ⟨⟩ full
      exact hmembers.ofMembers_inStep full
    · exact DirectiveResembles.runDirectives hc (List.rel_flatten hlevels) base patch type fields
  | .other hobject hitem hrest => by
    have hrest := elements_of_resemblesItems hc hrest
    have hobject' := hitem.isObject_eq.symm.trans hobject
    rw [Directive.elements_eq_map, Directive.elements_eq_map] at hrest ⊢
    rw [List.map_cons, List.map_cons]
    refine .cons ⟨hitem.isObject_eq, ?_, fun base patch type fields => ?_⟩ hrest
    · rintro members _ rfl
      cases hobject
    · rw [Directive.ofItem_of_not_isObject hobject, Directive.ofItem_of_not_isObject hobject']
      exact .pure fields

end

/-! ## A whole merge -/

theorem merge_of_not_isObject {payload : Json} (h : payload.isObject = false)
    (patch original : Node) (minted : Nat) :
    ∃ message, (m.merge patch original payload minted).result =
      .error (.malformedInput "json" message) := by
  cases payload with
  | object => cases h
  | _ => exact ⟨_, rfl⟩

/-- Payload values never reach the original. Payloads that resemble each other both succeed,
with one report and one object, or both fail, with one sort of error at one path. -/
theorem payload_values_inert (hignores : m.validator.IgnoresValue) {payload payload' : Json}
    (h : Resembles m.options payload payload') (patch original : Node) (minted : Nat) :
    (∃ report, (m.merge patch original payload minted).result = .ok report ∧
      (m.merge patch original payload' minted).result = .ok report ∧
      (m.merge patch original payload minted).original =
        (m.merge patch original payload' minted).original) ∨
    ∃ e e', (m.merge patch original payload minted).result = .error e ∧
      (m.merge patch original payload' minted).result = .error e' ∧ e.SameKind e' := by
  have hc := Comparison.lawful_upToPayload hignores
  cases hobject : payload.isObject with
  | false =>
    obtain ⟨message, hresult⟩ := merge_of_not_isObject hobject (m := m) patch original minted
    obtain ⟨message', hresult'⟩ :=
      merge_of_not_isObject (h.isObject_eq ▸ hobject) (m := m) patch original minted
    exact .inr ⟨_, _, hresult, hresult', rfl, rfl⟩
  | true =>
    cases h with
    | scalar hvalue => rw [isObject_of_isScalar hvalue] at hobject; cases hobject
    | array => cases hobject
    | @object members members' hmembers =>
      have hlevels := directiveLevels_of_resemblesMembers hc [] hmembers
      have hagree := (DirectiveResembles.runDirectives hc (List.rel_flatten hlevels) [] patch
        original.type original.fields).agree (s := Session.start minted)
        (t := Session.start minted) ⟨rfl, rfl, rfl, rfl⟩
      rw [merge_object, merge_object]
      change upToPayload.Agree (m.applyMembers patch original members _)
        (m.applyMembers patch original members' _) at hagree
      generalize m.applyMembers patch original members _ = ends at hagree ⊢
      generalize m.applyMembers patch original members' _ = ends' at hagree ⊢
      cases hagree with
      | @ok fields s t hst =>
        obtain ⟨-, hreport, -⟩ := hst
        exact .inl ⟨s.report, rfl, congrArg Except.ok hreport.symm, rfl⟩
      | error hsame => exact .inr ⟨_, _, rfl, rfl, hsame⟩

end Merger

/-- At the identity key of an element another scalar asks for another item. -/
example :
    (Sample.racks.merge (Sample.rackWithDevice 1 "new") (Sample.rackWithDevice 1 "old")
        (.object [("devices", .array [.object [("Id", .null)]])]) 0).result ≠
      (Sample.racks.merge (Sample.rackWithDevice 1 "new") (Sample.rackWithDevice 1 "old")
        (.object [("devices", .array [.object [("Id", .bool true)]])]) 0).result := by
  decide +kernel

/-! ## Racks -/

namespace Sample

/-- A payload that names two members of a rack, one of them in an element. -/
def plainNames : Json :=
  .object [("type", .null),
    ("devices", .array [.object [("Id", .string "00000000-0000-0000-0000-00000000000a"),
      ("displayName", .null)]])]

/-- The same payload with other scalars, and with a removal marker that says nothing. -/
def dressedNames : Json :=
  .object [("type", .string "root"), ("Remove", .array [.object [("type", .bool true)]]),
    ("devices", .array [.object [("Id", .string "00000000-0000-0000-0000-00000000000a"),
      ("displayName", .number (.int 7))]])]

theorem plainNames_resembles : Resembles racks.options plainNames dressedNames :=
  .object (.keep (.scalar rfl rfl) (fun h => nomatch h) (.addMarker (by decide)
    (.keep (.array (.element (.keep (.scalar rfl rfl) (fun _ _ => .inl rfl)
        (.keep (.scalar rfl rfl) (fun _ h => absurd h (by decide)) .nil)) .nil))
      (fun h => nomatch h) .nil)))

end Sample

/-- A rack and its device get their names from the patch, whatever the payload holds. -/
theorem payload_values_inert_racks :
    (Sample.racks.merge (Sample.rackWithDevice 1 "new") (Sample.rackWithDevice 1 "old")
        Sample.plainNames 0).result =
      .ok ⟨[⟨⟨["type"]⟩, .updated, none⟩, ⟨⟨["devices", "displayName"]⟩, .updated, none⟩]⟩ ∧
      ((∃ report, (Sample.racks.merge (Sample.rackWithDevice 1 "new")
          (Sample.rackWithDevice 1 "old") Sample.plainNames 0).result = .ok report ∧
        (Sample.racks.merge (Sample.rackWithDevice 1 "new")
          (Sample.rackWithDevice 1 "old") Sample.dressedNames 0).result = .ok report ∧
        (Sample.racks.merge (Sample.rackWithDevice 1 "new") (Sample.rackWithDevice 1 "old")
            Sample.plainNames 0).original =
          (Sample.racks.merge (Sample.rackWithDevice 1 "new") (Sample.rackWithDevice 1 "old")
            Sample.dressedNames 0).original) ∨
      ∃ e e', (Sample.racks.merge (Sample.rackWithDevice 1 "new")
          (Sample.rackWithDevice 1 "old") Sample.plainNames 0).result = .error e ∧
        (Sample.racks.merge (Sample.rackWithDevice 1 "new")
          (Sample.rackWithDevice 1 "old") Sample.dressedNames 0).result = .error e' ∧
        e.SameKind e') :=
  ⟨by decide +kernel, Merger.payload_values_inert Validator.ignoresValue_approveAll
    Sample.plainNames_resembles _ _ 0⟩

end SelectiveMerge
