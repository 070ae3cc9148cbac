import SelectiveMerge.Proofs.Comparison
import SelectiveMerge.Proofs.Completeness
import SelectiveMerge.Proofs.LevelOrder

/-!
# Identity keys that say nothing

Outside of the elements of arrays an identity key addresses nothing. A scalar at such a key is
passed over before anything is looked up, so it can be left out of any payload. An array is
passed over only at the end of a navigation, which may fail, or make objects on the way; it
can be left out when all objects on the way are there, those that are made with their owner.

* `Merger.Ground` — what is known of the two objects that a part of a payload is about
* `Merger.ThinsValue` — a payload without some of its identity keys
* `Merger.Idle`, `Merger.Idle.runDirective` — directives that do nothing
* `Merger.inStep_of_skims` — without them a list of directives does the same
* `identityKeys_inert` — a merge ends the same without these keys
* `array_at_identity_constructs` — but not without an array behind an object that is missing
-/

namespace SelectiveMerge

/-- A value that is neither an array nor an object. -/
def Json.isScalar : Json → Bool
  | .array _ | .object _ => false
  | _ => true

theorem Json.isObject_eq_of_typeName_eq {v w : Json} (h : v.typeName = w.typeName) :
    v.isObject = w.isObject := by
  have hobject (v : Json) : v.isObject = (v.typeName == "object") := by cases v <;> rfl
  rw [hobject, hobject, h]

/-! ## Validators that do not look at values -/

/-- A request without its value. -/
def Request.withoutValue (r : Request) : Request := { r with value := .null }

/-- The validator decides on requests without regard to their values. -/
def Validator.IgnoresValue (v : Validator) : Prop :=
  ∀ (earlier : List Request) (r : Request),
    v.approves earlier r = v.approves (earlier.map Request.withoutValue) r.withoutValue

theorem Validator.ignoresValue_approveAll : Validator.approveAll.IgnoresValue := fun _ _ => rfl

/-- Two records that differ at most in the values of their requests. Failures need not
correspond to each other. -/
def Comparison.upToValues : Comparison where
  sessions s t := s.requests.map Request.withoutValue = t.requests.map Request.withoutValue ∧
    s.report = t.report ∧ s.minted = t.minted ∧ s.populating = t.populating
  failures _ _ _ _ := True
  values v w := v.typeName = w.typeName

open Comparison (upToValues)

theorem Comparison.lawful_upToValues {m : Merger} (hignores : m.validator.IgnoresValue) :
    upToValues.Lawful m :=
  @lawful_leavingOut m _ _ (fun v w => v.typeName = w.typeName) hignores (fun _ => rfl)
    (fun _ => rfl) Json.isObject_eq_of_typeName_eq (fun _ => trivial) fun _ _ _ => trivial

/-- Two steps that both fail are in step, wherever they fail. -/
theorem InStep.of_never {α : Type} {x y : Run α}
    (hx : ∀ {s s' : Session} {a : α}, ¬ Run.Succeeds x s a s')
    (hy : ∀ {s s' : Session} {a : α}, ¬ Run.Succeeds y s a s') : InStep upToValues x y := by
  refine ⟨fun {s t} _ => ?_⟩
  cases hrun : x s with
  | ok a s' => exact absurd hrun hx
  | error e s' =>
    cases hrun' : y t with
    | ok a t' => exact absurd hrun' hy
    | error e' t' => exact .error trivial

/-- Computations that succeed alike are in step, whatever their errors are. -/
theorem InStep.ofExcept_of_iff {α : Type} {x y : Except MergeError α}
    (h : ∀ a, x = .ok a ↔ y = .ok a) : InStep upToValues (Run.ofExcept x) (Run.ofExcept y) := by
  cases x with
  | ok a =>
    rw [(h a).1 rfl]
    exact .pure a
  | error e =>
    cases y with
    | ok a => cases (h a).2 rfl
    | error e' => exact ⟨fun _ => .error trivial⟩

namespace Merger

open Run (Succeeds)

/-! ## What is known on the way -/

/-- What is known of the two objects that a part of a payload is about. -/
inductive Ground where
  /-- Nothing is known. -/
  | unknown
  /-- Two objects of these types, and whether they are sure to be there. -/
  | owners (patchType type : TypeName) (there : Bool)
  /-- Two dictionaries of objects of these types. -/
  | entries (patchType type : TypeName)
  deriving DecidableEq

/-- The form of the field that a key goes to. -/
def form? (m : Merger) (access : Member → Option Nat) (type : TypeName) (key : String) :
    Option Form :=
  (m.number? access type key).bind (m.catalogue.form? type)

/-- What is known behind a key. Only objects that no object of the type lacks are sure to be
there. -/
def into (m : Merger) : Ground → String → Ground
  | .unknown, _ => .unknown
  | .entries patchType type, _ => .owners patchType type false
  | .owners patchType type there, key =>
      match m.form? Member.reads patchType key, m.form? Member.writes type key with
      | some (.object p), some (.object t) => .owners p t there
      | some (.object p), some (.optional t) | some (.optional p), some (.object t)
      | some (.optional p), some (.optional t) => .owners p t false
      | some (.dictionary p), some (.dictionary t) => .entries p t
      | _, _ => .unknown

/-- What is known of the items of a collection at a key. -/
def itemsOf (m : Merger) : Ground → String → Ground
  | .owners patchType type _, key =>
      match m.form? Member.reads patchType key, m.form? Member.writes type key with
      | some (.collection p), some (.collection t) => .owners p t true
      | _, _ => .unknown
  | .unknown, _ | .entries .., _ => .unknown

/-- What is known of the items of a collection at the end of a path. -/
def itemsAlong (m : Merger) (ground : Ground) : List String → Ground
  | [] => .unknown
  | [key] => m.itemsOf ground key
  | key :: next :: rest => itemsAlong m (m.into ground key) (next :: rest)

/-- What is known holds of two objects. -/
inductive Grounded (m : Merger) : Ground → Node → Node → Prop where
  | unknown {patch original : Node} : Grounded m .unknown patch original
  | owners {patch original : Node} {there : Bool} (hm : m.KeepsComplete)
      (hpatch : patch.Complete m.catalogue) (horiginal : original.Complete m.catalogue) :
      Grounded m (.owners patch.type original.type there) patch original

/-- What is known holds of the items of a collection under reconciliation. -/
inductive GroundedItems (m : Merger) (r : Reconciliation) (items : List Fields) :
    Ground → Prop where
  | unknown : GroundedItems m r items .unknown
  | owners (hm : m.KeepsComplete)
      (hpatch : Complete m.catalogue (.collection r.patchType r.patchItems))
      (hitems : Complete m.catalogue (.collection r.type items)) :
      GroundedItems m r items (.owners r.patchType r.type true)

variable {m : Merger} {ground : Ground} {patch original : Node} {s s' : Session}

theorem itemsAlong_append (keys : List String) (key : String) :
    m.itemsAlong ground (keys ++ [key]) = m.itemsOf (keys.foldl m.into ground) key := by
  induction keys generalizing ground with
  | nil => rfl
  | cons first keys ih =>
    rw [List.foldl_cons, ← ih]
    cases keys <;> rfl

theorem itemsAlong_cons (key : String) {rest : List String} (h : rest ≠ []) :
    m.itemsAlong ground (key :: rest) = m.itemsAlong (m.into ground key) rest := by
  obtain ⟨next, rest, rfl⟩ := List.exists_cons_of_ne_nil h
  rfl

/-- What a member of a complete patch shows is of the form of its field. -/
theorem form?_of_read? (hpatch : patch.Complete m.catalogue) {name : String} {pm : Member}
    {view : View} (hpm : m.member? patch name = some pm) (hread : patch.read? pm = some view) :
    ∃ slot : Slot, m.form? Member.reads patch.type name = some slot.form ∧ slot.view = view := by
  obtain ⟨i, slot, hnumber, hform, hview, -⟩ := exists_complete_of_read? hpatch hpm hread
  refine ⟨slot, ?_, hview⟩
  rw [form?, hnumber, Option.bind_some, hform]

/-- What a member of a complete original is written to is of the form of its field. -/
theorem form?_of_target? (horiginal : original.Complete m.catalogue) {name : String} {om : Member}
    {i : Nat} {slot : Slot} (hom : m.member? original name = some om)
    (htarget : original.target? om = some (i, slot)) :
    m.form? Member.writes original.type name = some slot.form := by
  obtain ⟨hnumber, hslot⟩ := number?_of_target? hom htarget
  rw [form?, hnumber, Option.bind_some, horiginal.form? i, hslot, Option.map_some]

theorem Grounded.of_complete (hm : m.KeepsComplete) {type : TypeName} {fields : Fields}
    {there : Bool} (hpatch : patch.Complete m.catalogue)
    (hfields : Complete m.catalogue (.object type fields)) :
    m.Grounded (.owners patch.type type there) patch ⟨type, fields⟩ :=
  @Grounded.owners m patch ⟨type, fields⟩ there hm hpatch hfields

/-- A slot that shows an object is always there, or optional. -/
theorem form_of_view_object {slot : Slot} {p : Node} (h : slot.view = .object (some p)) :
    slot.form = .object p.type ∨ slot.form = .optional p.type := by
  cases slot <;> simp only [Slot.view, View.object.injEq, Option.some_inj, reduceCtorEq] at h
  · obtain rfl := h
    exact .inl rfl
  · obtain ⟨present, rfl, rfl⟩ := Option.map_eq_some_iff.1 h
    exact .inr rfl

/-- What is known behind the keys of a hop holds of the objects that it leads to. -/
theorem Grounded.hop (h : m.Grounded ground patch original) {keys : List String} {p o : Node}
    {put : Fields → Fields} (hhop : m.Hop patch original s keys p o put s') :
    m.Grounded (keys.foldl m.into ground) p o := by
  cases h with
  | unknown => cases hhop <;> exact .unknown
  | owners hm hpatch horiginal =>
    obtain ⟨hp, ho, -⟩ := hhop.complete hm hpatch horiginal
    cases hhop with
    | object hpm hom hread htarget | optional hpm hom hread htarget =>
      obtain ⟨slot, hform, hview⟩ := form?_of_read? hpatch hpm hread
      rw [List.foldl_cons, List.foldl_nil, into, hform, form?_of_target? horiginal hom htarget]
      rcases form_of_view_object hview with hslot | hslot <;> rw [hslot]
      · exact .owners hm hp ho
      · exact .owners hm hp ho
    | entry hpm hom hread htarget =>
      obtain ⟨slot, hform, hview⟩ := form?_of_read? hpatch hpm hread
      rw [List.foldl_cons, into, hform, form?_of_target? horiginal hom htarget]
      cases slot <;> simp only [Slot.view, View.dictionary.injEq, reduceCtorEq] at hview
      obtain ⟨rfl, rfl⟩ := hview
      exact .owners hm hp ho

/-- What is known of items holds of those of the collection that a member leads to. -/
theorem Grounded.items (h : m.Grounded ground patch original) {name : String} {pm om : Member}
    {patchType type : TypeName} {patchItems items found : List Fields} {i : Nat}
    (hpm : m.member? patch name = some pm) (hom : m.member? original name = some om)
    (hread : patch.read? pm = some (.collection patchType patchItems))
    (htarget : original.target? om = some (i, .collection type items)) (hfound : found ⊆ items)
    {full : Path} :
    m.GroundedItems ⟨full, om.name, patchType, patchItems, type⟩ found (m.itemsOf ground name) := by
  cases h with
  | unknown => exact .unknown
  | owners hm hpatch horiginal =>
    obtain ⟨slot, hform, hview⟩ := form?_of_read? hpatch hpm hread
    have hpatchItems := complete_of_read?_collection hpatch hpm hread
    have hitems := horiginal.field (Node.target?_eq_some.1 htarget).2
    rw [itemsOf, hform, form?_of_target? horiginal hom htarget]
    cases slot <;> simp only [Slot.view, View.collection.injEq, reduceCtorEq] at hview
    obtain ⟨rfl, rfl⟩ := hview
    exact .owners hm hpatchItems (.collection fun item hitem => hitems.item (hfound hitem))

/-- What is known holds of the original after a directive. -/
theorem Grounded.after (h : m.Grounded ground patch original) {base : List String}
    {directive : Directive} {made : Fields}
    (hrun : Succeeds (runDirective m base patch original directive) s made s') :
    m.Grounded ground patch ⟨original.type, made⟩ := by
  cases h with
  | unknown => exact .unknown
  | owners hm hpatch horiginal =>
    have hmade := (DirectiveStep.of_runDirective hrun).complete hm
      (fun e _ => runsComplete hm e.directives) hpatch horiginal
    exact .of_complete hm hpatch hmade

/-! ## Directives that do nothing -/

/-- A directive at an identity key which does nothing: a scalar, or an array whose way there
is sure to be there. -/
inductive Idle (m : Merger) (ground : Ground) : Directive → Prop where
  | scalar {path : List String} {value : Json} (hid : (path.getLast?).any isIdentityKey = true) :
      Idle m ground (.scalar path value)
  | array {keys : List String} {name : String} {patchType type : TypeName}
      {elements : List Element} (hid : isIdentityKey name = true)
      (hthere : keys.foldl m.into ground = .owners patchType type true) :
      Idle m ground (.array (keys ++ [name]) elements)

/-- Objects that are sure to be there are held by objects that are. -/
theorem exists_owners_of_foldl (keys : List String) {patchType type : TypeName}
    (h : keys.foldl m.into ground = .owners patchType type true) :
    ∃ p t, ground = .owners p t true := by
  induction keys generalizing ground with
  | nil => exact ⟨patchType, type, h⟩
  | cons key keys ih =>
    obtain ⟨p, t, hinto⟩ := ih h
    cases ground with
    | unknown => cases hinto
    | entries => cases hinto
    | owners patchType type there =>
      rw [into] at hinto
      split at hinto <;> cases hinto
      exact ⟨patchType, type, rfl⟩

/-- Behind a key that leads to objects which are sure to be there both sides have one. -/
theorem exists_objects_of_into (hpatch : patch.Complete m.catalogue)
    (horiginal : original.Complete m.catalogue) {key : String} {patchType type : TypeName}
    (h : m.into (.owners patch.type original.type true) key = .owners patchType type true) :
    ∃ pm om p fields i, m.member? patch key = some pm ∧ m.member? original key = some om ∧
      patch.read? pm = some (.object (some p)) ∧
      original.target? om = some (i, .object type fields) := by
  have hfield {n : Node} (hn : n.Complete m.catalogue) {access : Member → Option Nat}
      {t : TypeName} (hform : m.form? access n.type key = some (.object t)) :
      ∃ member i fields, m.member? n key = some member ∧ access member = some i ∧
        n.fields[i]? = some (.object t fields) := by
    obtain ⟨i, hnumber, hform⟩ := Option.bind_eq_some_iff.1 hform
    obtain ⟨member, hmember, haccess⟩ := Option.bind_eq_some_iff.1 hnumber
    rw [hn.form? i] at hform
    obtain ⟨slot, hslot, hform⟩ := Option.map_eq_some_iff.1 hform
    cases slot <;> simp only [Slot.form, Form.object.injEq, reduceCtorEq] at hform
    obtain rfl := hform
    exact ⟨member, i, _, hmember, haccess, hslot⟩
  rw [into] at h
  split at h <;> cases h
  rename_i hpatchForm hform
  obtain ⟨pm, j, patchFields, hpm, hreads, hpatchSlot⟩ := hfield hpatch hpatchForm
  obtain ⟨om, i, fields, hom, hwrites, hslot⟩ := hfield horiginal hform
  exact ⟨pm, om, _, fields, i, hpm, hom,
    Node.read?_eq_some.2 ⟨j, _, hreads, hpatchSlot, rfl⟩, Node.target?_eq_some.2 ⟨hwrites, hslot⟩⟩

/-- A navigation to an owner that is sure to be there changes nothing if its visitor does
not. -/
theorem visit_there {node : Json} {onMember : Node → Node → String → Run Fields} {name : String}
    (hact : ∀ p o s, onMember p o name s = .ok o.fields s) {patchType type : TypeName}
    (before keys : List String) (h : m.Grounded ground patch original)
    (hthere : keys.foldl m.into ground = .owners patchType type true) :
    m.visit node onMember before (keys ++ [name]) patch original s = .ok original.fields s := by
  induction keys generalizing ground patch original before with
  | nil => exact hact patch original s
  | cons key keys ih =>
    obtain ⟨p, t, hinto⟩ := exists_owners_of_foldl keys hthere
    obtain ⟨_, _, rfl⟩ := exists_owners_of_foldl [key] hinto
    have hgrounded := h
    cases h with
    | owners hm hpatch horiginal =>
      obtain ⟨pm, om, inner, fields, i, hpm, hom, hread, htarget⟩ :=
        exists_objects_of_into hpatch horiginal hinto
      have hinner := hgrounded.hop (.object (s := s) hpm hom hread htarget)
      have hrest := ih (before ++ [key]) hinner hthere
      obtain ⟨next, rest, hnext⟩ :=
        List.exists_cons_of_ne_nil (show keys ++ [name] ≠ [] by simp)
      have hpair : m.memberPair ⟨before ++ key :: next :: rest⟩ patch original key = .ok (pm, om) :=
        memberPair_eq_ok.2 ⟨hpm, hom⟩
      rw [hnext] at hrest
      rw [List.cons_append, hnext]
      show Succeeds _ s original.fields s
      unfold visit
      simp only [Succeeds.bind_iff, Succeeds.ofExcept_iff]
      refine ⟨(pm, om), s, ⟨hpair, rfl⟩, ?_⟩
      dsimp only
      rw [hread, htarget]
      simp only [Succeeds.bind_iff, Succeeds.pure_iff]
      exact ⟨fields, s, hrest, set_eq_self (Node.target?_eq_some.1 htarget).2, rfl⟩

/-- Nothing comes of a directive that is idle. -/
theorem Idle.runDirective (h : m.Grounded ground patch original) {base : List String}
    {directive : Directive} (hidle : m.Idle ground directive) :
    m.runDirective base patch original directive s = .ok original.fields s := by
  cases hidle with
  | scalar hid =>
    rw [Merger.runDirective, if_pos hid]
    rfl
  | array hid hthere =>
    rw [Merger.runDirective]
    refine visit_there (fun p o s => ?_) base _ h hthere
    rw [arrayMember, if_pos hid]
    rfl

/-! ## Lists without some of their members -/

/-- The second list is the first one without some of the members that are idle, and with
members that are alike. -/
inductive Skims {α : Type} (idle : α → Prop) (like : α → α → Prop) : List α → List α → Prop where
  | nil : Skims idle like [] []
  | skip {a : α} {as bs : List α} (hidle : idle a) (hrest : Skims idle like as bs) :
      Skims idle like (a :: as) bs
  | keep {a b : α} {as bs : List α} (hlike : like a b) (hrest : Skims idle like as bs) :
      Skims idle like (a :: as) (b :: bs)

namespace Skims

variable {α : Type} {idle : α → Prop} {like : α → α → Prop}

theorem append {as bs as' bs' : List α} (h : Skims idle like as bs)
    (h' : Skims idle like as' bs') : Skims idle like (as ++ as') (bs ++ bs') := by
  induction h with
  | nil => exact h'
  | skip hidle _ ih => exact .skip hidle ih
  | keep hlike _ ih => exact .keep hlike ih

theorem eq_nil {bs : List α} (h : Skims idle like [] bs) : bs = [] := by
  cases h
  rfl

/-- Lists that come in levels can be compared level by level. -/
theorem flatten {ls ls' : List (List α)}
    (h : ∀ d, Skims idle like (ls.getD d []) (ls'.getD d [])) :
    Skims idle like ls.flatten ls'.flatten := by
  induction ls generalizing ls' with
  | nil =>
    have hnil : ls'.flatten = [] := by
      refine List.flatten_eq_nil_iff.2 fun l hl => ?_
      obtain ⟨d, hd, rfl⟩ := List.getElem_of_mem hl
      have hlevel := (h d).eq_nil
      rwa [List.getD_eq_getElem?_getD, List.getElem?_eq_getElem hd] at hlevel
    rw [hnil]
    exact .nil
  | cons l ls ih =>
    cases ls' with
    | nil =>
      have hrest : Skims idle like ls.flatten ([] : List (List α)).flatten :=
        ih fun d => by simpa using h (d + 1)
      exact append (h 0) hrest
    | cons l' ls' => exact append (h 0) (ih fun d => h (d + 1))

end Skims

/-! ## Payloads without some identity keys -/

mutual

/-- A value of a payload without some of the identity keys that say nothing. `inside` is
known where an object of the payload stands, `items` of the items of an array. -/
inductive ThinsValue (m : Merger) : (inside items : Ground) → Json → Json → Prop where
  | scalar {inside items : Ground} {value : Json} (hvalue : value.isScalar = true) :
      ThinsValue m inside items value value
  | object {inside items : Ground} {members members' : List (String × Json)}
      (hmembers : ThinsMembers m false inside members members') :
      ThinsValue m inside items (.object members) (.object members')
  | array {inside items : Ground} {values values' : List Json}
      (hvalues : ThinsItems m items values values') :
      ThinsValue m inside items (.array values) (.array values')

/-- The members of an object of a payload, which is the element of an array or not. An element
keeps its own keys. -/
inductive ThinsMembers (m : Merger) :
    (element : Bool) → Ground → List (String × Json) → List (String × Json) → Prop where
  | nil {element : Bool} {ground : Ground} : ThinsMembers m element ground [] []
  | scalar {ground : Ground} {key : String} {value : Json}
      {members members' : List (String × Json)} (hid : isIdentityKey key = true)
      (hvalue : value.isScalar = true) (hrest : ThinsMembers m false ground members members') :
      ThinsMembers m false ground ((key, value) :: members) members'
  | array {patchType type : TypeName} {key : String} {values : List Json}
      {members members' : List (String × Json)} (hid : isIdentityKey key = true)
      (hrest : ThinsMembers m false (.owners patchType type true) members members') :
      ThinsMembers m false (.owners patchType type true) ((key, .array values) :: members) members'
  | keep {element : Bool} {ground : Ground} {key : String} {value value' : Json}
      {members members' : List (String × Json)}
      (hvalue : ThinsValue m (m.into ground key) (m.itemsOf ground key) value value')
      (hrest : ThinsMembers m element ground members members') :
      ThinsMembers m element ground ((key, value) :: members) ((key, value') :: members')

/-- The items of an array. Those that are no objects only count as what they are. -/
inductive ThinsItems (m : Merger) : Ground → List Json → List Json → Prop where
  | nil {ground : Ground} : ThinsItems m ground [] []
  | object {ground : Ground} {members members' : List (String × Json)} {items items' : List Json}
      (hmembers : ThinsMembers m true ground members members')
      (hrest : ThinsItems m ground items items') :
      ThinsItems m ground (.object members :: items) (.object members' :: items')
  | other {ground : Ground} {item item' : Json} {items items' : List Json}
      (hitem : item.isObject = false) (htype : item.typeName = item'.typeName)
      (hrest : ThinsItems m ground items items') :
      ThinsItems m ground (item :: items) (item' :: items')

end

theorem ThinsValue.typeName_eq {inside items : Ground} {value value' : Json}
    (h : m.ThinsValue inside items value value') : value.typeName = value'.typeName := by
  cases h <;> rfl

/-! ## Elements -/

/-- Two values that are the same, or of which neither is a scalar. -/
def SameScalar (value value' : Json) : Prop :=
  value = value' ∨ (value.isScalar = false ∧ value'.isScalar = false)

theorem SameScalar.symm {value value' : Json} (h : SameScalar value value') :
    SameScalar value' value := by
  rcases h with rfl | ⟨hvalue, hvalue'⟩
  · exact .inl rfl
  · exact .inr ⟨hvalue', hvalue⟩

theorem ThinsValue.sameScalar {inside items : Ground} {value value' : Json}
    (h : m.ThinsValue inside items value value') : SameScalar value value' := by
  cases h with
  | scalar => exact .inl rfl
  | object | array => exact .inr ⟨rfl, rfl⟩

/-- An element keeps its own keys, each with the same scalar or with none. -/
theorem ThinsMembers.forall₂ :
    {members members' : List (String × Json)} → m.ThinsMembers true ground members members' →
    List.Forall₂ (fun a b => a.1 = b.1 ∧ SameScalar a.2 b.2) members members'
  | _, _, .nil => .nil
  | _, _, .keep hvalue hrest => .cons ⟨rfl, hvalue.sameScalar⟩ hrest.forall₂

theorem asksRemoval_eq {value value' : Json} (h : SameScalar value value') :
    Intent.asksRemoval value = Intent.asksRemoval value' := by
  have hnone {v : Json} (hv : v.isScalar = false) : Intent.asksRemoval v = false := by
    cases v with
    | array | object => rfl
    | _ => cases hv
  rcases h with rfl | ⟨hvalue, hvalue'⟩
  · rfl
  · rw [hnone hvalue, hnone hvalue']

/-- What an element asks for rests on the scalars at its own identity and marker keys. -/
theorem ofMembers_eq_ok_of_forall₂ {options : Options} {full : Path} {intent : Intent}
    {members members' : List (String × Json)}
    (h : List.Forall₂ (fun a b => a.1 = b.1 ∧
      (isIdentityKey a.1 = true ∨ options.isRemoveMarker a.1 = true → SameScalar a.2 b.2))
      members members')
    (hintent : Intent.ofMembers options full members = .ok intent) :
    Intent.ofMembers options full members' = .ok intent := by
  have hremoval : (members.any fun member =>
        options.isRemoveMarker member.1 && Intent.asksRemoval member.2) =
      members'.any fun member => options.isRemoveMarker member.1 && Intent.asksRemoval member.2 := by
    clear hintent
    induction h with
    | nil => rfl
    | @cons a b _ _ hab _ ih =>
      rw [List.any_cons, List.any_cons, hab.1.symm, ih]
      cases hmarker : options.isRemoveMarker a.1 with
      | true => rw [asksRemoval_eq (hab.2 (.inr hmarker))]
      | false => rfl
  have hid (id : Uuid) : Intent.ofIdentity options members id =
      Intent.ofIdentity options members' id := by
    rw [Intent.ofIdentity, Intent.ofIdentity, hremoval]
  unfold Intent.ofMembers at hintent ⊢
  rcases find?_of_forall₂ (p := fun member => isIdentityKey member.1)
      (q := fun member => isIdentityKey member.1) (fun a b hab => by rw [hab.1]) h with
    ⟨hnone, hnone'⟩ | ⟨⟨key, value⟩, ⟨_, value'⟩, hsome, hsome', -, hvalue⟩
  · rw [hnone] at hintent
    rw [hnone']
    exact hintent
  · have hkey : isIdentityKey key = true := by simpa using List.find?_some hsome
    rw [hsome] at hintent
    rw [hsome']
    rcases hvalue (.inl hkey) with rfl | ⟨hvalue, -⟩
    · simpa only [Option.map_some, hid] using hintent
    · -- an array or an object is no identity
      cases value with
      | array | object => cases hintent
      | _ => cases hvalue

theorem type_eq_of_item? {type : TypeName} {items : List Fields} {i : Nat} {n : Node}
    (h : Collection.item? type items i = some n) : n.type = type := by
  obtain ⟨fields, -, rfl⟩ := Option.map_eq_some_iff.1 h
  rfl

theorem type_eq_of_itemWithId? {type : TypeName} {items : List Fields} {id : Uuid} {n : Node}
    (h : m.catalogue.itemWithId? type items id = some n) : n.type = type := by
  obtain ⟨fields, -, rfl⟩ := Option.map_eq_some_iff.1 h
  rfl

/-- Items are added only if they are of the type of the collection. -/
theorem type_eq_of_pushItem {r : Reconciliation} {value : Json} {patchItem item : Node}
    {state state' : Reconciled}
    (h : Succeeds (m.pushItem r value patchItem item state) s state' s') : item.type = r.type := by
  simp only [pushItem, Succeeds.bind_iff] at h
  obtain ⟨_, _, -, h⟩ := h
  unfold Collection.push at h
  split at h
  · rename_i hpush
    by_contra hne
    rw [if_neg hne] at hpush
    cases hpush
  · exact (Succeeds.fail_iff.1 h).elim

/-- What is known of the items of a collection holds after an element. -/
theorem GroundedItems.after {r : Reconciliation} {state state' : Reconciled}
    (h : m.GroundedItems r state.items ground) {position : Nat} {element : Element}
    (hrun : Succeeds (m.runElement r position element state) s state' s') :
    m.GroundedItems r state'.items ground := by
  cases h with
  | unknown => exact .unknown
  | owners hm hpatch hitems =>
    obtain ⟨value, directives⟩ := element
    refine .owners hm hpatch ?_
    cases value with
    | object members =>
      exact (ElementStep.of_runElement hrun).complete hm (runsComplete hm directives) hpatch hitems
    | _ =>
      rw [runElement] at hrun
      · obtain ⟨rfl, -⟩ := Succeeds.pure_iff.1 hrun
        exact hitems
      · rintro _ ⟨⟩

/-- Two elements that ask for the same, and whose directives are in step on the ground that
is known. -/
structure ElementLike (m : Merger) (ground : Ground) (e e' : Element) : Prop where
  typeName_eq : e.value.typeName = e'.value.typeName
  intent_iff : ∀ members members', e.value = .object members → e'.value = .object members' →
    ∀ full intent, Intent.ofMembers m.options full members = .ok intent ↔
      Intent.ofMembers m.options full members' = .ok intent
  inStep : ∀ {base : List String} {patch : Node} {type : TypeName} {fields : Fields},
    m.Grounded ground patch ⟨type, fields⟩ →
    InStep upToValues (runDirectives m base patch type e.directives fields)
      (runDirectives m base patch type e'.directives fields)

/-- Two directives with one path that are alike: the same scalar, or two arrays of elements
that are alike. -/
inductive DirectiveLike (m : Merger) (ground : Ground) : Directive → Directive → Prop where
  | scalar {path : List String} {value : Json} :
      DirectiveLike m ground (.scalar path value) (.scalar path value)
  | array {path : List String} {elements elements' : List Element}
      (helements : List.Forall₂ (m.ElementLike (m.itemsAlong ground path)) elements elements') :
      DirectiveLike m ground (.array path elements) (.array path elements')

section

variable (hc : upToValues.Lawful m)

include hc

/-- Elements that are alike are run in step. -/
theorem ElementLike.runElement {r : Reconciliation} {state : Reconciled} {e e' : Element}
    (h : m.ElementLike ground e e') (hitems : m.GroundedItems r state.items ground)
    (position : Nat) :
    InStep upToValues (m.runElement r position e state) (m.runElement r position e' state) := by
  obtain ⟨htype, hintent, hinStep⟩ := h
  obtain ⟨value, directives⟩ := e
  obtain ⟨value', directives'⟩ := e'
  have hobject : value.isObject = value'.isObject := Json.isObject_eq_of_typeName_eq htype
  cases hvalue : value.isObject with
  | false =>
    rw [runElement_of_not_isObject hvalue, runElement_of_not_isObject (hobject ▸ hvalue)]
    exact .pure state
  | true =>
    obtain ⟨members, rfl⟩ := Json.exists_of_isObject hvalue
    obtain ⟨members', rfl⟩ := Json.exists_of_isObject (hobject ▸ hvalue)
    rw [Merger.runElement, Merger.runElement]
    refine .bind (.ofExcept_of_iff (hintent members members' rfl rfl r.full)) fun intent => ?_
    cases intent with
    | add =>
      refine .bind' (.require hc _ _) fun patchItem hpatchItem => ?_
      refine .bind' (inStep_freshItem hc r patchItem) fun fresh hfresh => ?_
      obtain ⟨_, _, hpatchItem⟩ := hpatchItem
      obtain ⟨_, _, hfresh⟩ := hfresh
      have hpatchItem := (Succeeds.require_iff.1 hpatchItem).1
      have htypes := type_eq_of_item? hpatchItem
      cases hitems with
      | unknown =>
        exact .bind (.quietly hc (hinStep .unknown)) fun _ => inStep_pushItem hc r htype ..
      | owners hm hpatch _ =>
        have hpatchItem := complete_of_item? hpatch hpatchItem
        have hfresh := (MakesItem.of_freshItem hfresh).complete hm hpatchItem
        by_cases hsame : fresh.type = r.type
        · have hground : m.Grounded (.owners r.patchType r.type true) patchItem
              ⟨fresh.type, fresh.fields⟩ := by
            rw [← htypes, ← hsame]
            exact .of_complete hm hpatchItem hfresh
          exact .bind (.quietly hc (hinStep hground)) fun _ => inStep_pushItem hc r htype ..
        · -- an item of another type is refused after it was populated
          refine .of_never (fun {s s' a} hrun => ?_) fun {s s' a} hrun => ?_
          all_goals
            obtain ⟨_, _, -, hpush⟩ := Succeeds.bind_iff.1 hrun
            have htype := type_eq_of_pushItem hpush
            exact hsame htype
    | update id =>
      refine .bind' (inStep_itemPair hc ..) fun pair hpair => ?_
      obtain ⟨index, item, patchItem⟩ := pair
      obtain ⟨_, _, hpair⟩ := hpair
      simp only [itemPair, Succeeds.bind_iff, Succeeds.require_iff, Succeeds.pure_iff] at hpair
      obtain ⟨_, _, -, _, _, ⟨hpatchItem, -⟩, _, _, ⟨hitem, -⟩, heq, -⟩ := hpair
      obtain ⟨rfl, rfl, rfl⟩ := heq
      have hground : m.Grounded ground patchItem ⟨r.type, item⟩ := by
        cases hitems with
        | unknown => exact .unknown
        | owners hm hpatch hitems =>
          rw [← type_eq_of_itemWithId? hpatchItem]
          exact .of_complete hm (complete_of_itemWithId? hpatch hpatchItem)
            (hitems.item (List.mem_of_getElem? hitem))
      exact .bind (hinStep hground) fun _ => .pure _
    | remove id => exact inStep_removeItem hc r htype ..

/-- Lists of elements that are alike, one by one, are run in step. -/
theorem ElementLike.runElements {r : Reconciliation} {elements elements' : List Element}
    (h : List.Forall₂ (m.ElementLike ground) elements elements') (position : Nat)
    {state : Reconciled} (hitems : m.GroundedItems r state.items ground) :
    InStep upToValues (m.runElements r position elements state)
      (m.runElements r position elements' state) := by
  induction h generalizing position state with
  | nil => exact .pure _
  | cons hhead _ ih =>
    rw [Merger.runElements, Merger.runElements]
    refine .bind' (hhead.runElement hc hitems position) fun state' hrun => ?_
    obtain ⟨s, s', hrun⟩ := hrun
    exact ih (position + 1) (hitems.after hrun)

/-! ## Lists of directives -/

/-- Directives that are alike are run in step. -/
theorem DirectiveLike.runDirective {directive directive' : Directive}
    (h : m.DirectiveLike ground directive directive') (hground : m.Grounded ground patch original)
    (base : List String) :
    InStep upToValues (m.runDirective base patch original directive)
      (m.runDirective base patch original directive') := by
  cases h with
  | scalar => exact inStep_runDirective hc ..
  | @array path elements elements' helements =>
    have hvalues : List.Forall₂ (fun e e' : Element => upToValues.values e.value e'.value)
        elements elements' := helements.imp fun _ _ h => h.typeName_eq
    have hnode : upToValues.values (.array (elements.map Element.value))
        (.array (elements'.map Element.value)) := rfl
    rw [Merger.runDirective, Merger.runDirective]
    refine inStep_visit hc
      (fun rest p o => ∃ g, m.Grounded g p o ∧ m.itemsAlong g rest = m.itemsAlong ground path)
      ?_ hnode ?_ base path patch original ⟨ground, hground, rfl⟩
    · rintro keys rest patch original p o put s t hhop hrest ⟨g, hg, halong⟩
      refine ⟨keys.foldl m.into g, hg.hop hhop, ?_⟩
      rw [← halong]
      cases hhop with
      | object | optional => exact (itemsAlong_cons _ hrest).symm
      | entry =>
        rw [List.foldl_cons, List.foldl_cons, List.foldl_nil, ← itemsAlong_cons _ hrest,
          ← itemsAlong_cons _ (List.cons_ne_nil _ _)]
        rfl
    · rintro p o name ⟨g, hg, halong⟩
      refine inStep_arrayMember hc hnode hvalues p o name
        fun hpm hom hread htarget found hfound => ?_
      refine ElementLike.runElements hc helements 0 ?_
      rw [← halong]
      exact hg.items hpm hom hread htarget hfound

/-- A list of directives is run in step with one that lacks some that are idle. -/
theorem inStep_of_skims {directives directives' : List Directive}
    (h : Skims (m.Idle ground) (m.DirectiveLike ground) directives directives')
    (base : List String) {type : TypeName} {fields : Fields}
    (hground : m.Grounded ground patch ⟨type, fields⟩) :
    InStep upToValues (m.runDirectives base patch type directives fields)
      (m.runDirectives base patch type directives' fields) := by
  induction h generalizing fields with
  | nil => exact inStep_runDirectives hc ..
  | skip hidle _ ih =>
    rw [Merger.runDirectives]
    refine ⟨fun {s t} hst => ?_⟩
    show upToValues.Agree (EStateM.bind _ _ s) _
    rw [EStateM.bind, hidle.runDirective hground]
    exact (ih hground).agree hst
  | keep hlike _ ih =>
    rw [Merger.runDirectives, Merger.runDirectives]
    refine .bind' (hlike.runDirective hc hground base) fun made hrun => ?_
    obtain ⟨s, s', hrun⟩ := hrun
    exact ih (hground.after hrun)

end

/-! ## Directives of thinned payloads -/

theorem ofValue_of_isScalar {options : Options} {path : List String} {value : Json}
    (h : value.isScalar = true) : Directive.ofValue options path value = .scalar path value := by
  cases value with
  | array | object => cases h
  | _ => rfl

theorem isObject_of_isScalar {value : Json} (h : value.isScalar = true) :
    value.isObject = false := by
  cases value with
  | array | object => cases h
  | _ => rfl

/-- Levels of idle directives are passed over. -/
theorem Skims.of_idle {idle : Directive → Prop} {like : Directive → Directive → Prop}
    {directive : Directive} (h : idle directive) (d : Nat) :
    Skims idle like ([[directive]].getD d []) [] := by
  cases d with
  | zero => exact .skip h .nil
  | succ d => simpa using Skims.nil

mutual

theorem ThinsValue.skims (hc : upToValues.Lawful m) {ground inside items : Ground}
    {path : List String} {key : String} {value value' : Json}
    (hinside : (path ++ [key]).foldl m.into ground = inside)
    (hitems : m.itemsOf (path.foldl m.into ground) key = items) (d : Nat) :
    m.ThinsValue inside items value value' →
    Skims (m.Idle ground) (m.DirectiveLike ground)
      ((Directive.levels m.options (path ++ [key]) value).getD d [])
      ((Directive.levels m.options (path ++ [key]) value').getD d [])
  | .scalar hvalue => by
    rw [Directive.levels_of_not_isObject (isObject_of_isScalar hvalue),
      ofValue_of_isScalar hvalue]
    cases d with
    | zero => exact .keep .scalar .nil
    | succ d => simpa using Skims.nil
  | .object hmembers => by
    rw [Directive.levels, Directive.levels]
    cases d with
    | zero => exact .nil
    | succ d => exact ThinsMembers.skims hc _ hinside d hmembers
  | .array hvalues => by
    rw [Directive.levels, Directive.levels]
    cases d with
    | zero =>
      refine .keep (.array ?_) .nil
      rw [itemsAlong_append, hitems]
      exact ThinsItems.elementLike hc hvalues
    | succ d => simpa using Skims.nil

theorem ThinsMembers.skims (hc : upToValues.Lawful m) {ground inside : Ground}
    (path : List String) {element : Bool} {members members' : List (String × Json)}
    (hinside : path.foldl m.into ground = inside) (d : Nat) :
    m.ThinsMembers element inside members members' →
    Skims (m.Idle ground) (m.DirectiveLike ground)
      ((Directive.memberLevels m.options path members).getD d [])
      ((Directive.memberLevels m.options path members').getD d [])
  | .nil => by simpa [Directive.memberLevels] using Skims.nil
  | .scalar hid hvalue hrest => by
    have hrest := ThinsMembers.skims hc _ hinside d hrest
    rw [Directive.memberLevels]
    split
    · exact hrest
    · rw [Directive.getD_joinLevels,
        Directive.levels_of_not_isObject (isObject_of_isScalar hvalue), ofValue_of_isScalar hvalue]
      exact (Skims.of_idle (.scalar (by simp [hid])) d).append hrest
  | .array hid hrest => by
    have hrest := ThinsMembers.skims hc _ hinside d hrest
    rw [Directive.memberLevels]
    split
    · exact hrest
    · rw [Directive.getD_joinLevels, Directive.levels]
      exact (Skims.of_idle (.array hid hinside) d).append hrest
  | .keep hvalue hrest => by
    have hrest := ThinsMembers.skims hc _ hinside d hrest
    rw [Directive.memberLevels, Directive.memberLevels]
    split
    · exact hrest
    · rw [Directive.getD_joinLevels, Directive.getD_joinLevels]
      refine .append (ThinsValue.skims hc ?_ ?_ d hvalue) hrest
      · rw [List.foldl_append, hinside]
        rfl
      · rw [hinside]

theorem ThinsItems.elementLike (hc : upToValues.Lawful m) {ground : Ground}
    {items items' : List Json} :
    m.ThinsItems ground items items' →
    List.Forall₂ (m.ElementLike ground) (Directive.elements m.options items)
      (Directive.elements m.options items')
  | .nil => .nil
  | .object hmembers hrest => by
    have hrest := ThinsItems.elementLike hc hrest
    have hskims := Skims.flatten fun d => ThinsMembers.skims hc [] rfl d hmembers
    have hkeys := hmembers.forall₂
    rw [Directive.elements, Directive.elements]
    refine .cons ⟨rfl, ?_, fun hground => inStep_of_skims hc hskims _ hground⟩ hrest
    rintro _ _ ⟨⟩ ⟨⟩ full intent
    refine ⟨ofMembers_eq_ok_of_forall₂ (hkeys.imp fun _ _ h => ⟨h.1, fun _ => h.2⟩),
      ofMembers_eq_ok_of_forall₂ (hkeys.flip.imp fun _ _ h => ⟨h.1.symm, fun _ => h.2.symm⟩)⟩
  | .other hitem htype hrest => by
    have hrest := ThinsItems.elementLike hc hrest
    have hitem' := (Json.isObject_eq_of_typeName_eq htype).symm.trans hitem
    rw [Directive.elements_eq_map, Directive.elements_eq_map] at hrest ⊢
    rw [List.map_cons, List.map_cons]
    refine .cons ⟨htype, ?_, fun _ => ?_⟩ hrest
    · rintro members _ rfl
      cases hitem
    · rw [Directive.ofItem_of_not_isObject hitem, Directive.ofItem_of_not_isObject hitem']
      exact inStep_runDirectives hc ..

end

/-! ## A whole merge -/

/-- Identity keys are inert. A merge succeeds just as well, with the same report and the same
object, when any of the scalars at identity keys outside of elements are left out of the
payload, and any of the arrays at those whose owners are sure to be there. -/
theorem identityKeys_inert (hignores : m.validator.IgnoresValue)
    (hground : m.Grounded ground patch original) {payload payload' : Json}
    (hthins : m.ThinsValue ground .unknown payload payload') (minted : Nat) :
    (∀ report, (m.merge patch original payload minted).result = .ok report ↔
      (m.merge patch original payload' minted).result = .ok report) ∧
    ∀ report, (m.merge patch original payload minted).result = .ok report →
      (m.merge patch original payload minted).original =
        (m.merge patch original payload' minted).original := by
  have hc := Comparison.lawful_upToValues hignores
  cases hthins with
  | scalar => exact ⟨fun _ => .rfl, fun _ _ => rfl⟩
  | array => exact ⟨fun _ => ⟨by rintro ⟨⟩, by rintro ⟨⟩⟩, by rintro _ ⟨⟩⟩
  | @object _ _ members members' hmembers =>
    have hskims := Skims.flatten fun d => ThinsMembers.skims hc [] rfl d hmembers
    have hagree := (inStep_of_skims hc hskims [] hground).agree
      (s := Session.start minted) (t := Session.start minted) ⟨rfl, rfl, rfl, rfl⟩
    rw [merge_object, merge_object]
    change upToValues.Agree (m.applyMembers patch original members _)
      (m.applyMembers patch original members' _) at hagree
    generalize m.applyMembers patch original members _ = ends at hagree ⊢
    generalize m.applyMembers patch original members' _ = ends' at hagree ⊢
    cases hagree with
    | ok h =>
      obtain ⟨-, hreport, -⟩ := h
      refine ⟨fun report => ?_, fun _ _ => rfl⟩
      rw [Outcome.ofResult, Outcome.ofResult, hreport]
    | error => exact ⟨fun _ => ⟨by rintro ⟨⟩, by rintro ⟨⟩⟩, by rintro _ ⟨⟩⟩

end Merger

/-! ## Addresses that may be missing -/

namespace Sample

/-- A merger of houses, which have an address, and of letters, which may lack one. -/
def depot : Merger :=
  .plain (fun type =>
    if type = "House" then
      Plan.schema "" "House" [.object "address" "Address" (address "").initialFields]
    else if type = "Letter" then Plan.schema "" "Letter" [.optional "address" "Address"]
    else address "") fun _ => Uuid.nil

/-- An address. -/
def street (name : String) : Fields :=
  [.leaf .text (.text name), .leaf .text (.text ""), .leaf (.option .text) (.option none)]

/-- A house with an address. -/
def house (name : String) : Node := ⟨"House", [.object "Address" (street name)]⟩

/-- A letter. -/
def letter (address : Option Fields) : Node := ⟨"Letter", [.optional "Address" address]⟩

/-- Whether a letter has an address. -/
def isAddressed (n : Node) : Bool :=
  match n.fields with
  | [.optional _ present] => present.isSome
  | _ => false

/-- A payload that mentions nothing but the identity of an address, as an array. -/
def identityOfAddress : Json := .object [("address", .object [("id", .array [])])]

/-- A payload that mentions a street, and identities of the house and of its address. -/
def streetAndIdentities : Json :=
  .object [("Id", .number (.int 5)),
    ("address", .object [("ID", .array [.null]), ("Street", .null), ("id", .null)])]

/-- The payload that only mentions the street. -/
def streetAlone : Json := .object [("address", .object [("Street", .null)])]

theorem street_complete (name : String) :
    Complete depot.catalogue (.object "Address" (street name)) := by
  refine .object rfl fun i slot hslot => ?_
  have hmem := List.mem_of_getElem? hslot
  simp only [street, List.mem_cons, List.not_mem_nil, or_false] at hmem
  rcases hmem with rfl | rfl | rfl <;> exact .leaf

theorem house_complete (name : String) : (house name).Complete depot.catalogue := by
  refine .object rfl fun i slot hslot => ?_
  obtain rfl := List.mem_singleton.1 (List.mem_of_getElem? hslot)
  exact street_complete name

theorem depot_keepsComplete : depot.KeepsComplete := by
  refine .of_empty rfl fun type => .object rfl fun i slot hslot => ?_
  have hmem := List.mem_of_getElem? hslot
  by_cases hhouse : type = "House"
  · subst hhouse
    obtain rfl := List.mem_singleton.1 hmem
    exact street_complete ""
  · by_cases hletter : type = "Letter"
    · subst hletter
      obtain rfl := List.mem_singleton.1 hmem
      exact .missing
    · have htype : depot.catalogue type = address "" := by
        show ite _ _ _ = _
        rw [if_neg hhouse, if_neg hletter]
      rw [htype] at hmem
      exact (street_complete "").field (List.getElem?_of_mem hmem).choose_spec

theorem streetAlone_thins :
    depot.ThinsValue (.owners "House" "House" true) .unknown streetAndIdentities streetAlone := by
  have hinto : depot.into (.owners "House" "House" true) "address" =
      .owners "Address" "Address" true := by
    decide +kernel
  refine .object (.scalar (by decide +kernel) rfl (.keep ?_ .nil))
  rw [hinto]
  exact .object (.array (by decide +kernel)
    (.keep (.scalar rfl) (.scalar (by decide +kernel) rfl .nil)))

end Sample

/-- The array is passed over, but the address that the letter lacks is made on the way to
it. -/
theorem array_at_identity_constructs :
    Sample.depot.validator.IgnoresValue ∧
      (Sample.depot.merge (Sample.letter (some (Sample.street ""))) (Sample.letter none)
        Sample.identityOfAddress 0).result = .ok .empty ∧
      (Sample.depot.merge (Sample.letter (some (Sample.street ""))) (Sample.letter none)
        (.object [("address", .object [])]) 0).result = .ok .empty ∧
      (Sample.depot.merge (Sample.letter (some (Sample.street ""))) (Sample.letter none)
          Sample.identityOfAddress 0).original ≠
        (Sample.depot.merge (Sample.letter (some (Sample.street ""))) (Sample.letter none)
          (.object [("address", .object [])]) 0).original := by
  refine ⟨Validator.ignoresValue_approveAll, by decide +kernel, by decide +kernel, fun h => ?_⟩
  have hmade : Sample.isAddressed (Sample.depot.merge
      (Sample.letter (some (Sample.street ""))) (Sample.letter none) Sample.identityOfAddress
      0).original = true := by
    decide +kernel
  have hnone : Sample.isAddressed (Sample.depot.merge
      (Sample.letter (some (Sample.street ""))) (Sample.letter none)
      (.object [("address", .object [])]) 0).original = false := by
    decide +kernel
  rw [h, hnone] at hmade
  cases hmade

/-- The address of a house is always there, so no identity key matters. -/
theorem identityKeys_inert_house :
    (Sample.depot.merge (Sample.house "Elm") (Sample.house "Oak") Sample.streetAndIdentities
        0).result = .ok ⟨[⟨⟨["address", "Street"]⟩, .updated, none⟩]⟩ ∧
      (∀ report, (Sample.depot.merge (Sample.house "Elm") (Sample.house "Oak")
          Sample.streetAndIdentities 0).result = .ok report ↔
        (Sample.depot.merge (Sample.house "Elm") (Sample.house "Oak") Sample.streetAlone
          0).result = .ok report) ∧
      ∀ report, (Sample.depot.merge (Sample.house "Elm") (Sample.house "Oak")
          Sample.streetAndIdentities 0).result = .ok report →
        (Sample.depot.merge (Sample.house "Elm") (Sample.house "Oak") Sample.streetAndIdentities
            0).original =
          (Sample.depot.merge (Sample.house "Elm") (Sample.house "Oak") Sample.streetAlone
            0).original :=
  ⟨by decide +kernel, Merger.identityKeys_inert Validator.ignoresValue_approveAll
    (.owners Sample.depot_keepsComplete (Sample.house_complete "Elm") (Sample.house_complete "Oak"))
    Sample.streetAlone_thins 0⟩

end SelectiveMerge
