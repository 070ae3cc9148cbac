import Mathlib.Data.List.Basic
import SelectiveMerge.Proofs.Step
import SelectiveMerge.Sample.Catalogue

/-!
# The case of member names

A member is looked up by its exact name first, and by its name in any case only when that
fails. So a merge that succeeds when the case of names counts does the same when it does not:
wherever the first one finds a member, the second one finds this member too, also in tables
whose members differ in case alone. Nothing else in a merge depends on that rule.

* `Merger.withCase` — the same merger with another rule
* `MemberTable.find?_true_of_false` — a member that is found by its exact name
* `Run.Refines` — where one step succeeds another one does, with the same result
* `Merger.refines_visit`, `Merger.refines_arrayMember` — navigations and arrays
* `Merger.merge_withCase` — a whole merge
-/

namespace SelectiveMerge

/-- A member that is found by its exact name is found when the case does not count. -/
theorem MemberTable.find?_true_of_false {t : MemberTable} {name : String} {member : Member}
    (h : t.find? name false = some member) : t.find? name true = some member := by
  unfold MemberTable.find? MemberTable.position? at h ⊢
  cases hexact : t.exact[name]? with
  | some position =>
    rw [hexact] at h
    exact h
  | none =>
    rw [hexact] at h
    cases h

/-! ## What depends on the removal marker alone -/

namespace Directive

mutual

theorem levels_congr {o o' : Options} (h : o.isRemoveMarker = o'.isRemoveMarker)
    (path : List String) : (value : Json) → levels o path value = levels o' path value
  | .object members => by rw [levels, levels, memberLevels_congr h path members]
  | .array items => by rw [levels, levels, elements_congr h items]
  | .null | .bool _ | .number _ | .string _ => rfl

theorem memberLevels_congr {o o' : Options} (h : o.isRemoveMarker = o'.isRemoveMarker)
    (path : List String) : (members : List (String × Json)) →
    memberLevels o path members = memberLevels o' path members
  | [] => rfl
  | (key, value) :: members => by
    rw [memberLevels, memberLevels, h, levels_congr h (path ++ [key]) value,
      memberLevels_congr h path members]

theorem elements_congr {o o' : Options} (h : o.isRemoveMarker = o'.isRemoveMarker) :
    (items : List Json) → elements o items = elements o' items
  | [] => rfl
  | .object members :: items => by
    rw [elements, elements, memberLevels_congr h [] members, elements_congr h items]
  | .null :: items | .bool _ :: items | .number _ :: items | .string _ :: items
  | .array _ :: items => by
    rw [elements, elements, elements_congr h items] <;> simp

end

/-- The directives of a payload depend on the options by the removal marker. -/
theorem ofMembers_congr {o o' : Options} (h : o.isRemoveMarker = o'.isRemoveMarker)
    (members : List (String × Json)) : ofMembers o members = ofMembers o' members := by
  unfold ofMembers
  rw [memberLevels_congr h]

end Directive

/-- What an element asks for depends on the options by the removal marker. -/
theorem Intent.ofMembers_congr {o o' : Options} (h : o.isRemoveMarker = o'.isRemoveMarker)
    (full : Path) (members : List (String × Json)) :
    Intent.ofMembers o full members = Intent.ofMembers o' full members := by
  have hidentity : Intent.ofIdentity o members = Intent.ofIdentity o' members := by
    funext id
    unfold Intent.ofIdentity
    rw [h]
  unfold Intent.ofMembers
  rw [hidentity]

/-! ## Steps that succeed in the same way -/

namespace Run

variable {α β : Type}

/-- Where the first step succeeds the second one does, with the same result and the same
record. -/
structure Refines (x y : Run α) : Prop where
  succeeds : ∀ {s : Session} {a : α} {s' : Session}, Succeeds x s a s' → Succeeds y s a s'

namespace Refines

theorem refl (x : Run α) : Refines x x := ⟨id⟩

/-- A step that fails is refined by every step. -/
theorem of_fail (e : MergeError) (y : Run α) : Refines (fail e) y :=
  ⟨fun h => (Succeeds.fail_iff.1 h).elim⟩

theorem bind {x y : Run α} {f g : α → Run β} (hxy : Refines x y) (hfg : ∀ a, Refines (f a) (g a)) :
    Refines (x >>= f) (y >>= g) := by
  refine ⟨fun h => ?_⟩
  obtain ⟨a, t, hx, hf⟩ := Succeeds.bind_iff.1 h
  exact .bind (hxy.succeeds hx) ((hfg a).succeeds hf)

theorem ofExcept {x y : Except MergeError α} (h : ∀ a, x = .ok a → y = .ok a) :
    Refines (ofExcept x) (ofExcept y) := by
  refine ⟨fun hx => ?_⟩
  obtain ⟨hok, rfl⟩ := Succeeds.ofExcept_iff.1 hx
  exact .of_ofExcept (h _ hok)

theorem quietly {x y : Run α} (h : Refines x y) : Refines (quietly x) (quietly y) := by
  refine ⟨fun hx => ?_⟩
  obtain ⟨t, hrun, rfl⟩ := Succeeds.quietly_iff.1 hx
  exact Succeeds.quietly_iff.2 ⟨t, h.succeeds hrun, rfl⟩

end Refines

end Run

namespace Merger

open Run (Refines)

variable (m : Merger)

/-- The merger with another rule for the case of member names. -/
def withCase (ignoreCase : Bool) : Merger :=
  { m with options := { m.options with ignoreCase } }

variable {m}

@[simp] theorem withCase_catalogue (ignoreCase : Bool) :
    (m.withCase ignoreCase).catalogue = m.catalogue := rfl

@[simp] theorem withCase_configuration (ignoreCase : Bool) :
    (m.withCase ignoreCase).configuration = m.configuration := rfl

/-- The removal marker is found in any case under either rule. -/
theorem isRemoveMarker_withCase (ignoreCase ignoreCase' : Bool) :
    (m.withCase ignoreCase).options.isRemoveMarker =
      (m.withCase ignoreCase').options.isRemoveMarker := rfl

/-! ## Members -/

theorem member?_withCase {n : Node} {name : String} {member : Member}
    (h : (m.withCase false).member? n name = some member) :
    (m.withCase true).member? n name = some member :=
  MemberTable.find?_true_of_false h

theorem refines_memberPair (full : Path) (patch original : Node) (name : String) :
    Refines (.ofExcept ((m.withCase false).memberPair full patch original name))
      (.ofExcept ((m.withCase true).memberPair full patch original name)) := by
  refine .ofExcept fun pair hpair => ?_
  obtain ⟨patchMember, originalMember⟩ := pair
  obtain ⟨hpatch, horiginal⟩ := memberPair_eq_ok.1 hpair
  exact memberPair_eq_ok.2 ⟨member?_withCase hpatch, member?_withCase horiginal⟩

theorem refines_assignMember (full : Path) (node : Json) (patch original : Node) (name : String) :
    Refines ((m.withCase false).assignMember full node patch original name)
      ((m.withCase true).assignMember full node patch original name) := by
  unfold assignMember
  split
  · exact .refl _
  · -- an override does not look at the members
    rw [withCase_configuration, withCase_configuration]
    split
    · exact .refl _
    · exact .bind (refines_memberPair full patch original name) fun _ => .refl _

/-! ## Navigation -/

/-- Navigations that find members by their exact names find the same owners in any case. -/
theorem refines_visit {node : Json} {onMember onMember' : Node → Node → String → Run Fields}
    (hact : ∀ patch original name, Refines (onMember patch original name)
      (onMember' patch original name)) :
    (before rest : List String) → (patch original : Node) →
    Refines ((m.withCase false).visit node onMember before rest patch original)
      ((m.withCase true).visit node onMember' before rest patch original)
  | _, [], _, _ => .refl _
  | _, [name], patch, original => hact patch original name
  | before, name :: key :: rest, patch, original => by
    unfold visit
    refine .bind (refines_memberPair _ patch original name) fun members => ?_
    obtain ⟨patchMember, originalMember⟩ := members
    dsimp only
    split
    · exact .bind (refines_visit hact ..) fun _ => .refl _
    · exact .bind (.refl _) fun fields => .bind (refines_visit hact ..) fun _ => .refl _
    · exact .of_fail _ _
    · exact .of_fail _ _
    · split
      · exact .of_fail _ _
      · exact .bind (.refl _) fun p => .bind (.refl _) fun fields =>
          .bind (refines_visit hact ..) fun _ => .refl _
    all_goals exact .refl _

/-! ## Collections -/

/-- Items are dropped by their identities, without regard to member names. -/
theorem refines_dropUnmentioned (r : Reconciliation) (mentioned : List Uuid)
    (items : List Fields) :
    Refines ((m.withCase false).dropUnmentioned r mentioned items)
      ((m.withCase true).dropUnmentioned r mentioned items) := by
  induction items with
  | nil => exact .refl _
  | cons item items ih =>
    unfold dropUnmentioned
    rw [withCase_catalogue, withCase_catalogue]
    split
    · split
      · exact .bind ih fun _ => .refl _
      · exact .bind (.refl _) fun _ => .bind (.refl _) fun _ => ih
    · exact .bind ih fun _ => .refl _

theorem refines_keepMentioned (r : Reconciliation) (drops : Bool) (state : Reconciled) :
    Refines ((m.withCase false).keepMentioned r drops state)
      ((m.withCase true).keepMentioned r drops state) := by
  cases drops with
  | true => exact refines_dropUnmentioned r state.mentioned state.items
  | false => exact .refl _

theorem refines_reconcile (full : Path) (node : Json) (elements : List Element)
    {runElements runElements' : Reconciliation → Reconciled → Run Reconciled}
    (hrun : ∀ r state, Refines (runElements r state) (runElements' r state))
    (patch original : Node) (patchMember member : Member) :
    Refines
      ((m.withCase false).reconcile full node elements runElements patch original patchMember member)
      ((m.withCase true).reconcile full node elements runElements' patch original patchMember
        member) := by
  unfold reconcile
  split
  · exact .of_fail _ _
  · refine .bind (.refl _) fun shown => .bind (.refl _) fun identified => .bind (.refl _) fun _ => ?_
    obtain ⟨patchType, patchItems⟩ := shown
    dsimp only
    split
    · rw [withCase_configuration, withCase_configuration]
      split
      · exact .refl _
      · exact .bind (.refl _) fun items => .bind (hrun _ _) fun state =>
          .bind (refines_keepMentioned ..) fun _ => .refl _
    · exact .of_fail _ _

theorem refines_arrayMember (full : Path) (node : Json) (elements : List Element)
    {runElements runElements' : Reconciliation → Reconciled → Run Reconciled}
    (hrun : ∀ r state, Refines (runElements r state) (runElements' r state))
    (patch original : Node) (name : String) :
    Refines ((m.withCase false).arrayMember full node elements runElements patch original name)
      ((m.withCase true).arrayMember full node elements runElements' patch original name) := by
  unfold arrayMember
  split
  · exact .refl _
  · refine .bind (refines_memberPair full patch original name) fun members => ?_
    obtain ⟨patchMember, originalMember⟩ := members
    dsimp only
    rw [withCase_configuration, withCase_configuration]
    split
    · exact .refl _
    · split
      · exact refines_assignMember full node patch original name
      · exact refines_reconcile full node elements hrun patch original patchMember originalMember

/-! ## Directives -/

mutual

theorem refines_runDirective (base : List String) (patch original : Node) :
    (directive : Directive) →
    Refines ((m.withCase false).runDirective base patch original directive)
      ((m.withCase true).runDirective base patch original directive)
  | .scalar path value => by
    unfold runDirective
    split
    · exact .refl _
    · exact refines_visit (refines_assignMember _ value) base path patch original
  | .array path elements => by
    unfold runDirective
    exact refines_visit (refines_arrayMember _ _ elements
      fun r state => refines_runElements r 0 elements state) base path patch original

theorem refines_runDirectives (base : List String) (patch : Node) (type : TypeName) :
    (directives : List Directive) → (fields : Fields) →
    Refines ((m.withCase false).runDirectives base patch type directives fields)
      ((m.withCase true).runDirectives base patch type directives fields)
  | [], _ => .refl _
  | directive :: directives, fields => by
    unfold runDirectives
    exact .bind (refines_runDirective base patch _ directive) fun fields =>
      refines_runDirectives base patch type directives fields

theorem refines_runElements (r : Reconciliation) (position : Nat) :
    (elements : List Element) → (state : Reconciled) →
    Refines ((m.withCase false).runElements r position elements state)
      ((m.withCase true).runElements r position elements state)
  | [], _ => .refl _
  | element :: elements, state => by
    unfold runElements
    exact .bind (refines_runElement r position element state) fun state =>
      refines_runElements r (position + 1) elements state

theorem refines_runElement (r : Reconciliation) (position : Nat) :
    (element : Element) → (state : Reconciled) →
    Refines ((m.withCase false).runElement r position element state)
      ((m.withCase true).runElement r position element state)
  | .mk (.object members) directives, state => by
    unfold runElement
    rw [Intent.ofMembers_congr (isRemoveMarker_withCase false true)]
    refine .bind (.refl _) fun intent => ?_
    cases intent with
    | add =>
      exact .bind (.refl (m.patchItemAt r position)) fun patchItem =>
        .bind (.refl (m.freshItem r patchItem)) fun fresh =>
          .bind (.quietly (refines_runDirectives ..)) fun fields =>
            .refl (m.pushItem r (.object members) patchItem ⟨fresh.type, fields⟩ state)
    | update id =>
      exact .bind (.refl (m.itemPair r id state)) fun pair =>
        .bind (refines_runDirectives ..) fun _ => .refl _
    | remove id => exact .refl (m.removeItem r (.object members) id state)
  | .mk .null _, _ | .mk (.bool _) _, _ | .mk (.number _) _, _ | .mk (.string _) _, _
  | .mk (.array _) _, _ => by
    unfold runElement
    exact .refl _

end

/-! ## A whole merge -/

/-- A merge that succeeds when the case of member names counts has the same outcome when it
does not: the same object, the same requests and the same report, with as many identities
minted. -/
theorem merge_withCase (m : Merger) (patch original : Node) (payload : Json) (minted : Nat)
    {report : Report}
    (h : ((m.withCase false).merge patch original payload minted).result = .ok report) :
    (m.withCase true).merge patch original payload minted =
      (m.withCase false).merge patch original payload minted := by
  unfold merge at h ⊢
  cases hmembers : Payload.members? payload with
  | error e => rfl
  | ok members =>
    rw [hmembers] at h
    dsimp only at h ⊢
    have hdirectives := Directive.ofMembers_congr (m.isRemoveMarker_withCase true false) members
    cases hexact : (m.withCase false).applyMembers patch original members (Session.start minted) with
    | error e s =>
      rw [hexact] at h
      cases h
    | ok fields s =>
      have hfolded : (m.withCase true).applyMembers patch original members (Session.start minted) =
          .ok fields s := by
        unfold applyMembers at hexact ⊢
        rw [hdirectives]
        exact (refines_runDirectives ..).succeeds hexact
      rw [hfolded]

end Merger

namespace Sample

/-- A merger for objects with members whose names differ in case alone. -/
def spelling : Merger := .plain (fun _ => odd "") fun _ => Uuid.nil

/-- An object with texts under `Name`, `name` and `NAME`. -/
def spelled (texts : List String) : Node := ⟨"Odd", texts.map fun s => .leaf .text (.text s)⟩

end Sample

/-- The second and the third text are told apart under either rule. -/
theorem merge_withCase_spelling :
    let payload : Json := .object [("name", .null), ("NAME", .null)]
    ((Sample.spelling.withCase false).merge (Sample.spelled ["a", "b", "c"])
        (Sample.spelled ["", "", ""]) payload 0).result =
      .ok ⟨[⟨⟨["name"]⟩, .updated, none⟩, ⟨⟨["NAME"]⟩, .updated, none⟩]⟩ ∧
    (Sample.spelling.withCase true).merge (Sample.spelled ["a", "b", "c"])
        (Sample.spelled ["", "", ""]) payload 0 =
      (Sample.spelling.withCase false).merge (Sample.spelled ["a", "b", "c"])
        (Sample.spelled ["", "", ""]) payload 0 := by
  intro payload
  have hok : ((Sample.spelling.withCase false).merge (Sample.spelled ["a", "b", "c"])
      (Sample.spelled ["", "", ""]) payload 0).result =
        .ok ⟨[⟨⟨["name"]⟩, .updated, none⟩, ⟨⟨["NAME"]⟩, .updated, none⟩]⟩ := by
    decide +kernel
  exact ⟨hok, Sample.spelling.merge_withCase _ _ _ _ hok⟩

end SelectiveMerge
