import SelectiveMerge.Proofs.Effects

/-!
# Runs and their effects

Every run that succeeds has the effect of its directives. When on the other hand the
identities that an effect takes up are the next ones to be given out, the run succeeds with
that effect.

* `Merger.Issues` — the identities that are given out next
* `Merger.Advances` — what one record of a merge has more than another one
* `Merger.Performs` — a step of a merge that does something where keys lead to
* `Merger.runsEffect` — directives that succeed have their effect
* `Merger.effectsRun` — directives that have an effect succeed
-/

namespace SelectiveMerge

namespace Merger

variable {m : Merger} {base : List String} {patch : Node} {type : TypeName}
  {fields made : Fields} {ids : List Uuid} {changes : List Change}

/-! ## The identities that are given out -/

/-- The identities are those that are given out next, after so many others. -/
def Issues (m : Merger) : Nat → List Uuid → Prop
  | _, [] => True
  | minted, id :: ids => m.mint minted = id ∧ Issues m (minted + 1) ids

theorem issues_append (m : Merger) (minted : Nat) (ids later : List Uuid) :
    m.Issues minted (ids ++ later) ↔
      m.Issues minted ids ∧ m.Issues (minted + ids.length) later := by
  induction ids generalizing minted with
  | nil => simp [Issues]
  | cons id ids ih =>
    rw [List.cons_append, Issues, Issues, ih, and_assoc, List.length_cons,
      Nat.add_assoc minted 1, Nat.add_comm 1]

/-- From one record to another one these identities were given out and these changes were
recorded. -/
structure Advances (m : Merger) (s : Session) (ids : List Uuid) (changes : List Change)
    (s' : Session) : Prop where
  issued : m.Issues s.minted ids
  minted_eq : s'.minted = s.minted + ids.length
  changes_eq : s'.report.changes = s.report.changes ++ changes

variable {s t s' : Session} {full : Path} {original : Node} {name : String} {later : List Uuid}
  {more : List Change}

namespace Advances

theorem refl (m : Merger) (s : Session) : m.Advances s [] [] s := ⟨trivial, rfl, by simp⟩

theorem trans (h : m.Advances s ids changes t) (h' : m.Advances t later more s') :
    m.Advances s (ids ++ later) (changes ++ more) s' where
  issued := (issues_append ..).2 ⟨h.issued, h.minted_eq ▸ h'.issued⟩
  minted_eq := by rw [h'.minted_eq, h.minted_eq, List.length_append, Nat.add_assoc]
  changes_eq := by rw [h'.changes_eq, h.changes_eq, List.append_assoc]

/-- A request is neither an identity nor a change. -/
theorem asking (m : Merger) (s : Session) (r : Request) : m.Advances s [] [] (s.asking r) :=
  ⟨trivial, rfl, by simp⟩

theorem noting (m : Merger) (s : Session) (c : Change) : m.Advances s [] [c] (s.noting c) :=
  ⟨trivial, rfl, by simp⟩

/-- After it a change is asked for and recorded. -/
theorem asking_noting (h : m.Advances s ids changes t) (r : Request) (c : Change) :
    m.Advances s ids (changes ++ [c]) ((t.asking r).noting c) := by
  have hmore := (h.trans (asking m t r)).trans (noting m _ c)
  rwa [List.append_nil, List.append_nil, List.append_nil] at hmore

/-- What is populated leaves no change. -/
theorem quietly (h : m.Advances { s with populating := s.populating + 1 } ids changes t) :
    m.Advances s ids [] { t with report := s.report, populating := s.populating } :=
  ⟨h.issued, h.minted_eq, by simp⟩

end Advances

/-! ## Runs that succeed have their effect -/

open Run (Succeeds)

theorem Provides.of_makes (h : m.Makes type s fields s') :
    ∃ fresh, m.Provides type none fresh fields ∧ m.Advances s fresh [] s' := by
  cases h with
  | plain hfresh hconstructible => exact ⟨[], .plain hconstructible hfresh, .refl m s⟩
  | fresh hfresh hconstructible =>
    exact ⟨[m.mint s.minted], .fresh hconstructible hfresh, ⟨rfl, trivial⟩, rfl, by simp⟩

theorem Provides.of_ensures {found : Option Fields} (h : m.Ensures type s found fields s') :
    ∃ fresh, m.Provides type found fresh fields ∧ m.Advances s fresh [] s' := by
  cases h with
  | found => exact ⟨[], .found, .refl m s⟩
  | made hmade => exact Provides.of_makes hmade

/-- From one record to another one something is done where keys of an object lead to. -/
def Performs (m : Merger) (full : Path) (act : Act) (keys : List String) (patch original : Node)
    (s : Session) (fields : Fields) (s' : Session) : Prop :=
  ∃ ids changes, m.Lands full act keys (some (.object (some patch)))
      (.object original.type original.fields) ids changes (.object original.type fields) ∧
    m.Advances s ids changes s'

/-- What is done to a member is done where its name leads to. -/
theorem Performs.of_target? {act : Act} {pm om : Member} {i : Nat} {old new : Slot}
    (horiginal : Typed m.catalogue (.object original.type original.fields))
    (hid : isIdentityKey name = false) (hpm : m.member? patch name = some pm)
    (hom : m.member? original name = some om) (htarget : original.target? om = some (i, old))
    (hkind : om.kind = old.kind) (hact : act (patch.read? pm) old ids changes new)
    (hadvances : m.Advances s ids changes s') :
    m.Performs full act [name] patch original s (original.fields.set i new) s' := by
  obtain ⟨hwrites, hslot⟩ := Node.target?_eq_some.1 htarget
  exact ⟨ids, changes, .field (fun _ => hid) hpm hom hwrites hslot
    (under_of_target? horiginal.conforms hom htarget) (fun _ => hkind) (.here hact), hadvances⟩

/-- A key that is followed by other keys goes to a field that is as it is declared. -/
theorem Lands.of_target? {act : Act} {key : String} {rest : List String} {pm om : Member} {i : Nat}
    {old new : Slot} {view : View}
    (horiginal : Typed m.catalogue (.object original.type original.fields))
    (hpm : m.member? patch name = some pm) (hom : m.member? original name = some om)
    (hread : patch.read? pm = some view) (htarget : original.target? om = some (i, old))
    (h : m.Lands full act (key :: rest) (some view) old ids changes new) :
    m.Lands full act (name :: key :: rest) (some (.object (some patch)))
      (.object original.type original.fields) ids changes
      (.object original.type (original.fields.set i new)) := by
  obtain ⟨hwrites, hslot⟩ := Node.target?_eq_some.1 htarget
  exact .field (by simp) hpm hom hwrites hslot
    (under_of_target? horiginal.conforms hom htarget) (by simp) (hread ▸ h)

theorem Assigns.performs (hempty : m.configuration = .empty)
    (horiginal : Typed m.catalogue (.object original.type original.fields))
    (h : m.Assigns full patch original name s fields s') :
    m.Performs full (Copies full) [name] patch original s fields s' := by
  cases h with
  | identity hid => exact ⟨[], [], .identity hid, .refl m s⟩
  | custom _ haction =>
    rw [hempty] at haction
    cases haction
  | leaf hid _ hpm hom hread hkind hencode _ htarget hcoerce =>
    exact .of_target? horiginal hid hpm hom htarget hkind (hread ▸ .leaf hencode hcoerce)
      ((Advances.refl m s).asking_noting _ _)
  | unset hid _ hpm hom hread hkind _ htarget =>
    exact .of_target? horiginal hid hpm hom htarget hkind (hread ▸ .unset)
      ((Advances.refl m s).asking_noting _ _)

/-- What is done behind a hop is done where all the keys lead to. -/
theorem Hop.performs {act : Act} {keys rest : List String} {innerPatch inner : Node}
    {put : Fields → Fields}
    (horiginal : Typed m.catalogue (.object original.type original.fields))
    (h : m.Hop patch original s keys innerPatch inner put t) (hrest : rest ≠ [])
    (hinner : m.Performs full act rest innerPatch inner t made s') :
    m.Performs full act (keys ++ rest) patch original s (put made) s' := by
  obtain ⟨key, rest, rfl⟩ := List.exists_cons_of_ne_nil hrest
  obtain ⟨ids, changes, hlands, hadvances⟩ := hinner
  cases h with
  | object hpm hom hread htarget =>
    exact ⟨ids, changes, hlands.of_target? horiginal hpm hom hread htarget, hadvances⟩
  | optional hpm hom hread htarget hensure =>
    obtain ⟨fresh, hprovides, hfresh⟩ := Provides.of_ensures hensure
    exact ⟨fresh ++ ids, changes,
      (Lands.optional hprovides hlands).of_target? horiginal hpm hom hread htarget,
      hfresh.trans hadvances⟩
  | entry hpm hom hread htarget hpatch hensure =>
    obtain ⟨fresh, hprovides, hfresh⟩ := Provides.of_ensures hensure
    exact ⟨fresh ++ ids, changes,
      (Lands.entry hpatch hprovides hlands).of_target? horiginal hpm hom hread htarget,
      hfresh.trans hadvances⟩

/-- A navigation lands where its keys lead to, when its visitor does. -/
theorem Visits.performs (hwell : m.catalogue.WellTyped) {act : Act}
    {onMember : Node → Node → String → Session → Fields → Session → Prop} {rest : List String}
    (hact : ∀ {p o : Node} {name : String} {s s' : Session} {f : Fields},
      Typed m.catalogue (.object o.type o.fields) → onMember p o name s f s' →
      m.Performs full act [name] p o s f s')
    (horiginal : Typed m.catalogue (.object original.type original.fields))
    (h : m.Visits full onMember rest patch original s fields s') :
    m.Performs full act rest patch original s fields s' := by
  induction h with
  | member h => exact hact horiginal h
  | entry hpm hom hread htarget hassign =>
    cases hassign with
    | intro hsource hencode _ hcoerce =>
      exact ⟨_, _, (Lands.cell hsource hencode hcoerce).of_target? horiginal hpm hom hread htarget,
        (Advances.refl m _).asking_noting _ _⟩
  | hop hhop hrest _ ih =>
    exact hhop.performs horiginal hrest (ih (hhop.typed hwell horiginal).1)

/-- Directives that succeed have their effect. -/
def RunsEffect (m : Merger) (directives : List Directive) : Prop :=
  ∀ {base : List String} {patch : Node} {type : TypeName} {fields made : Fields}
    {s s' : Session}, Typed m.catalogue (.object type fields) →
    Succeeds (runDirectives m base patch type directives fields) s made s' →
    ∃ ids changes, m.effects base patch type directives fields ids changes made ∧
      m.Advances s ids changes s'

section Soundness

variable (hempty : m.configuration = .empty) (hwell : m.catalogue.WellTyped)

include hempty hwell

/-- What succeeds without overrides keeps to the types. -/
theorem runsType_of_empty (directives : List Directive) : m.RunsType directives :=
  runsType (hempty ▸ Configuration.noActions_empty) hwell
    (hempty ▸ Configuration.factoriesTyped_empty _) directives

theorem ElementStep.effect {r : Reconciliation} {position : Nat} {members : List (String × Json)}
    {directives : List Directive} {state state' : Reconciled}
    (hdirectives : m.RunsEffect directives)
    (hstate : Typed m.catalogue (.collection r.type state.items))
    (h : m.ElementStep r position members directives state s state' s') :
    ∃ ids changes, m.elementEffect r.full r.patchType r.patchItems r.type position
        (.mk (.object members) directives) state.items ids changes state'.items ∧
      m.Advances s ids changes s' := by
  simp only [elementEffect]
  cases h with
  | add hintent hpatch hfresh _ hrun =>
    obtain ⟨p, hp, rfl⟩ := Option.map_eq_some_iff.1 hpatch
    cases hfresh with
    | factory hmake =>
      rw [hempty] at hmake
      cases hmake
    | construct _ hmade =>
      obtain ⟨fresh, hprovides, hfresh⟩ := Provides.of_makes hmade
      obtain ⟨ids, changes, heffects, hadvances⟩ := hdirectives (hmade.typed hwell) hrun
      exact ⟨fresh ++ ids, _, .add hintent hp hprovides heffects,
        (hfresh.trans hadvances.quietly).asking_noting _ _⟩
  | update hintent hindex hitem hpatch hrun =>
    obtain ⟨ids, changes, heffects, hadvances⟩ :=
      hdirectives (hstate.item (List.mem_of_getElem? hitem)) hrun
    exact ⟨ids, changes, .update hintent hindex hitem hpatch heffects, hadvances⟩
  | remove hintent hindex =>
    exact ⟨[], _, .remove hintent hindex, (Advances.refl m s).asking_noting _ _⟩

theorem ElementsRun.effect {r : Reconciliation} {position : Nat} {elements : List Element}
    {state state' : Reconciled} (hdirectives : ∀ e ∈ elements, m.RunsEffect e.directives)
    (hstate : Typed m.catalogue (.collection r.type state.items))
    (h : m.ElementsRun r position elements state s state' s') :
    ∃ ids changes, m.elementsEffect r.full r.patchType r.patchItems r.type position elements
        state.items ids changes state'.items ∧ m.Advances s ids changes s' := by
  induction h with
  | @nil _ _ s => exact ⟨[], [], .intro, .refl m s⟩
  | cons hstep _ ih =>
    obtain ⟨ids, changes, hfirst, hadvances⟩ :=
      hstep.effect hempty hwell (hdirectives _ (List.mem_cons_self ..)) hstate
    have hmid := hstep.typed hwell (hempty ▸ Configuration.factoriesTyped_empty _)
      (runsType_of_empty hempty hwell _) hstate
    obtain ⟨later, more, hsecond, hadvances'⟩ :=
      ih (fun e he => hdirectives e (List.mem_cons_of_mem _ he)) hmid
    exact ⟨_, _, .intro hfirst hsecond, hadvances.trans hadvances'⟩

omit hempty hwell in
/-- That a collection is cleared is recorded when it held anything. -/
theorem Clears.advances {node : Json} {member : Member} {items found : List Fields}
    (h : m.Clears full node patch original member true items s found s') :
    found = [] ∧ m.Advances s [] (if items = [] then [] else [⟨full, .cleared, none⟩]) s' := by
  cases h with
  | kept hclears => cases hclears
  | cleared _ hitems =>
    rw [if_neg hitems]
    exact ⟨rfl, (Advances.refl m s).asking_noting _ _⟩
  | empty _ hitems =>
    rw [if_pos hitems]
    exact ⟨rfl, .asking m s _⟩

/-- A collection takes the array that it is reconciled with. -/
theorem Reconciles.performs (hderived : m.catalogue.Derived) {node : Json}
    {elements : List Element} {pm om : Member}
    (hdirectives : ∀ e ∈ elements, m.RunsEffect e.directives)
    (horiginal : Typed m.catalogue (.object original.type original.fields))
    (hid : isIdentityKey name = false) (hpm : m.member? patch name = some pm)
    (hom : m.member? original name = some om) (hkind : om.kind = .collection)
    (h : m.Reconciles full node elements patch original pm om s fields s') :
    m.Performs full (m.arrayAct full elements) [name] patch original s fields s' := by
  have hforce : m.configuration.forcesReplace full = false := by
    rw [hempty]
    rfl
  cases h with
  | ignored hpatch hread htarget hidentified _ helements =>
    obtain ⟨rfl, rfl⟩ := collection_of_target? hderived hom htarget hread
    subst helements
    rw [← set_eq_self (Node.target?_eq_some.1 htarget).2]
    refine .of_target? horiginal hid hpm hom htarget hkind ?_ (.refl m s)
    exact hpatch ▸ .reconciled (fun _ => hidentified) (by simp) .intro
  | @run _ type _ _ _ _ _ _ _ _ _ _ _ hpatch hread htarget hclears hrun hdrops =>
    obtain ⟨rfl, rfl⟩ := collection_of_target? hderived hom htarget hread
    have hitems := (horiginal.field (Node.target?_eq_some.1 htarget).2).2
    rw [hforce] at hclears hdrops
    cases hdrops with
    | dropped hdrops => cases hdrops
    | kept =>
      cases hclear : !(m.catalogue type).identified && (elements.isEmpty || false) with
      | false =>
        rw [hclear] at hclears
        cases hclears with
        | cleared hnone | empty hnone => cases hnone
        | kept =>
          obtain ⟨ids, changes, heffect, hadvances⟩ :=
            hrun.effect hempty hwell hdirectives hitems
          refine .of_target? horiginal hid hpm hom htarget hkind
            (hpatch ▸ .reconciled ?_ hrun.isObject heffect) hadvances
          rintro rfl
          simpa using hclear
      | true =>
        rw [hclear] at hclears
        obtain ⟨rfl, hadvances⟩ := hclears.advances
        simp only [Bool.and_eq_true, Bool.not_eq_true', Bool.or_false, List.isEmpty_iff] at hclear
        obtain ⟨hidentified, rfl⟩ := hclear
        cases hrun with
        | nil =>
          refine .of_target? horiginal hid hpm hom htarget hkind ?_ hadvances
          exact hpatch ▸ .cleared rfl hidentified

theorem ArrayAssigns.performs (hderived : m.catalogue.Derived) {node : Json}
    {elements : List Element} (hdirectives : ∀ e ∈ elements, m.RunsEffect e.directives)
    (horiginal : Typed m.catalogue (.object original.type original.fields))
    (h : m.ArrayAssigns full node elements patch original name s fields s') :
    m.Performs full (m.arrayAct full elements) [name] patch original s fields s' := by
  cases h with
  | identity hid => exact ⟨[], [], .identity hid, .refl m s⟩
  | emptied hid _ hpm hom hkind helements _ htarget hcell =>
    exact .of_target? horiginal hid hpm hom htarget hkind (.emptied helements hcell)
      ((Advances.refl m s).asking_noting _ _)
  | assigned hid hpm hom hkind helements hassign =>
    obtain ⟨ids, changes, hlands, hadvances⟩ := hassign.performs hempty horiginal
    refine ⟨ids, changes, ?_, hadvances⟩
    cases hlands with
    | identity htrue => exact .identity htrue
    | field hid hpm' hom' hwrites hslot hplace hkind' hrest =>
      obtain rfl := Option.some_inj.1 (hom.symm.trans hom')
      cases hrest with
      | here htakes =>
        refine .field hid hpm' hom' hwrites hslot hplace hkind' (.here (.assigned ?_ htakes))
        intro hleaf hnone
        refine helements ((hkind' rfl).trans hleaf) hnone ?_
        rw [hempty]
        rfl
  | reconciled hid hpm hom hkind hreconcile =>
    exact hreconcile.performs hempty hwell hderived hdirectives horiginal hid hpm hom hkind

theorem DirectiveStep.effect (hderived : m.catalogue.Derived) {directive : Directive}
    (hdirectives : ∀ e ∈ directive.arrayElements, m.RunsEffect e.directives)
    (horiginal : Typed m.catalogue (.object original.type original.fields))
    (h : m.DirectiveStep base patch original directive s fields s') :
    ∃ ids changes, m.effect base patch original.type directive original.fields ids changes fields ∧
      m.Advances s ids changes s' := by
  cases h with
  | identity hid => exact ⟨[], [], (effect_scalar_of_identity hid).2 .intro, .refl m s⟩
  | scalar hid hvisit =>
    obtain ⟨ids, changes, hlands, hadvances⟩ :=
      hvisit.performs hwell (fun ho hassign => Assigns.performs hempty ho hassign) horiginal
    exact ⟨ids, changes, (effect_scalar hid).2 hlands, hadvances⟩
  | array hvisit =>
    obtain ⟨ids, changes, hlands, hadvances⟩ := hvisit.performs hwell
      (fun ho harray => ArrayAssigns.performs hempty hwell hderived hdirectives ho harray) horiginal
    exact ⟨ids, changes, effect_array.2 hlands, hadvances⟩

/-- Every list of directives has its effect when it succeeds. -/
theorem runsEffect (hderived : m.catalogue.Derived) (directives : List Directive) :
    m.RunsEffect directives := by
  induction directives using Directive.forall_of_elements with
  | nil =>
    intro base patch type fields made s s' _ h
    obtain ⟨rfl, rfl⟩ := succeeds_runDirectives_nil.1 h
    exact ⟨[], [], .intro, .refl m s⟩
  | cons directive directives hdirective ih =>
    intro base patch type fields made s s' hfields h
    obtain ⟨mid, t, hhead, htail⟩ := succeeds_runDirectives_cons.1 h
    have hstep := DirectiveStep.of_runDirective hhead
    have hmid := hstep.typed (hempty ▸ Configuration.noActions_empty) hwell
      (hempty ▸ Configuration.factoriesTyped_empty _)
      (fun e _ => runsType_of_empty hempty hwell _) hfields
    obtain ⟨ids, changes, hfirst, hadvances⟩ :=
      hstep.effect hempty hwell hderived hdirective hfields
    obtain ⟨later, more, hsecond, hadvances'⟩ := ih hmid htail
    exact ⟨_, _, .intro hfirst hsecond, hadvances.trans hadvances'⟩

end Soundness

/-! ## Effects whose identities are given out are run -/

theorem Provides.run_ensure {found : Option Fields} (h : m.Provides type found ids fields)
    (hissues : m.Issues s.minted ids) (path : Path) :
    ∃ s', Succeeds (m.ensure type path found) s fields s' ∧ m.Advances s ids [] s' := by
  cases h with
  | found => exact ⟨s, .of_pure, .refl m s⟩
  | plain hconstructible hfresh =>
    refine ⟨s, .bind (t := s) ?_ .of_require, .refl m s⟩
    simp [Succeeds, construct?, hconstructible, hfresh]
  | fresh hconstructible hfresh =>
    obtain ⟨rfl, -⟩ := hissues
    refine ⟨{ s with minted := s.minted + 1 }, .bind ?_ .of_require, ⟨rfl, trivial⟩, rfl, by simp⟩
    simp [Succeeds, construct?, hconstructible, hfresh]

/-- Directives whose effect takes up the identities that are given out next succeed with
that effect. -/
def EffectsRun (m : Merger) (directives : List Directive) : Prop :=
  ∀ {base : List String} {patch : Node} {type : TypeName} {fields made : Fields}
    {ids : List Uuid} {changes : List Change} {s : Session},
    m.effects base patch type directives fields ids changes made → m.Issues s.minted ids →
    ∃ s', Succeeds (runDirectives m base patch type directives fields) s made s' ∧
      m.Advances s ids changes s'

section Completeness

variable (hvalidator : m.validator = .approveAll)

include hvalidator

section Kinds

variable {node : Json} {onMember : Node → Node → String → Run Fields} {before rest : List String}
  {key : String} {pm om : Member} {i : Nat} (hpm : m.member? patch name = some pm)
  (hom : m.member? original name = some om)

include hpm hom

omit hvalidator

/-- A navigation through an object runs when it does so in there. -/
theorem succeeds_visit_object {inner : TypeName} {p : Node} {f made : Fields}
    (hread : patch.read? pm = some (.object (some p)))
    (htarget : original.target? om = some (i, .object inner f))
    (h : Succeeds (m.visit node onMember (before ++ [name]) (key :: rest) p ⟨inner, f⟩) s made s') :
    Succeeds (m.visit node onMember before (name :: key :: rest) patch original) s
      (original.fields.set i (.object inner made)) s' := by
  unfold Merger.visit
  refine (Succeeds.of_ofExcept (memberPair_eq_ok.2 ⟨hpm, hom⟩)).bind ?_
  simp only [hread, htarget]
  exact h.bind .of_pure

/-- So does one through an optional object that is there or made. -/
theorem succeeds_visit_optional {inner : TypeName} {p : Node} {present : Option Fields}
    {f made : Fields} (hread : patch.read? pm = some (.object (some p)))
    (htarget : original.target? om = some (i, .optional inner present))
    (hensure : Succeeds (m.ensure inner ⟨before ++ [name]⟩ present) s f t)
    (h : Succeeds (m.visit node onMember (before ++ [name]) (key :: rest) p ⟨inner, f⟩) t made s') :
    Succeeds (m.visit node onMember before (name :: key :: rest) patch original) s
      (original.fields.set i (.optional inner (some made))) s' := by
  unfold Merger.visit
  refine (Succeeds.of_ofExcept (memberPair_eq_ok.2 ⟨hpm, hom⟩)).bind ?_
  simp only [hread, htarget]
  exact hensure.bind (h.bind .of_pure)

/-- So does one through an entry that is there or made. -/
theorem succeeds_visit_dictionary {patchType inner : TypeName} {next : String}
    {patchEntries entries : List (String × Fields)} {p f made : Fields}
    (hread : patch.read? pm = some (.dictionary patchType patchEntries))
    (htarget : original.target? om = some (i, .dictionary inner entries))
    (hpatch : Dictionary.find? key patchEntries = some p)
    (hensure : Succeeds (m.ensure inner ((Path.mk (before ++ [name])).child key)
      (Dictionary.find? key entries)) s f t)
    (h : Succeeds (m.visit node onMember ((Path.mk (before ++ [name])).child key).segments
      (next :: rest) ⟨patchType, p⟩ ⟨inner, f⟩) t made s') :
    Succeeds (m.visit node onMember before (name :: key :: next :: rest) patch original) s
      (original.fields.set i (.dictionary inner (Dictionary.insert key made entries))) s' := by
  unfold Merger.visit
  refine (Succeeds.of_ofExcept (memberPair_eq_ok.2 ⟨hpm, hom⟩)).bind ?_
  simp only [hread, htarget]
  exact (Succeeds.require_iff.2 ⟨hpatch, rfl⟩).bind (hensure.bind (h.bind .of_pure))

/-- One that ends at a leaf in a dictionary runs when the leaf is assigned. -/
theorem succeeds_visit_leafDictionary {patchType inner : LeafType}
    {patchEntries entries made : List (String × Cell)}
    (hread : patch.read? pm = some (.leafDictionary patchType patchEntries))
    (htarget : original.target? om = some (i, .leafDictionary inner entries))
    (h : Succeeds (m.assignEntry ⟨before ++ [name, key]⟩ patchType patchEntries inner entries key)
      s made s') :
    Succeeds (m.visit node onMember before [name, key] patch original) s
      (original.fields.set i (.leafDictionary inner made)) s' := by
  unfold Merger.visit
  refine (Succeeds.of_ofExcept (memberPair_eq_ok.2 ⟨hpm, hom⟩)).bind ?_
  simp only [hread, htarget]
  exact h.bind .of_pure

end Kinds

/-- A leaf that the patch has in a dictionary is assigned. -/
theorem succeeds_assignEntry {key : String} {patchType inner : LeafType}
    {patchEntries entries : List (String × Cell)} {source cell : Cell} {value : Json}
    (hsource : Dictionary.find? key patchEntries = some source)
    (hencode : source.encode = .ok value) (hcoerce : Coercion.coerce? inner value = some cell)
    (full : Path) (s : Session) :
    ∃ s', Succeeds (m.assignEntry full patchType patchEntries inner entries key) s
        (Dictionary.insert key cell entries) s' ∧
      m.Advances s [] [⟨full, .updated, none⟩] s' := by
  refine ⟨_, ?_,
    (Advances.refl m s).asking_noting ⟨full, key, value, .updateProperty, none, none⟩ _⟩
  refine (Succeeds.require_iff.2 ⟨hsource, rfl⟩).bind ?_
  refine (Succeeds.of_ofExcept (encode_mapError_ok.2 hencode)).bind ?_
  refine (succeeds_validate hvalidator s _).bind ?_
  rw [hcoerce]
  exact (Succeeds.of_record _).bind .of_pure

/-- A navigation runs where its keys lead to, when its visitor does. -/
theorem Lands.run_visit {node : Json} {act : Act} {onMember : Node → Node → String → Run Fields}
    (hobject : ∀ {view : Option View} {type : TypeName} {fields : Fields} {ids : List Uuid}
      {changes : List Change} {new : Slot}, ¬ act view (.object type fields) ids changes new)
    (hact : ∀ {p : Node} {type : TypeName} {fields made : Fields} {name : String}
      {ids : List Uuid} {changes : List Change} {s : Session},
      m.Lands full act [name] (some (.object (some p))) (.object type fields) ids changes
        (.object type made) → m.Issues s.minted ids →
      ∃ s', Succeeds (onMember p ⟨type, fields⟩ name) s made s' ∧ m.Advances s ids changes s') :
    {before rest : List String} → {patch : Node} → {type : TypeName} → {fields made : Fields} →
    {ids : List Uuid} → {changes : List Change} → {s : Session} →
    full.segments = before ++ rest →
    m.Lands full act rest (some (.object (some patch))) (.object type fields) ids changes
      (.object type made) → m.Issues s.minted ids →
    ∃ s', Succeeds (m.visit node onMember before rest patch ⟨type, fields⟩) s made s' ∧
      m.Advances s ids changes s'
  | _, [], _, _, _, _, _, _, _, _, h, _ => by
    cases h with
    | here h => exact (hobject h).elim
  | _, [_], _, _, _, _, _, _, _, _, h, hissues => hact h hissues
  | before, name :: key :: rest, patch, type, fields, made, ids, changes, s, hfull, h, hissues => by
    cases h with
    | @field _ _ _ _ _ pm om i old new _ _ _ hpm hom hwrites hslot _ _ hrest =>
      have htarget : Node.target? ⟨type, fields⟩ om = some (i, old) :=
        Node.target?_eq_some.2 ⟨hwrites, hslot⟩
      have hinner : full.segments = (before ++ [name]) ++ key :: rest := by simp [hfull]
      generalize hread : patch.read? pm = view at hrest
      cases old with
      | leaf | collection => cases hrest
      | object inner f =>
        obtain ⟨p, f', rfl, rfl⟩ := hrest.of_object
        obtain ⟨s', hrun, hadvances⟩ := run_visit hobject hact hinner hrest hissues
        exact ⟨s', succeeds_visit_object hpm hom hread htarget hrun, hadvances⟩
      | optional inner present =>
        cases hrest with
        | optional hprovides hrest =>
          obtain ⟨hfresh, hlater⟩ := (issues_append ..).1 hissues
          obtain ⟨t, hensure, hadvances⟩ := hprovides.run_ensure hfresh ⟨before ++ [name]⟩
          rw [← hadvances.minted_eq] at hlater
          obtain ⟨s', hrun, hadvances'⟩ := run_visit hobject hact hinner hrest hlater
          exact ⟨s', succeeds_visit_optional hpm hom hread htarget hensure hrun,
            hadvances.trans hadvances'⟩
      | dictionary inner entries =>
        cases rest with
        | nil => cases hrest
        | cons next rest =>
          cases hrest with
          | entry hpatch hprovides hrest =>
            have hentry : full.segments =
                ((⟨before ++ [name]⟩ : Path).child key).segments ++ next :: rest := by
              simp [hfull, Path.child]
            obtain ⟨hfresh, hlater⟩ := (issues_append ..).1 hissues
            obtain ⟨t, hensure, hadvances⟩ :=
              hprovides.run_ensure hfresh ((⟨before ++ [name]⟩ : Path).child key)
            rw [← hadvances.minted_eq] at hlater
            obtain ⟨s', hrun, hadvances'⟩ := run_visit hobject hact hentry hrest hlater
            exact ⟨s', succeeds_visit_dictionary hpm hom hread htarget hpatch hensure hrun,
              hadvances.trans hadvances'⟩
      | leafDictionary inner entries =>
        cases hrest with
        | cell hsource hencode hcoerce =>
          obtain ⟨s', hrun, hadvances⟩ :=
            succeeds_assignEntry hvalidator hsource hencode hcoerce full s
          have hpath : full = ⟨before ++ [name, key]⟩ := by rw [← hfull]
          rw [hpath] at hrun
          exact ⟨s', succeeds_visit_leafDictionary hpm hom hread htarget hrun, hadvances⟩

variable (hempty : m.configuration = .empty)

include hempty

theorem Lands.run_assignMember
    (h : m.Lands full (Copies full) [name] (some (.object (some patch)))
      (.object type fields) ids changes (.object type made)) (node : Json) (s : Session) :
    ∃ s', Succeeds (m.assignMember full node patch ⟨type, fields⟩ name) s made s' ∧
      m.Advances s ids changes s' := by
  have haction : m.configuration.setAction? full = none := by
    rw [hempty]
    rfl
  unfold assignMember
  cases h with
  | identity hid =>
    rw [if_pos hid]
    exact ⟨s, .of_pure, .refl m s⟩
  | @field _ _ _ _ _ pm om i old new _ _ hid hpm hom hwrites hslot _ hkind hrest =>
    have hpair : Succeeds
        (Run.ofExcept (m.memberPair full patch ⟨type, fields⟩ name)) s (pm, om) s :=
      .of_ofExcept (memberPair_eq_ok.2 ⟨hpm, hom⟩)
    have htarget : Node.target? ⟨type, fields⟩ om = some (i, old) :=
      Node.target?_eq_some.2 ⟨hwrites, hslot⟩
    rw [if_neg (by simp [hid rfl]), haction]
    generalize hread : patch.read? pm = view at hrest
    cases hrest with
    | here htakes =>
      cases htakes with
      | @leaf patchType leafType source oldCell cell value hencode hcoerce =>
        refine ⟨_, hpair.bind ?_, (Advances.refl m s).asking_noting
          ⟨full, om.name, value, .updateProperty, some ⟨type, fields⟩, some patch⟩ _⟩
        simp only [hread, hkind rfl, Slot.kind, assignLeaf, htarget]
        refine (Succeeds.of_ofExcept (encode_mapError_ok.2 hencode)).bind ?_
        refine (succeeds_validate hvalidator s _).bind ?_
        rw [hcoerce]
        exact (Succeeds.of_record _).bind .of_pure
      | unset =>
        refine ⟨_, hpair.bind ?_, (Advances.refl m s).asking_noting
          ⟨full, om.name, .null, .updateProperty, some ⟨type, fields⟩, some patch⟩ _⟩
        simp only [hread, hkind rfl, Slot.kind, unsetObject, htarget]
        exact (succeeds_validate hvalidator s _).bind
          ((Succeeds.of_record _).bind .of_pure)

theorem run_element {r : Reconciliation} {position : Nat} {members : List (String × Json)}
    {directives : List Directive} {state : Reconciled} {left : List Fields}
    (hdirectives : m.EffectsRun directives)
    (h : m.elementEffect r.full r.patchType r.patchItems r.type position
      (.mk (.object members) directives) state.items ids changes left)
    (hissues : m.Issues s.minted ids) :
    ∃ state' s', Succeeds (runElement m r position (.mk (.object members) directives) state) s
      state' s' ∧ state'.items = left ∧ m.Advances s ids changes s' := by
  rw [elementEffect] at h
  unfold runElement
  cases h with
  | @add p fields made fresh ids changes hintent hpatch hprovides hinner =>
    obtain ⟨hfresh, hlater⟩ := (issues_append ..).1 hissues
    obtain ⟨t, hensure, hadvances⟩ := hprovides.run_ensure hfresh r.full
    rw [← hadvances.minted_eq] at hlater
    obtain ⟨u, hrun, hadvances'⟩ :=
      hdirectives (s := { t with populating := t.populating + 1 }) hinner hlater
    have hpatchItem : Succeeds (m.patchItemAt r position) s ⟨r.patchType, p⟩ s :=
      Succeeds.require_iff.2 ⟨by rw [Collection.item?, hpatch]; rfl, rfl⟩
    have hfreshItem : Succeeds (m.freshItem r ⟨r.patchType, p⟩) s ⟨r.type, fields⟩ t := by
      rw [freshItem, hempty]
      exact hensure.bind .of_pure
    refine ⟨⟨state.items ++ [made], ((m.catalogue r.type).identity? made).toList ++
      state.mentioned⟩, _, (Succeeds.of_ofExcept hintent).bind ?_, rfl,
      (hadvances.trans hadvances'.quietly).asking_noting ⟨r.full, r.property, .object members,
        .addItem, some ⟨r.type, made⟩, some ⟨r.patchType, p⟩⟩ _⟩
    refine hpatchItem.bind (hfreshItem.bind ?_)
    refine (Succeeds.quietly_iff.2 ⟨u, hrun, rfl⟩).bind ?_
    refine (succeeds_validate hvalidator _ _).bind ?_
    rw [Collection.push, if_pos rfl]
    exact (Succeeds.of_record _).bind .of_pure
  | @update id index item made patchItem _ _ hintent hindex hitem hpatch hinner =>
    obtain ⟨s', hrun, hadvances⟩ := hdirectives hinner hissues
    refine ⟨⟨state.items.set index made, id :: state.mentioned⟩, s',
      (Succeeds.of_ofExcept hintent).bind ?_, rfl, hadvances⟩
    have hpair : Succeeds (m.itemPair r id state) s (index, item, patchItem) s :=
      (Succeeds.require_iff.2 ⟨hindex, rfl⟩).bind
        ((Succeeds.require_iff.2 ⟨hpatch, rfl⟩).bind
          ((Succeeds.require_iff.2 ⟨hitem, rfl⟩).bind .of_pure))
    exact hpair.bind (hrun.bind .of_pure)
  | @remove id index hintent hindex =>
    refine ⟨{ state with items := state.items.eraseIdx index }, _,
      (Succeeds.of_ofExcept hintent).bind ?_, rfl,
      (Advances.refl m s).asking_noting ⟨r.full, r.property, .object members, .removeItem,
        Collection.item? r.type state.items index,
        m.catalogue.itemWithId? r.patchType r.patchItems id⟩ _⟩
    refine (Succeeds.require_iff.2 ⟨hindex, rfl⟩).bind (.bind ?_ .of_pure)
    exact (succeeds_validate hvalidator s _).bind ((Succeeds.of_record _).bind .of_pure)

theorem run_elements {r : Reconciliation} {position : Nat} {elements : List Element}
    {state : Reconciled} {left : List Fields}
    (hobjects : ∀ e ∈ elements, e.value.isObject = true)
    (hdirectives : ∀ e ∈ elements, m.EffectsRun e.directives)
    (h : m.elementsEffect r.full r.patchType r.patchItems r.type position elements state.items
      ids changes left) (hissues : m.Issues s.minted ids) :
    ∃ state' s', Succeeds (runElements m r position elements state) s state' s' ∧
      state'.items = left ∧ m.Advances s ids changes s' := by
  induction elements generalizing position state ids changes s with
  | nil =>
    rw [elementsEffect] at h
    cases h with
    | intro => exact ⟨state, s, .of_pure, rfl, .refl m s⟩
  | cons element elements ih =>
    rw [elementsEffect] at h
    rw [runElements]
    cases h with
    | intro hfirst hsecond =>
      have hobject := hobjects element (List.mem_cons_self ..)
      have hinner : m.EffectsRun element.directives := hdirectives _ (List.mem_cons_self ..)
      obtain ⟨value, directives⟩ := element
      obtain ⟨members, rfl⟩ := Json.exists_of_isObject hobject
      obtain ⟨hnow, hlater⟩ := (issues_append ..).1 hissues
      obtain ⟨mid, t, hstep, rfl, hadvances⟩ := run_element hvalidator hempty hinner hfirst hnow
      rw [← hadvances.minted_eq] at hlater
      obtain ⟨state', s', hrest, hleft, hadvances'⟩ :=
        ih (fun e he => hobjects e (List.mem_cons_of_mem _ he))
          (fun e he => hdirectives e (List.mem_cons_of_mem _ he)) hsecond hlater
      exact ⟨state', s', hstep.bind hrest, hleft, hadvances.trans hadvances'⟩

omit hempty in
/-- A collection is cleared, with a record of it when it held anything. -/
theorem run_clears (full : Path) (node : Json) (patch original : Node) (member : Member)
    (items : List Fields) (s : Session) :
    ∃ t s', Succeeds (m.askToClear full node patch original member true) s () t ∧
      Succeeds (clearItems full true items) t [] s' ∧
      m.Advances s [] (if items = [] then [] else [⟨full, .cleared, none⟩]) s' := by
  unfold askToClear clearItems
  simp only [if_true, List.isEmpty_iff]
  by_cases hitems : items = []
  · rw [if_pos hitems, if_pos hitems]
    exact ⟨_, _, succeeds_validate hvalidator s _, .of_pure, .asking m s _⟩
  · rw [if_neg hitems, if_neg hitems]
    exact ⟨_, _, succeeds_validate hvalidator s _, (Succeeds.of_record _).bind .of_pure,
      (Advances.refl m s).asking_noting _ _⟩

/-- A collection is reconciled in the way that an array takes it. -/
theorem run_reconcile (hderived : m.catalogue.Derived) {elements : List Element}
    (hdirectives : ∀ e ∈ elements, m.EffectsRun e.directives) {om pm : Member} {i : Nat}
    {patchType itemType : TypeName} {patchItems items left : List Fields}
    (hread : patch.read? pm = some (.collection patchType patchItems))
    (hom : m.member? ⟨type, fields⟩ name = some om)
    (htarget : Node.target? ⟨type, fields⟩ om = some (i, .collection itemType items))
    (h : m.arrayAct full elements (some (.collection patchType patchItems))
      (.collection itemType items) ids changes (.collection itemType left))
    (hissues : m.Issues s.minted ids) (node : Json) :
    ∃ s', Succeeds (m.reconcile full node elements
        (fun r state => runElements m r 0 elements state) patch ⟨type, fields⟩ pm om) s
        (fields.set i (.collection itemType left)) s' ∧
      m.Advances s ids changes s' := by
  have hforce : m.configuration.forcesReplace full = false := by
    rw [hempty]
    rfl
  have hpatch : Succeeds (m.patchCollection full patch pm) s (patchType, patchItems) s :=
    patchCollection_iff.2 ⟨hread, rfl⟩
  have hidentified : Succeeds (m.itemsIdentified full ⟨type, fields⟩ om) s
      (m.catalogue itemType).identified s :=
    itemsIdentified_iff.2 ⟨itemType, items, read?_of_target? hderived hom htarget, rfl, rfl⟩
  unfold reconcile
  cases h with
  | assigned _ htakes => cases htakes
  | cleared helements hid =>
    subst helements
    obtain ⟨t, s', hask, hclears, hadvances⟩ :=
      run_clears hvalidator full node patch ⟨type, fields⟩ om items s
    refine ⟨s', hpatch.bind (hidentified.bind ?_), hadvances⟩
    simp only [hforce, hid, htarget, List.isEmpty_nil, Bool.not_false, Bool.or_false,
      Bool.and_self, Bool.and_false]
    exact hask.bind (hclears.bind (.bind .of_pure (.bind .of_pure .of_pure)))
  | reconciled hkept hobjects hinner =>
    have hstray : elements.find? (fun e => !e.value.isObject) = none := by simpa using hobjects
    have hclears : (!(m.catalogue itemType).identified && (elements.isEmpty || false)) = false := by
      cases elements with
      | nil => simp [hkept rfl]
      | cons => simp
    obtain ⟨state, s', hrun, rfl, hadvances⟩ : ∃ state s',
        Succeeds (runElements m ⟨full, om.name, patchType, patchItems, itemType⟩ 0 elements
          ⟨items, []⟩) s state s' ∧ state.items = left ∧ m.Advances s ids changes s' :=
      run_elements hvalidator hempty hobjects hdirectives hinner hissues
    refine ⟨s', ?_, hadvances⟩
    rw [hstray]
    refine hpatch.bind (hidentified.bind ?_)
    simp only [hforce, hclears, htarget]
    refine .bind .of_pure ?_
    split
    · -- there are no elements, so the items stay as they are
      rename_i hignored
      obtain rfl : elements = [] := by simp_all
      rw [runElements, Succeeds.pure_iff] at hrun
      obtain ⟨rfl, rfl⟩ := hrun
      rw [set_eq_self (Node.target?_eq_some.1 htarget).2]
      exact .of_pure
    · exact .bind .of_pure (hrun.bind (.bind .of_pure .of_pure))

/-- What an array does to a member is run. -/
theorem Lands.run_arrayMember (hderived : m.catalogue.Derived) {elements : List Element}
    (hdirectives : ∀ e ∈ elements, m.EffectsRun e.directives)
    (h : m.Lands full (m.arrayAct full elements) [name] (some (.object (some patch)))
      (.object type fields) ids changes (.object type made))
    (hissues : m.Issues s.minted ids) (node : Json) :
    ∃ s', Succeeds (m.arrayMember full node elements
        (fun r state => runElements m r 0 elements state) patch ⟨type, fields⟩ name) s made s' ∧
      m.Advances s ids changes s' := by
  have haction : m.configuration.setAction? full = none := by
    rw [hempty]
    rfl
  unfold arrayMember
  cases h with
  | identity hid =>
    rw [if_pos hid]
    exact ⟨s, .of_pure, .refl m s⟩
  | @field _ _ _ _ _ pm om i old new _ _ hid hpm hom hwrites hslot hplace hkind hrest =>
    have hpair : Succeeds
        (Run.ofExcept (m.memberPair full patch ⟨type, fields⟩ name)) s (pm, om) s :=
      .of_ofExcept (memberPair_eq_ok.2 ⟨hpm, hom⟩)
    have htarget : Node.target? ⟨type, fields⟩ om = some (i, old) :=
      Node.target?_eq_some.2 ⟨hwrites, hslot⟩
    rw [if_neg (by simp [hid rfl])]
    generalize hread : patch.read? pm = view at hrest
    cases hrest with
    | here htakes =>
      cases htakes with
      | @emptied _ leafType oldCell cell helements hcell =>
        refine ⟨_, hpair.bind ?_, (Advances.refl m s).asking_noting
          ⟨full, om.name, node, .updateProperty, some ⟨type, fields⟩, some patch⟩ _⟩
        dsimp only
        rw [if_pos ⟨hkind rfl, by simp [helements], by simp [haction]⟩, clearList]
        refine (succeeds_validate hvalidator s _).bind ?_
        simp only [htarget, hcell]
        exact (Succeeds.of_record _).bind .of_pure
      | assigned helements htakes =>
        have hlands : m.Lands full (Copies full) [name] (some (.object (some patch)))
            (.object type fields) ids changes (.object type (fields.set i new)) :=
          .field hid hpm hom hwrites hslot hplace hkind (hread ▸ .here htakes)
        obtain ⟨s', hrun, hadvances⟩ := hlands.run_assignMember hvalidator hempty node s
        refine ⟨s', hpair.bind ?_, hadvances⟩
        have hclear : ¬ (om.kind = .leaf ∧ elements.isEmpty ∧
            (m.configuration.setAction? full).isNone) := by
          rintro ⟨hleaf, hnone, -⟩
          exact helements ((hkind rfl).symm.trans hleaf) (List.isEmpty_iff.1 hnone)
        have hcollection : om.kind ≠ .collection := by
          rw [hkind rfl]
          cases htakes <;> simp [Slot.kind]
        dsimp only
        rw [if_neg hclear, if_pos hcollection]
        exact hrun
      | cleared helements hidentified =>
        obtain ⟨s', hrun, hadvances⟩ := run_reconcile hvalidator hempty hderived hdirectives hread
          hom htarget (.cleared helements hidentified) hissues node
        refine ⟨s', hpair.bind ?_, hadvances⟩
        simpa [hkind rfl, Slot.kind] using hrun
      | reconciled hkept hobjects hinner =>
        obtain ⟨s', hrun, hadvances⟩ := run_reconcile hvalidator hempty hderived hdirectives hread
          hom htarget (.reconciled hkept hobjects hinner) hissues node
        refine ⟨s', hpair.bind ?_, hadvances⟩
        simpa [hkind rfl, Slot.kind] using hrun

/-- An effect of a directive is run. -/
theorem run_effect (hderived : m.catalogue.Derived) {directive : Directive}
    (hdirectives : ∀ e ∈ directive.arrayElements, m.EffectsRun e.directives)
    (h : m.effect base patch type directive fields ids changes made)
    (hissues : m.Issues s.minted ids) :
    ∃ s', Succeeds (runDirective m base patch ⟨type, fields⟩ directive) s made s' ∧
      m.Advances s ids changes s' := by
  cases directive with
  | scalar path value =>
    rw [runDirective]
    by_cases hid : (path.getLast?).any isIdentityKey = true
    · rw [if_pos hid]
      cases (effect_scalar_of_identity hid).1 h with
      | intro => exact ⟨s, .of_pure, .refl m s⟩
    · rw [if_neg hid]
      have hlands := (effect_scalar (by simpa using hid)).1 h
      refine hlands.run_visit hvalidator ?_ ?_ rfl hissues
      · rintro _ _ _ _ _ _ ⟨⟩
      · exact fun hmember _ => hmember.run_assignMember hvalidator hempty value _
  | array path elements =>
    rw [runDirective]
    refine (effect_array.1 h).run_visit hvalidator ?_ ?_ rfl hissues
    · intro _ _ _ _ _ _ htakes
      cases htakes with
      | assigned _ htakes => cases htakes
    · exact fun hmember hissues =>
        hmember.run_arrayMember hvalidator hempty hderived hdirectives hissues _

/-- Every list of directives succeeds with its effect. -/
theorem effectsRun (hderived : m.catalogue.Derived) (directives : List Directive) :
    m.EffectsRun directives := by
  induction directives using Directive.forall_of_elements with
  | nil =>
    intro base patch type fields made ids changes s h _
    rw [effects] at h
    cases h with
    | intro => exact ⟨s, succeeds_runDirectives_nil.2 ⟨rfl, rfl⟩, .refl m s⟩
  | cons directive directives hdirective ih =>
    intro base patch type fields made ids changes s h hissues
    rw [effects] at h
    cases h with
    | intro hfirst hsecond =>
      obtain ⟨hnow, hlater⟩ := (issues_append ..).1 hissues
      obtain ⟨t, hhead, hadvances⟩ := run_effect hvalidator hempty hderived hdirective hfirst hnow
      rw [← hadvances.minted_eq] at hlater
      obtain ⟨s', htail, hadvances'⟩ := ih hsecond hlater
      exact ⟨s', succeeds_runDirectives_cons.2 ⟨_, t, hhead, htail⟩, hadvances.trans hadvances'⟩

end Completeness

end Merger

end SelectiveMerge
