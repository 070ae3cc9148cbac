import SelectiveMerge.Proofs.Acceptance
import SelectiveMerge.Proofs.Comparison
import SelectiveMerge.Proofs.Table

/-!
# Addressing derived members

The member of a field is looked up under the name that the naming rule or the field's own
option gives it. Two fields may be given one name; the table then finds the first of them
that is shown, whatever the case rule is.

* `StructDeclaration.firstNamed?` — the first shown field with a name
* `StructDeclaration.exists_firstNamed` — it is the field itself if no earlier one has its
  name
* `Item.addressable_derive` — looking up the name of a shown field finds the first shown
  field with that name
-/

namespace SelectiveMerge.Declaration

namespace StructDeclaration

variable {s : StructDeclaration} {rule : NamingRule}

/-- The first of the fields that are shown whose member has a name. -/
def firstNamed? (s : StructDeclaration) (rule : NamingRule) (name : String) :
    Option (FieldDeclaration × Nat) :=
  s.shown.find? (·.1.memberName rule == name)

/-- The numbers of the fields that are shown ascend. -/
theorem pairwise_shown (s : StructDeclaration) : s.shown.Pairwise (·.2 < ·.2) := by
  refine List.Pairwise.filter _ ?_
  have hnumbers : (s.fields.zipIdx.map Prod.snd).Pairwise (· < ·) := by
    rw [List.zipIdx_map_snd]
    exact List.pairwise_lt_range'
  exact List.pairwise_map.1 hnumbers

/-- Some shown field is the first one with the name of a shown field. It is that very
field just when no earlier one has its name. -/
theorem exists_firstNamed {shown : FieldDeclaration × Nat} (h : shown ∈ s.shown) :
    ∃ first, s.firstNamed? rule (shown.1.memberName rule) = some first ∧
      (first = shown ↔ ∀ other ∈ s.shown, other.2 < shown.2 →
        other.1.memberName rule ≠ shown.1.memberName rule) := by
  have hsome : (s.firstNamed? rule (shown.1.memberName rule)).isSome = true := by
    rw [firstNamed?, List.find?_isSome]
    exact ⟨shown, h, beq_self_eq_true _⟩
  obtain ⟨first, hfirst⟩ := Option.isSome_iff_exists.1 hsome
  refine ⟨first, hfirst, ?_⟩
  obtain ⟨hname, earlier, later, hsplit, hearlier⟩ := List.find?_eq_some_iff_append.1 hfirst
  have hascend := s.pairwise_shown
  rw [hsplit, List.pairwise_append, List.pairwise_cons] at hascend
  obtain ⟨-, ⟨hlater, -⟩, -⟩ := hascend
  rw [hsplit] at h ⊢
  constructor
  · rintro rfl other hother hlt
    rcases List.mem_append.1 hother with hother | hother
    · simpa using hearlier other hother
    rcases List.mem_cons.1 hother with rfl | hother
    · omega
    · have := hlater other hother
      omega
  · intro hnone
    by_contra hne
    rcases List.mem_append.1 h with h | h
    · simpa using hearlier shown h
    rcases List.mem_cons.1 h with rfl | h
    · exact hne rfl
    · exact hnone first (by simp) (hlater shown h) (eq_of_beq hname)

end StructDeclaration

/-- The table of a declaration finds the member of the first shown field with a name. -/
theorem Derivation.find?_table {d : Derivation} {s : StructDeclaration} {rule : NamingRule}
    (hmembers : List.Forall₂ (DerivedMember.StandsFor rule) d.members s.shown)
    {name : String} {first : FieldDeclaration × Nat}
    (hfirst : s.firstNamed? rule name = some first) (ignoreCase : Bool) :
    ∃ member, d.table.find? name ignoreCase = some member ∧ member.reads = some first.2 ∧
      member.writes = some first.2 := by
  have hnames : ∀ (m : DerivedMember) shown, m.StandsFor rule shown →
      (m.name == name) = (shown.1.memberName rule == name) := by
    intro m shown hstands
    rw [hstands.name]
  rcases find?_of_forall₂ hnames hmembers with ⟨-, hnone⟩ | ⟨m, found, hm, hfound, hstands⟩
  · have habsent : s.firstNamed? rule name = none := hnone
    rw [hfirst] at habsent
    cases habsent
  obtain rfl : found = first := Option.some_inj.1 (hfound.symm.trans hfirst)
  refine ⟨⟨m.name, m.kind, m.declaredType, some m.field, some m.field⟩,
    MemberTable.find?_of_named ?_ ignoreCase, by rw [hstands.field], by rw [hstands.field]⟩
  simp only [table, MemberTable.ofMembers, List.find?_map, Function.comp_def, hm, Option.map_some]

/-- Under the name of a field that is shown, with either case rule, the table that is
derived finds the member that is read from and written to the first shown field with that
name; that is the field itself just when no earlier one has the name. -/
theorem Item.addressable_derive {item : Item} {d : Derivation} (hd : item.derive = .ok d) :
    ∃ s rule, item.Declares s ∧ s.rule? = .ok rule ∧
      ∀ shown ∈ s.shown, ∃ first,
        s.firstNamed? rule (shown.1.memberName rule) = some first ∧
        (first = shown ↔ ∀ other ∈ s.shown, other.2 < shown.2 →
          other.1.memberName rule ≠ shown.1.memberName rule) ∧
        ∀ ignoreCase, ∃ member,
          d.table.find? (shown.1.memberName rule) ignoreCase = some member ∧
          member.reads = some first.2 ∧ member.writes = some first.2 := by
  obtain ⟨s, hs, hderived⟩ := Item.derive_eq_ok.1 hd
  obtain ⟨haccepted, rule, hrule, rfl⟩ := StructDeclaration.derive_eq_ok.1 hderived
  refine ⟨s, rule, hs, hrule, fun shown hshown => ?_⟩
  obtain ⟨first, hfirst, hself⟩ := StructDeclaration.exists_firstNamed hshown
  exact ⟨first, hfirst, hself, Derivation.find?_table
    (StructDeclaration.membersFrom_standFor haccepted.shapes) hfirst⟩

theorem addressable_derive_person :
    Sample.person.derive = .ok Sample.personTable ∧
      ∃ s rule, Sample.person.Declares s ∧ s.rule? = .ok rule ∧
        ∀ shown ∈ s.shown, ∃ first,
          s.firstNamed? rule (shown.1.memberName rule) = some first ∧
          (first = shown ↔ ∀ other ∈ s.shown, other.2 < shown.2 →
            other.1.memberName rule ≠ shown.1.memberName rule) ∧
          ∀ ignoreCase, ∃ member,
            Sample.personTable.table.find? (shown.1.memberName rule) ignoreCase = some member ∧
            member.reads = some first.2 ∧ member.writes = some first.2 := by
  have hderived : Sample.person.derive = .ok Sample.personTable := rfl
  exact ⟨hderived, Item.addressable_derive hderived⟩

namespace Sample

/-- An item whose two fields are given one name. -/
def twins : Item where
  attributes := []
  name := "Twins"
  parameterized := false
  body := .named
    [⟨[options [.ident "rename", .punct '=' false, .literal (.text "same") "same"]], "same_one",
        typeOf "i64" []⟩,
      ⟨[options [.ident "rename", .punct '=' false, .literal (.text "same") "same"]], "same_two",
        typeOf "i64" []⟩]

/-- What it declares. -/
def twinFields : StructDeclaration where
  name := "Twins"
  parameterized := false
  renameAll := none
  noDefault := false
  identified := false
  fields :=
    [⟨"same_one", typeOf "i64" [], some "same", false, false, false⟩,
      ⟨"same_two", typeOf "i64" [], some "same", false, false, false⟩]

end Sample

/-- The second of the two fields is shown, but its name leads to the first one. -/
theorem second_twin_not_found :
    Sample.twins.Declares Sample.twinFields ∧ Sample.twinFields.rule? = .ok .keep ∧
      ∃ d, Sample.twins.derive = .ok d ∧ ∃ shown ∈ Sample.twinFields.shown, ∀ ignoreCase,
        ∃ member, d.table.find? (shown.1.memberName .keep) ignoreCase = some member ∧
          member.reads ≠ some shown.2 ∧ member.writes ≠ some shown.2 := by
  refine ⟨StructDeclaration.ofItem_eq_ok.1 rfl, rfl, Sample.twinFields.derivation .keep, rfl,
    (⟨"same_two", Sample.typeOf "i64" [], some "same", false, false, false⟩, 1), ?_, ?_⟩
  · exact List.mem_cons_of_mem _ List.mem_cons_self
  · intro ignoreCase
    refine ⟨_, MemberTable.find?_of_named rfl ignoreCase, ?_, ?_⟩ <;> simp

end SelectiveMerge.Declaration
