import SelectiveMerge.Merge.Assignment
import SelectiveMerge.Sample.Catalogue

/-!
# Member tables

Names are looked up through two indexes, and found as if the members were gone through in
their order. The table that is derived from the declaration of a type has members that are
read from and written to one field each. What such a member shows is what is written.

* `NameIndex.getElem?_enter` — a name goes to the first place that it was entered for
* `MemberTable.lookup_ofMembers` — looking up a name finds what a scan of the members finds
* `MemberTable.foldCase_of_find?` — members are found under their names
* `Catalogue.Derived` — all types have such tables
* `Merger.read?_of_target?` — a member of such a table shows what is in its field
* `Merger.collection_of_target?` — which collection it shows
* `Plan.derived_members` — tables that are laid out by plans are such tables
-/

namespace SelectiveMerge

/-- A member that is found in a table is one of its members. -/
theorem MemberTable.mem_of_find? {t : MemberTable} {name : String} {ignoreCase : Bool}
    {member : Member} (h : t.find? name ignoreCase = some member) : member ∈ t.members := by
  unfold MemberTable.find? at h
  obtain ⟨position, -, hmember⟩ := Option.bind_eq_some_iff.1 h
  exact List.mem_of_getElem? hmember

/-- A name has the position that it had before, or that of its first place among the names
that are entered. -/
theorem NameIndex.getElem?_enter (index : NameIndex) (start : Nat) (names : List String)
    (key : String) :
    (NameIndex.enter index start names)[key]? =
      index[key]?.or ((names.findIdx? (· == key)).map (start + ·)) := by
  induction names generalizing index start with
  | nil => simp [enter]
  | cons name names ih =>
    rw [enter, ih, Std.TreeMap.getElem?_insertIfNew, List.findIdx?_cons]
    by_cases hname : name = key
    · subst hname
      by_cases hmem : name ∈ index <;> simp [hmem]
    · simp [hname, Function.comp_def, Nat.add_assoc, Nat.add_comm 1]

/-! ## Looking up a name -/

namespace MemberTable

variable {t : MemberTable} {name : String} {ignoreCase : Bool} {member : Member}

/-- A name has the position of the first member that has exactly this name, or else, if the
case does not count, of the first one that has it in some case. -/
theorem position?_eq_scan (t : MemberTable) (name : String) (ignoreCase : Bool) :
    t.position? name ignoreCase =
      (t.members.findIdx? (·.name == name)).or
        (if ignoreCase then t.members.findIdx? (Text.eqIgnoreCase ·.name name) else none) := by
  have hexact : t.exact[name]? = t.members.findIdx? (·.name == name) := by
    rw [t.exact_eq, NameIndex.getElem?_enter, List.findIdx?_map]
    simp [Function.comp_def]
  have hfolded : t.folded[Text.foldCase name]? =
      t.members.findIdx? (Text.eqIgnoreCase ·.name name) := by
    rw [t.folded_eq, NameIndex.getElem?_enter, List.findIdx?_map]
    simp [Function.comp_def, Text.eqIgnoreCase]
  rw [position?, hexact, hfolded]
  cases t.members.findIdx? (·.name == name) with
  | some position => rfl
  | none => rfl

/-- The member of a name is the first one that has exactly this name, or else, if the case
does not count, the first one that has it in some case. -/
theorem find?_eq_scan (t : MemberTable) (name : String) (ignoreCase : Bool) :
    t.find? name ignoreCase =
      (t.members.find? (·.name == name)).or
        (if ignoreCase then t.members.find? (Text.eqIgnoreCase ·.name name) else none) := by
  rw [find?, position?_eq_scan, List.find?_eq_bind_findIdx?_getElem?,
    List.find?_eq_bind_findIdx?_getElem?]
  cases hexact : t.members.findIdx? (·.name == name) with
  | some position =>
    obtain ⟨hposition, -⟩ := List.findIdx?_eq_some_iff_getElem.1 hexact
    simp [hposition]
  | none => cases ignoreCase <;> rfl

/-- The first member that has exactly a name is found under it. -/
theorem find?_of_named (h : t.members.find? (·.name == name) = some member)
    (ignoreCase : Bool) : t.find? name ignoreCase = some member := by
  rw [find?_eq_scan, h, Option.some_or]

/-- A member is found under its name, at most in other case. -/
theorem foldCase_of_find? (h : t.find? name ignoreCase = some member) :
    Text.foldCase member.name = Text.foldCase name := by
  rw [find?_eq_scan, Option.or_eq_some_iff] at h
  rcases h with hexact | ⟨-, hfolded⟩
  · have hname : member.name = name := by simpa using List.find?_some hexact
    rw [hname]
  · split at hfolded
    · have hname : Text.eqIgnoreCase member.name name = true := by
        simpa using List.find?_some hfolded
      exact Text.eqIgnoreCase_iff.1 hname
    · cases hfolded

/-- Looking up a name in the table of a list of members, through its two indexes, comes to a
scan of the list: the first member that has exactly this name, or else, if the case does not
count, the first one that has it in some case. -/
theorem lookup_ofMembers (members : List Member) (name : String) (ignoreCase : Bool) :
    (ofMembers members).position? name ignoreCase =
        (members.findIdx? (·.name == name)).or
          (if ignoreCase then members.findIdx? (Text.eqIgnoreCase ·.name name) else none) ∧
      (ofMembers members).find? name ignoreCase =
        (members.find? (·.name == name)).or
          (if ignoreCase then members.find? (Text.eqIgnoreCase ·.name name) else none) :=
  ⟨position?_eq_scan (ofMembers members) name ignoreCase,
    find?_eq_scan (ofMembers members) name ignoreCase⟩

end MemberTable

/-! ## Derived tables -/

/-- The members are read from and written to one field each. -/
def Member.Derived (members : List Member) : Prop :=
  ∀ member ∈ members, ∃ i, member.reads = some i ∧ member.writes = some i

/-- The tables of all types are as they are derived from declarations. -/
def Catalogue.Derived (c : Catalogue) : Prop := ∀ type, Member.Derived (c type).table.members

theorem Plan.derived_members (start : Nat) (plans : List Plan) :
    Member.Derived (Plan.members start plans) := by
  induction plans generalizing start with
  | nil => simp [Plan.members, Member.Derived]
  | cons plan plans ih =>
    rw [Plan.members]
    split
    · intro member hmember
      rcases List.mem_cons.1 hmember with rfl | hmember
      · exact ⟨start, rfl, rfl⟩
      · exact ih (start + 1) member hmember
    · exact ih (start + 1)

/-- The slot that a member is written to is the content of its field. -/
theorem Node.target?_eq_some {n : Node} {member : Member} {i : Nat} {slot : Slot} :
    n.target? member = some (i, slot) ↔ member.writes = some i ∧ n.fields[i]? = some slot := by
  unfold Node.target?
  constructor
  · intro h
    obtain ⟨j, hwrites, hslot⟩ := Option.bind_eq_some_iff.1 h
    obtain ⟨content, hcontent, heq⟩ := Option.map_eq_some_iff.1 hslot
    obtain ⟨rfl, rfl⟩ := Prod.ext_iff.1 heq
    exact ⟨hwrites, hcontent⟩
  · rintro ⟨hwrites, hcontent⟩
    simp [hwrites, hcontent]

/-- What a member shows is the content of the field that it is read from. -/
theorem Node.read?_eq_some {n : Node} {member : Member} {view : View} :
    n.read? member = some view ↔
      ∃ i slot, member.reads = some i ∧ n.fields[i]? = some slot ∧ slot.view = view := by
  unfold Node.read?
  constructor
  · intro h
    obtain ⟨slot, hslot, hview⟩ := Option.map_eq_some_iff.1 h
    obtain ⟨i, hreads, hcontent⟩ := Option.bind_eq_some_iff.1 hslot
    exact ⟨i, slot, hreads, hcontent, hview⟩
  · rintro ⟨i, slot, hreads, hcontent, rfl⟩
    simp [hreads, hcontent]

namespace Merger

variable {m : Merger}

/-- A member that is read from the field it is written to shows what is there. -/
theorem read?_of_target? (hderived : m.catalogue.Derived) {n : Node} {name : String}
    {member : Member} (hmember : m.member? n name = some member) {i : Nat} {slot : Slot}
    (htarget : n.target? member = some (i, slot)) : n.read? member = some slot.view := by
  obtain ⟨hwrites, hslot⟩ := Node.target?_eq_some.1 htarget
  obtain ⟨j, hreads, hwrites'⟩ := hderived n.type member (MemberTable.mem_of_find? hmember)
  obtain rfl : j = i := Option.some_inj.1 (hwrites'.symm.trans hwrites)
  simp [Node.read?, hreads, hslot]

/-- A collection that such a member shows is the one that it is written to. -/
theorem collection_of_target? (hderived : m.catalogue.Derived) {n : Node} {name : String}
    {member : Member} (hmember : m.member? n name = some member) {i : Nat}
    {type readType : TypeName} {items readItems : List Fields}
    (htarget : n.target? member = some (i, .collection type items))
    (hread : n.read? member = some (.collection readType readItems)) :
    type = readType ∧ items = readItems := by
  have hshown := read?_of_target? hderived hmember htarget
  simpa [Slot.view] using hshown.symm.trans hread

end Merger

end SelectiveMerge
