import Mathlib.Data.String.Basic
import SelectiveMerge.Proofs.Effects

/-!
# Effects that can be exchanged

Two effects whose keys lead past each other can be done in either order: the fields are the
same in the end, the changes are the same, and as many identities are taken up, each perhaps
by another object. So a list of directives that lead past each other has one effect in all
orders.

* `Effect.Reorders` — one effect can stand for another one, up to the order in which
  identities are taken up and changes are recorded
* `Merger.Apart` — keys that lead past each other
* `Merger.Exchanges` — what is done behind some keys can be exchanged with what follows it
* `Merger.Lands.exchange` — what is done behind such keys can be done in either order
* `Merger.effects_perm` — directives with such keys can be done in any order
-/

namespace SelectiveMerge

/-! ## Effects up to order -/

namespace Effect

variable {α : Type} {x x' y y' z : Effect α}

theorem idle_then (x : Effect α) : Then Idle x = x := by
  funext a ids changes b
  refine propext ⟨?_, fun h => Then.intro Idle.intro h⟩
  rintro ⟨⟨⟩, h⟩
  exact h

theorem then_assoc (x y z : Effect α) : Then (Then x y) z = Then x (Then y z) := by
  funext a ids changes b
  refine propext ⟨?_, ?_⟩
  · rintro ⟨⟨hx, hy⟩, hz⟩
    rw [List.append_assoc, List.append_assoc]
    exact .intro hx (.intro hy hz)
  · rintro ⟨hx, hy, hz⟩
    rw [← List.append_assoc, ← List.append_assoc]
    exact .intro (.intro hx hy) hz

/-- What one effect does another one does as well, with the same identities and changes in
some order. -/
def Reorders (x y : Effect α) : Prop :=
  ∀ ⦃a : α⦄ ⦃ids : List Uuid⦄ ⦃changes : List Change⦄ ⦃b : α⦄, x a ids changes b →
    ∃ ids' changes', ids'.Perm ids ∧ changes'.Perm changes ∧ y a ids' changes' b

namespace Reorders

theorem refl (x : Effect α) : Reorders x x :=
  fun _ ids changes _ h => ⟨ids, changes, .refl _, .refl _, h⟩

theorem trans (h : Reorders x y) (h' : Reorders y z) : Reorders x z := by
  intro a ids changes b hx
  obtain ⟨ids', changes', hids, hchanges, hy⟩ := h hx
  obtain ⟨ids'', changes'', hids', hchanges', hz⟩ := h' hy
  exact ⟨ids'', changes'', hids'.trans hids, hchanges'.trans hchanges, hz⟩

theorem seq (hx : Reorders x x') (hy : Reorders y y') : Reorders (Then x y) (Then x' y') := by
  rintro a _ _ c ⟨hfirst, hsecond⟩
  obtain ⟨ids, changes, hids, hchanges, hfirst'⟩ := hx hfirst
  obtain ⟨later, more, hlater, hmore, hsecond'⟩ := hy hsecond
  exact ⟨_, _, hids.append hlater, hchanges.append hmore, .intro hfirst' hsecond'⟩

/-- What can be exchanged can be exchanged in front of something else. -/
theorem exchange (h : Reorders (Then x y) (Then y x)) :
    Reorders (Then x (Then y z)) (Then y (Then x z)) := by
  rw [← then_assoc, ← then_assoc]
  exact h.seq (.refl z)

end Reorders

end Effect

/-! ## Entries of a dictionary -/

namespace Dictionary

variable {α : Type} {key other : String} {value content : α}

theorem replace_comm (h : key ≠ other) (entries : List (String × α)) :
    replace key value (replace other content entries) =
      replace other content (replace key value entries) := by
  induction entries with
  | nil => rfl
  | cons entry rest ih =>
    obtain ⟨k, v⟩ := entry
    by_cases hkey : k = key
    · subst hkey
      simp [replace, h]
    · by_cases hother : k = other
      · subst hother
        simp [replace, h.symm]
      · simp [replace, hkey, hother, ih]

theorem place_replace (h : key ≠ other) (entries : List (String × α)) :
    place key value (replace other content entries) =
      replace other content (place key value entries) := by
  induction entries with
  | nil => simp [replace, place, h]
  | cons entry rest ih =>
    obtain ⟨k, v⟩ := entry
    by_cases hother : k = other
    · subst hother
      by_cases hlt : key < k <;> simp [replace, place, hlt, h]
    · by_cases hlt : key < k <;> simp [replace, place, hlt, h, hother, ih]

theorem place_comm (h : key ≠ other) (entries : List (String × α)) :
    place key value (place other content entries) =
      place other content (place key value entries) := by
  induction entries with
  | nil =>
    rcases lt_or_gt_of_ne h with hlt | hlt
    · simp [place, hlt, lt_asymm hlt]
    · simp [place, hlt, lt_asymm hlt]
  | cons entry rest ih =>
    obtain ⟨k, v⟩ := entry
    by_cases hkey : key < k <;> by_cases hother : other < k
    · rcases lt_or_gt_of_ne h with hlt | hlt
      · simp [place, hkey, hother, hlt, lt_asymm hlt]
      · simp [place, hkey, hother, hlt, lt_asymm hlt]
    · have hlt : ¬ other < key := fun hlt => hother (lt_trans hlt hkey)
      simp [place, hkey, hother, hlt]
    · have hlt : ¬ key < other := fun hlt => hkey (lt_trans hlt hother)
      simp [place, hkey, hother, hlt]
    · simp [place, hkey, hother, ih]

/-- Two entries may be put in either order. -/
theorem insert_comm (h : key ≠ other) (entries : List (String × α)) :
    insert key value (insert other content entries) =
      insert other content (insert key value entries) := by
  have hkey : find? key (insert other content entries) = find? key entries :=
    find?_insert_of_ne h _ _
  have hother : find? other (insert key value entries) = find? other entries :=
    find?_insert_of_ne h.symm _ _
  -- each key is replaced or placed as it would be without the other one
  have hfirst : insert key value (insert other content entries) =
      if (find? key entries).isSome then replace key value (insert other content entries)
      else place key value (insert other content entries) := by
    rw [← hkey]
    rfl
  have hsecond : insert other content (insert key value entries) =
      if (find? other entries).isSome then replace other content (insert key value entries)
      else place other content (insert key value entries) := by
    rw [← hother]
    rfl
  rw [hfirst, hsecond]
  unfold insert
  split <;> split
  · exact replace_comm h entries
  · exact (place_replace h.symm entries).symm
  · exact place_replace h entries
  · exact place_comm h entries

theorem replace_replace (entries : List (String × α)) :
    replace key value (replace key content entries) = replace key value entries := by
  induction entries with
  | nil => rfl
  | cons entry rest ih =>
    by_cases hkey : entry.1 = key <;> simp [replace, hkey, ih]

theorem replace_place {entries : List (String × α)} (h : find? key entries = none) :
    replace key value (place key content entries) = place key value entries := by
  induction entries with
  | nil => simp [replace, place]
  | cons entry rest ih =>
    obtain ⟨k, v⟩ := entry
    rw [find?_cons] at h
    split at h
    · cases h
    · rename_i hne
      by_cases hlt : key < k <;> simp [replace, place, hlt, hne, ih h]

/-- Of two values that are put at one key the later one stays. -/
theorem insert_insert (entries : List (String × α)) :
    insert key value (insert key content entries) = insert key value entries := by
  have hfound : (find? key (insert key content entries)).isSome = true := by
    rw [find?_insert_self]
    rfl
  rw [insert, if_pos hfound]
  unfold insert
  split
  · exact replace_replace entries
  · rename_i hnone
    exact replace_place (by simpa using hnone)

end Dictionary

namespace Merger

/-! ## Keys that lead past each other -/

/-- Two lists of keys part at keys that denote different members, or different entries. -/
def Apart (m : Merger) : Place → List String → List String → Prop
  | place, key :: rest, other :: rest' =>
      key = other ∧ Apart m (m.under place key) rest rest' ∨
        key ≠ other ∧ ∀ type i, place = .owner type →
          m.number? Member.writes type key = some i → m.number? Member.writes type other ≠ some i
  | _, [], _ => False
  | _, _ :: _, [] => False

variable {m : Merger} {full full' : Path} {act act' : Act} {place : Place}
  {key other : String} {keys keys' rest rest' : List String} {view : Option View}
  {old mid new : Slot} {ids later : List Uuid} {changes more : List Change}

theorem not_apart_nil_left : ¬ m.Apart place [] keys := by
  rw [Apart]
  exact not_false

theorem not_apart_nil_right : ¬ m.Apart place keys [] := by
  cases keys <;> rw [Apart] <;> exact not_false

theorem apart_cons_iff :
    m.Apart place (key :: rest) (other :: rest') ↔
      key = other ∧ m.Apart (m.under place key) rest rest' ∨
        key ≠ other ∧ ∀ type i, place = .owner type →
          m.number? Member.writes type key = some i →
          m.number? Member.writes type other ≠ some i := by
  rw [Apart]

theorem Apart.symm (h : m.Apart place keys keys') : m.Apart place keys' keys := by
  induction keys generalizing place keys' with
  | nil => exact (not_apart_nil_left h).elim
  | cons key rest ih =>
    cases keys' with
    | nil => exact (not_apart_nil_right h).elim
    | cons other rest' =>
      rcases apart_cons_iff.1 h with ⟨rfl, hrest⟩ | ⟨hne, hfields⟩
      · exact apart_cons_iff.2 (.inl ⟨rfl, ih hrest⟩)
      · refine apart_cons_iff.2 (.inr ⟨hne.symm, fun type i hplace hother hkey => ?_⟩)
        exact hfields type i hplace hkey hother

/-! ## Exchange -/

/-- What keys lead to is changed within its declaration. -/
theorem Lands.place_eq (h : m.Lands full act (key :: rest) view old ids changes new) :
    new.place = old.place := by
  cases h <;> rfl

section

variable {name : String} {patch : Node} {pm om : Member} {i : Nat} {type patchType : TypeName}
  {fields made p between : Fields} {inner middle last : Slot}
  {entries left : List (String × Fields)} {patchEntries : List (String × Fields)}
  {next next' : String} {fresh : List Uuid}

/-- What is done behind the key of a field leaves the other fields alone, and does not depend
on them. -/
theorem Lands.beside_field (hother : m.number? Member.writes type name ≠ some i)
    (h : m.Lands full act (name :: rest) (some (.object (some patch))) (.object type fields) ids
      changes (.object type made)) (slot : Slot) :
    made[i]? = fields[i]? ∧
      m.Lands full act (name :: rest) (some (.object (some patch)))
        (.object type (fields.set i slot)) ids changes (.object type (made.set i slot)) := by
  cases h with
  | identity hid => exact ⟨rfl, .identity hid⟩
  | @field _ _ _ _ _ _ om j _ _ _ _ hid hpm hom hwrites hslot hplace hkind hrest =>
    have hne : j ≠ i := by
      rintro rfl
      exact hother (Option.bind_eq_some_iff.2 ⟨om, hom, hwrites⟩)
    refine ⟨List.getElem?_set_ne hne, ?_⟩
    rw [List.set_comm _ _ hne]
    exact .field hid hpm hom hwrites (by rwa [List.getElem?_set_ne hne.symm]) hplace hkind hrest

/-- What is done behind one key of a dictionary leaves the entries at other keys alone, and
does not depend on them. -/
theorem Lands.beside_entry (hne : key ≠ other)
    (h : m.Lands full act (key :: rest) view (.dictionary type entries) ids changes
      (.dictionary type left)) (entry : Fields) :
    Dictionary.find? other left = Dictionary.find? other entries ∧
      m.Lands full act (key :: rest) view
        (.dictionary type (Dictionary.insert other entry entries)) ids changes
        (.dictionary type (Dictionary.insert other entry left)) := by
  cases h with
  | entry hpatch hprovides hrest =>
    refine ⟨Dictionary.find?_insert_of_ne hne.symm _ _, ?_⟩
    rw [← Dictionary.insert_comm hne]
    exact .entry hpatch (by rwa [Dictionary.find?_insert_of_ne hne]) hrest

/-- A field that is changed twice, behind further keys. -/
theorem Lands.twice_field (hpm : m.member? patch name = some pm)
    (hom : m.member? ⟨type, fields⟩ name = some om) (hwrites : om.writes = some i)
    (hslot : fields[i]? = some inner) (hplace : m.under (.owner type) name = inner.place)
    (h : m.Lands full act (key :: rest) (patch.read? pm) inner ids changes middle)
    (h' : m.Lands full' act' (other :: rest') (patch.read? pm) middle later more last) :
    m.Lands full act (name :: key :: rest) (some (.object (some patch))) (.object type fields)
        ids changes (.object type (fields.set i middle)) ∧
      m.Lands full' act' (name :: other :: rest') (some (.object (some patch)))
        (.object type (fields.set i middle)) later more (.object type (fields.set i last)) := by
  obtain ⟨hi, -⟩ := List.getElem?_eq_some_iff.1 hslot
  have hsecond : m.Lands full' act' (name :: other :: rest') (some (.object (some patch)))
      (.object type (fields.set i middle)) later more
      (.object type ((fields.set i middle).set i last)) :=
    .field (by simp) hpm hom hwrites (List.getElem?_set_self hi)
      (hplace.trans h.place_eq.symm) (by simp) h'
  rw [List.set_set] at hsecond
  exact ⟨.field (by simp) hpm hom hwrites hslot hplace (by simp) h, hsecond⟩

/-- An entry that is changed twice. It is there the second time. -/
theorem Lands.twice_entry (hpatch : Dictionary.find? key patchEntries = some p)
    (hprovides : m.Provides type (Dictionary.find? key entries) fresh fields)
    (h : m.Lands full act (next :: rest) (some (.object (some ⟨patchType, p⟩)))
      (.object type fields) ids changes (.object type between))
    (h' : m.Lands full' act' (next' :: rest') (some (.object (some ⟨patchType, p⟩)))
      (.object type between) later more (.object type made)) :
    m.Lands full act (key :: next :: rest) (some (.dictionary patchType patchEntries))
        (.dictionary type entries) (fresh ++ ids) changes
        (.dictionary type (Dictionary.insert key between entries)) ∧
      m.Lands full' act' (key :: next' :: rest') (some (.dictionary patchType patchEntries))
        (.dictionary type (Dictionary.insert key between entries)) later more
        (.dictionary type (Dictionary.insert key made entries)) := by
  have hfound : m.Provides type
      (Dictionary.find? key (Dictionary.insert key between entries)) [] between := by
    rw [Dictionary.find?_insert_self]
    exact .found
  have hsecond := Lands.entry hpatch hfound h'
  rw [Dictionary.insert_insert, List.nil_append] at hsecond
  exact ⟨.entry hpatch hprovides h, hsecond⟩

/-- What is done behind some keys can be exchanged with what is done after it behind keys that
lie past them. -/
def Exchanges (m : Merger) (full full' : Path) (act act' : Act) (keys : List String)
    (view : Option View) (old : Slot) (ids : List Uuid) (changes : List Change) (mid : Slot) :
    Prop :=
  ∀ {keys' : List String} {later : List Uuid} {more : List Change} {new : Slot},
    m.Apart old.place keys keys' → m.Lands full' act' keys' view mid later more new →
    ∃ between ids' later', m.Lands full' act' keys' view old later' more between ∧
      m.Lands full act keys view between ids' changes new ∧
      (later' ++ ids').Perm (ids ++ later)

/-- At an identity nothing is done. -/
theorem exchanges_identity (hid : isIdentityKey name = true) :
    m.Exchanges full full' act act' [name] (some (.object (some patch))) (.object type fields)
      [] [] (.object type fields) := by
  intro keys' later more new hapart h'
  cases h' with
  | here => exact (not_apart_nil_right hapart).elim
  | identity hid' => exact ⟨_, _, _, .identity hid', .identity hid, .refl _⟩
  | field hid' hpm' hom' hwrites' hslot' hplace' hkind' hrest' =>
    exact ⟨_, _, _, .field hid' hpm' hom' hwrites' hslot' hplace' hkind' hrest',
      .identity hid, by simp⟩

/-- In an object two keys go to one field, in which they part further on, or to two fields. -/
theorem Lands.exchanges_field (hid : rest = [] → isIdentityKey name = false)
    (hpm : m.member? patch name = some pm) (hom : m.member? ⟨type, fields⟩ name = some om)
    (hwrites : om.writes = some i) (hslot : fields[i]? = some inner)
    (hplace : m.under (.owner type) name = inner.place) (hkind : rest = [] → om.kind = inner.kind)
    (hrest : m.Lands full act rest (patch.read? pm) inner ids changes middle)
    (ih : m.Exchanges full full' act act' rest (patch.read? pm) inner ids changes middle) :
    m.Exchanges full full' act act' (name :: rest) (some (.object (some patch)))
      (.object type fields) ids changes (.object type (fields.set i middle)) := by
  intro keys' later more new hapart h'
  have hfirst := Lands.field hid hpm hom hwrites hslot hplace hkind hrest
  cases h' with
  | here => exact (not_apart_nil_right hapart).elim
  | identity hid' => exact ⟨_, _, _, .identity hid', hfirst, by simp⟩
  | @field name' rest' _ _ _ pm' om' j _ made' _ _ hid' hpm' hom' hwrites' hslot' hplace'
      hkind' hrest' =>
    rcases apart_cons_iff.1 hapart with ⟨rfl, hinner⟩ | ⟨-, hfields⟩
    · obtain ⟨hi, -⟩ := List.getElem?_eq_some_iff.1 hslot
      obtain rfl := Option.some_inj.1 (hpm.symm.trans hpm')
      obtain rfl : om = om' := Option.some_inj.1 (hom.symm.trans hom')
      obtain rfl := Option.some_inj.1 (hwrites.symm.trans hwrites')
      rw [List.getElem?_set_self hi] at hslot'
      obtain rfl := Option.some_inj.1 hslot'
      change m.Apart (m.under (.owner type) name) rest rest' at hinner
      rw [hplace] at hinner
      obtain ⟨between, ids', later', hlands', hlands, hperm⟩ := ih hinner hrest'
      rw [List.set_set]
      cases rest with
      | nil => exact (not_apart_nil_left hinner).elim
      | cons key rest =>
        cases rest' with
        | nil => exact (not_apart_nil_right hinner).elim
        | cons key' rest' =>
          obtain ⟨hsecond', hfirst'⟩ :=
            Lands.twice_field hpm hom hwrites hslot hplace hlands' hlands
          exact ⟨_, ids', later', hsecond', hfirst', hperm⟩
    · have hother : m.number? Member.writes type name ≠ some j := fun hname =>
        hfields type j rfl hname (Option.bind_eq_some_iff.2 ⟨om', hom', hwrites'⟩)
      obtain ⟨hsame, hfirst'⟩ := hfirst.beside_field hother made'
      exact ⟨_, _, _, .field hid' hpm' hom' hwrites' (hsame ▸ hslot') hplace' hkind' hrest',
        hfirst', List.perm_append_comm⟩

/-- An optional object that was made for the first one is there for the second one. -/
theorem exchanges_optional {present : Option Fields}
    (hprovides : m.Provides type present fresh fields)
    (ih : m.Exchanges full full' act act' (key :: rest) (some (.object (some patch)))
      (.object type fields) ids changes (.object type made)) :
    m.Exchanges full full' act act' (key :: rest) (some (.object (some patch)))
      (.optional type present) (fresh ++ ids) changes (.optional type (some made)) := by
  intro keys' later more new hapart h'
  cases h' with
  | here => exact (not_apart_nil_right hapart).elim
  | optional hprovides' hrest' =>
    cases hprovides' with
    | found =>
      obtain ⟨between, ids', later', hlands', hlands, hperm⟩ := ih hapart hrest'
      obtain ⟨_, b, -, rfl⟩ := hlands'.of_object
      refine ⟨_, _, _, .optional hprovides hlands', .optional .found hlands, ?_⟩
      simpa [List.append_assoc] using hperm.append_left fresh

/-- In a dictionary two keys go to one entry, which is there for the second one, or to two
entries. -/
theorem Lands.exchanges_entry (hpatch : Dictionary.find? key patchEntries = some p)
    (hprovides : m.Provides type (Dictionary.find? key entries) fresh fields)
    (hrest : m.Lands full act (next :: rest) (some (.object (some ⟨patchType, p⟩)))
      (.object type fields) ids changes (.object type made))
    (ih : m.Exchanges full full' act act' (next :: rest) (some (.object (some ⟨patchType, p⟩)))
      (.object type fields) ids changes (.object type made)) :
    m.Exchanges full full' act act' (key :: next :: rest)
      (some (.dictionary patchType patchEntries)) (.dictionary type entries) (fresh ++ ids)
      changes (.dictionary type (Dictionary.insert key made entries)) := by
  intro keys' later more new hapart h'
  cases h' with
  | here => exact (not_apart_nil_right hapart).elim
  | @entry key' next' rest' _ _ _ _ p' fields' made' fresh' later _ hpatch' hprovides' hrest' =>
    rcases apart_cons_iff.1 hapart with ⟨rfl, hinner⟩ | ⟨hne, -⟩
    · obtain rfl := Option.some_inj.1 (hpatch.symm.trans hpatch')
      rw [Dictionary.find?_insert_self] at hprovides'
      cases hprovides' with
      | found =>
        obtain ⟨between, ids', later', hlands', hlands, hperm⟩ := ih hinner hrest'
        obtain ⟨_, b, -, rfl⟩ := hlands'.of_object
        obtain ⟨hsecond', hfirst'⟩ := Lands.twice_entry hpatch hprovides hlands' hlands
        rw [Dictionary.insert_insert]
        refine ⟨_, _, _, hsecond', hfirst', ?_⟩
        simpa [List.append_assoc] using hperm.append_left fresh
    · obtain ⟨hsame, hfirst'⟩ := (Lands.entry hpatch hprovides hrest).beside_entry hne made'
      exact ⟨_, _, _, .entry hpatch' (hsame ▸ hprovides') hrest', hfirst',
        List.perm_append_comm⟩

/-- Two keys of a dictionary of leaves that part are two keys. -/
theorem exchanges_cell {patchType type : LeafType} {patchEntries entries : List (String × Cell)}
    {source cell : Cell} {value : Json} (hsource : Dictionary.find? key patchEntries = some source)
    (hencode : source.encode = .ok value) (hcoerce : Coercion.coerce? type value = some cell) :
    m.Exchanges full full' act act' [key] (some (.leafDictionary patchType patchEntries))
      (.leafDictionary type entries) [] [⟨full, .updated, none⟩]
      (.leafDictionary type (Dictionary.insert key cell entries)) := by
  intro keys' later more new hapart h'
  cases h' with
  | here => exact (not_apart_nil_right hapart).elim
  | @cell key' _ _ _ _ source' cell' value' hsource' hencode' hcoerce' =>
    rcases apart_cons_iff.1 hapart with ⟨-, hinner⟩ | ⟨hne, -⟩
    · exact (not_apart_nil_left hinner).elim
    · rw [← Dictionary.insert_comm hne]
      exact ⟨_, _, _, .cell hsource' hencode' hcoerce', .cell hsource hencode hcoerce, by simp⟩

end

/-- What is done in two places that lie past each other can be done in either order. -/
theorem Lands.exchange (h : m.Lands full act keys view old ids changes mid) :
    m.Exchanges full full' act act' keys view old ids changes mid := by
  induction h with
  | here => exact fun hapart _ => (not_apart_nil_left hapart).elim
  | identity hid => exact exchanges_identity hid
  | field hid hpm hom hwrites hslot hplace hkind hrest ih =>
    exact hrest.exchanges_field hid hpm hom hwrites hslot hplace hkind ih
  | optional hprovides _ ih => exact exchanges_optional hprovides ih
  | entry hpatch hprovides hrest ih => exact hrest.exchanges_entry hpatch hprovides ih
  | cell hsource hencode hcoerce => exact exchanges_cell hsource hencode hcoerce

/-! ## Directives -/

variable {base : List String} {patch : Node} {type : TypeName} {d d' : Directive}
  {ds ds' : List Directive}

/-- A directive either does nothing or does something where its path leads to. -/
theorem effect_cases (m : Merger) (base : List String) (patch : Node) (type : TypeName)
    (d : Directive) :
    m.effect base patch type d = Effect.Idle ∨
      ∃ full act, m.effect base patch type d = fun fields ids changes made =>
        m.Lands full act d.path (some (.object (some patch))) (.object type fields) ids changes
          (.object type made) := by
  cases d with
  | scalar path value =>
    cases hid : (path.getLast?).any isIdentityKey with
    | true =>
      refine .inl ?_
      funext fields ids changes made
      exact propext (effect_scalar_of_identity hid)
    | false =>
      refine .inr ⟨⟨base ++ path⟩, Copies ⟨base ++ path⟩, ?_⟩
      funext fields ids changes made
      exact propext (effect_scalar hid)
  | array path elements => exact .inr ⟨_, _, by rw [effect]; rfl⟩

/-- Two directives whose paths lead past each other can be done in either order. -/
theorem effect_exchange (hapart : m.Apart (.owner type) d.path d'.path) :
    Effect.Reorders (Effect.Then (m.effect base patch type d) (m.effect base patch type d'))
      (Effect.Then (m.effect base patch type d') (m.effect base patch type d)) := by
  rintro fields _ _ made ⟨hfirst, hsecond⟩
  rcases m.effect_cases base patch type d with hidle | ⟨full, act, hlands⟩
  · rw [hidle] at hfirst ⊢
    obtain ⟨⟩ := hfirst
    exact ⟨_, _, by simp, by simp, .intro hsecond .intro⟩
  · rcases m.effect_cases base patch type d' with hidle | ⟨full', act', hlands'⟩
    · rw [hidle] at hsecond ⊢
      obtain ⟨⟩ := hsecond
      exact ⟨_, _, by simp, by simp, .intro .intro hfirst⟩
    · rw [hlands] at hfirst ⊢
      rw [hlands'] at hsecond ⊢
      obtain ⟨between, ids', later', hsecond', hfirst', hperm⟩ := hfirst.exchange hapart hsecond
      cases hpath : d'.path with
      | nil =>
        rw [hpath] at hapart
        exact (not_apart_nil_right hapart).elim
      | cons key rest =>
        rw [hpath] at hsecond'
        obtain ⟨_, b, -, rfl⟩ := hsecond'.of_object
        exact ⟨_, _, hperm, List.perm_append_comm, .intro hsecond' hfirst'⟩

/-- Directives whose paths lead past each other have one effect in all orders. -/
theorem effects_perm (hperm : ds.Perm ds')
    (hapart : ds.Pairwise fun d d' => m.Apart (.owner type) d.path d'.path) :
    Effect.Reorders (m.effects base patch type ds) (m.effects base patch type ds') := by
  induction hperm with
  | nil => exact .refl _
  | cons d _ ih =>
    simp only [effects]
    exact (Effect.Reorders.refl _).seq (ih hapart.of_cons)
  | swap d d' ds =>
    simp only [effects]
    exact (effect_exchange (List.rel_of_pairwise_cons hapart (List.mem_cons_self ..))).exchange
  | trans hfirst _ ih ih' =>
    exact (ih hapart).trans (ih' ((hfirst.pairwise_iff fun h => h.symm).1 hapart))

/-- The effect of two lists of directives is that of the one and then the other. -/
theorem effects_append :
    m.effects base patch type (ds ++ ds') =
      Effect.Then (m.effects base patch type ds) (m.effects base patch type ds') := by
  induction ds with
  | nil => rw [List.nil_append, effects, Effect.idle_then]
  | cons d ds ih => rw [List.cons_append, effects, effects, ih, Effect.then_assoc]

end Merger

end SelectiveMerge
