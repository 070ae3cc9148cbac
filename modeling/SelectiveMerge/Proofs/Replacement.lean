import SelectiveMerge.Proofs.Fates

/-!
# Collections that are replaced

An override may have an array stand for all that a collection is to hold. Items without
identities are then removed before the elements of the array come to the collection. Items
with identities are dropped afterwards, one by one, if they are not mentioned: mentioned are
the identities that elements update, and those of the items that elements add. So an item
that no element names is dropped, except when an item with its identity was added.

* `Merger.isMentioned`, `Merger.dropRequest` — which items are kept, and how others are dropped
* `Replaced` — what is left of a collection, and what is recorded
* `Merger.Stays`, `Replaced.exists_stays` — which of the items that were there are kept
* `Replaced.exists_firsts` — new items are kept
* `replaces_unmentioned` — one array of a payload
-/

namespace SelectiveMerge

namespace Merger

open Intent (additions updates removals)

/-! ## Dropping what is not mentioned -/

/-- Whether the identity of an item is mentioned. An item without one is never dropped. -/
def isMentioned (m : Merger) (type : TypeName) (mentioned : List Uuid) (item : Fields) : Bool :=
  (m.identity? type item).all (mentioned.contains ·)

/-- The request to drop an item, together with the item of the patch that has its identity. -/
def dropRequest (m : Merger) (r : Reconciliation) (item : Fields) : Request :=
  ⟨r.full, r.property, .null, .removeItem, some ⟨r.type, item⟩,
    (m.identity? r.type item).bind (m.catalogue.itemWithId? r.patchType r.patchItems)⟩

variable {m : Merger} {r : Reconciliation} {s t u s' : Session} {items : List Json}
  {type : TypeName} {mentioned : List Uuid} {item : Fields} {id : Uuid} {minted : Nat}

theorem isMentioned_iff : m.isMentioned type mentioned item = true ↔
    ∀ id, m.identity? type item = some id → id ∈ mentioned := by
  simp [isMentioned, Option.all_eq_true]

theorem isMentioned_eq_false (hid : m.identity? type item = some id) (h : id ∉ mentioned) :
    m.isMentioned type mentioned item = false := by
  rw [← Bool.not_eq_true, isMentioned_iff]
  exact fun hall => h (hall id hid)

/-- What is left are the items that are mentioned. Each of the others was asked for, and its
removal was recorded. -/
theorem DropsUnmentioned.filter {olds left : List Fields}
    (h : m.DropsUnmentioned r mentioned olds s left s') :
    left = olds.filter (m.isMentioned r.type mentioned) ∧
      s'.requestsAt r.full = s.requestsAt r.full ++
        (olds.filter fun item => !m.isMentioned r.type mentioned item).map (m.dropRequest r) ∧
      Records r.full s s' []
        ((olds.filter fun item => !m.isMentioned r.type mentioned item).map
          (m.identity? r.type)) := by
  induction h with
  | nil => exact ⟨rfl, (List.append_nil _).symm, .of_elsewhere (.refl ..)⟩
  | kept hmentioned _ ih =>
    have hkept := isMentioned_iff.2 hmentioned
    rw [List.filter_cons_of_pos hkept, List.filter_cons_of_neg (by simp [hkept])]
    exact ih.imp_left fun hleft => congrArg _ hleft
  | @removed item items left s t id hid hmentioned _ _ ih =>
    obtain ⟨rfl, hrequests, hrecords⟩ := ih
    have hidentity : m.identity? r.type item = some id := hid
    have hdropped := isMentioned_eq_false hidentity hmentioned
    rw [List.filter_cons_of_neg (by simp [hdropped]), List.filter_cons_of_pos (by simp [hdropped]),
      List.map_cons, List.map_cons]
    refine ⟨rfl, ?_, ?_⟩
    · rw [hrequests, Session.requestsAt_noting rfl, dropRequest, hidentity, Option.bind_some,
        List.append_assoc]
      rfl
    · rw [hidentity]
      exact (Records.noting_removed _ _).trans hrecords

/-- A collection that is cleared holds nothing, and neither an addition nor a removal was
recorded. -/
theorem Clears.of_true {node : Json} {patch original : Node} {member : Member}
    {olds found : List Fields}
    (h : m.Clears r.full node patch original member true olds s found t) :
    found = [] ∧ Records r.full s t [] [] ∧ s.minted ≤ t.minted := by
  cases h with
  | kept hfalse => cases hfalse
  | cleared => exact ⟨rfl, .noting_cleared _, le_rfl⟩
  | empty => exact ⟨rfl, .asking .., le_rfl⟩

/-! ## What is left -/

/-- An array replaced the items of a collection, of which `kept` are left, and after them
those of the new items that `added` lists. -/
inductive Replaced (m : Merger) (r : Reconciliation) (minted : Nat) (items : List Json)
    (olds : List Fields) (s s' : Session) : (kept added : List Fields) → Prop where
  /-- Items without identities are all removed, before elements add others. -/
  | cleared {state : Reconciled} {firsts : List Fields} {fates newFates : List (Option Fields)}
      (hidentified : (m.catalogue r.type).identified = false)
      (hfates : m.Fates r minted 0 items ⟨[], []⟩ state firsts fates newFates)
      (hrecords : Records r.full s s' (firsts.map (m.identity? r.type))
        ((removals m.options items).map some)) :
      Replaced m r minted items olds s s' [] newFates.reduceOption
  /-- Of the items that are there after all elements, those that are not mentioned are
  dropped. Each is asked for and recorded, in their order, after all that the elements do. -/
  | dropped {state : Reconciled} {firsts dropped : List Fields}
      {fates newFates : List (Option Fields)}
      (hidentified : (m.catalogue r.type).identified = true)
      (hfates : m.Fates r minted 0 items ⟨olds, []⟩ state firsts fates newFates)
      (hdropped : dropped =
        state.items.filter fun item => !m.isMentioned r.type state.mentioned item)
      (hrequests : ∃ earlier, s'.requestsAt r.full = earlier ++ dropped.map (m.dropRequest r))
      (hrecords : Records r.full s s' (firsts.map (m.identity? r.type))
        ((removals m.options items).map some ++ dropped.map (m.identity? r.type))) :
      Replaced m r minted items olds s s'
        (fates.reduceOption.filter (m.isMentioned r.type state.mentioned))
        (newFates.reduceOption.filter (m.isMentioned r.type state.mentioned))

/-- An item is kept with what elements made of it, and there is a reason for it: an element
updates its identity, or an element added an item with the same identity. -/
def Stays (m : Merger) (r : Reconciliation) (minted : Nat) (items : List Json)
    (old new : Fields) : Prop :=
  m.Becomes r items old new ∧ ∀ id, m.identity? r.type old = some id →
    id ∈ updates m.options items ∨ ∃ element ∈ additions m.options 0 items, ∃ first,
      m.Adds r minted element first ∧ m.identity? r.type first = some id

namespace Replaced

variable {olds kept added : List Fields}

/-- The items that are kept were there before, in the same order, and there is a reason for
each of them. -/
theorem exists_stays (h : m.Replaced r minted items olds s s' kept added) :
    ∃ stays, stays.Sublist olds ∧ List.Forall₂ (m.Stays r minted items) stays kept := by
  cases h with
  | cleared => exact ⟨[], List.nil_sublist olds, .nil⟩
  | @dropped state firsts dropped fates newFates hidentified hfates =>
    obtain ⟨stays, hsublist, hstays⟩ := exists_sublist_of_forall₂
      (m.isMentioned r.type state.mentioned) hfates.olds
    refine ⟨stays, hsublist, hstays.imp fun old new hboth => ?_⟩
    obtain ⟨hfate, hmentioned⟩ := hboth
    cases hfate with
    | left hbecomes =>
      refine ⟨hbecomes, fun id hid => ?_⟩
      rcases Relation.ReflTransGen.cases_head hbecomes with rfl | ⟨next, hupdate, -⟩
      · -- no element came to the item, so its identity is the one it had
        rcases (hfates.mem_mentioned id).1 (isMentioned_iff.1 hmentioned id hid) with
          hupdated | hfirst | hnone
        · exact .inl hupdated
        · obtain ⟨first, hmem, hfirstId⟩ := List.mem_map.1 hfirst
          obtain ⟨element, helement, hadds⟩ := exists_of_forall₂_of_mem hfates.adds hmem
          exact .inr ⟨element, helement, first, hadds, hfirstId⟩
        · cases hnone
      · obtain ⟨members, other, patchItem, v, w, hmem, hasks, hother, -⟩ := hupdate
        obtain rfl := Option.some_inj.1 (hother.symm.trans hid)
        exact .inl (Intent.mem_updates.2 ⟨_, hmem, hasks⟩)

/-- Where updates keep identities, new items are not dropped: each one that no element
removes is left, in the order of the array. -/
theorem exists_firsts (hactions : m.configuration.NoActions) (hderived : m.catalogue.Derived)
    (hkeeps : m.NamesIdentity r.type ∨ r.patchType = r.type)
    (h : m.Replaced r minted items olds s s' kept added) :
    ∃ firsts newFates, List.Forall₂ (m.Adds r minted) (additions m.options 0 items) firsts ∧
      List.Forall₂ (m.Fate r items) firsts newFates ∧ added = newFates.reduceOption := by
  cases h with
  | @cleared state firsts fates newFates hidentified hfates =>
    exact ⟨firsts, newFates, hfates.adds, hfates.news, rfl⟩
  | @dropped state firsts dropped fates newFates hidentified hfates =>
    refine ⟨firsts, newFates, hfates.adds, hfates.news, ?_⟩
    refine List.filter_eq_self.2 fun new hnew => isMentioned_iff.2 fun id hid => ?_
    obtain ⟨first, hfirst, hfate⟩ :=
      exists_of_forall₂_of_mem hfates.news (List.reduceOption_mem_iff.1 hnew)
    cases hfate with
    | left hbecomes =>
      have hsame := hbecomes.identity?_eq hactions hderived hkeeps
      exact (hfates.mem_mentioned id).2
        (.inr (.inl (List.mem_map.2 ⟨first, hfirst, hsame.symm.trans hid⟩)))

/-- What happens elsewhere before and after does not matter. -/
theorem widen (hbefore : Elsewhere r.full s t) (hafter : Elsewhere r.full u s')
    (h : m.Replaced r t.minted items olds t u kept added) :
    m.Replaced r s.minted items olds s s' kept added := by
  have hrecords : ∀ {new removed : List (Option Uuid)}, Records r.full t u new removed →
      Records r.full s s' new removed := by
    intro new removed hinner
    have houter := ((Records.of_elsewhere hbefore).trans hinner).trans (.of_elsewhere hafter)
    simpa only [List.nil_append, List.append_nil] using houter
  cases h with
  | cleared hidentified hfates hinner =>
    exact .cleared hidentified (hfates.mono hbefore.minted_le) (hrecords hinner)
  | dropped hidentified hfates hdropped hrequests hinner =>
    refine .dropped hidentified (hfates.mono hbefore.minted_le) hdropped ?_ (hrecords hinner)
    rwa [hafter.requestsAt_eq]

end Replaced

/-! ## An array that replaces a collection -/

/-- An array replaces the collection that it settles, where an override says so. -/
theorem Settles.replaced {olds left : List Fields} (hactions : m.configuration.NoActions)
    (hforce : m.configuration.forcesReplace r.full = true)
    (h : m.Settles r (Directive.elements m.options items) olds s left s') :
    ∃ kept added, left = kept ++ added ∧
      m.Replaced r s.minted items olds s s' kept added := by
  cases h with
  | ignored _ hfalse =>
    rw [hforce] at hfalse
    cases hfalse
  | @run _ _ _ _ found _ t u v state hclears hrun hdrops =>
    rw [hforce, Bool.or_true, Bool.and_true] at hclears
    rw [hforce, Bool.true_and] at hdrops
    obtain ⟨firsts, fates, newFates, hfates, hrecords⟩ := hrun.exists_fates hactions
    cases hidentified : (m.catalogue r.type).identified with
    | false =>
      -- the elements come to an empty collection, and nothing is dropped after them
      rw [hidentified] at hclears hdrops
      obtain ⟨rfl, hcleared, hminted⟩ := hclears.of_true
      cases hdrops with
      | dropped htrue => cases htrue
      | kept =>
        refine ⟨[], newFates.reduceOption, ?_,
          .cleared hidentified (hfates.mono hminted) (hcleared.trans hrecords)⟩
        cases hfates.olds
        exact hfates.items_eq
    | true =>
      -- the elements come to the items that were there, and some are dropped after them
      rw [hidentified] at hclears hdrops
      cases hclears with
      | cleared hfalse | empty hfalse => cases hfalse
      | kept =>
        cases hdrops with
        | kept hfalse => cases hfalse
        | dropped _ hunmentioned =>
          obtain ⟨rfl, hrequests, hremovals⟩ := hunmentioned.filter
          refine ⟨_, _, ?_, .dropped hidentified hfates rfl ⟨_, hrequests⟩ ?_⟩
          · rw [hfates.items_eq, List.filter_append]
          · simpa only [List.append_nil] using hrecords.trans hremovals

/-- One array of a payload that alone leads to a collection replaces its items, where an
override says so. An item that was there is kept only if an element updates its identity, or
if an item with the same identity was added. -/
theorem replaces_unmentioned {patch original : Node} {base path : List String}
    {members : List (String × Json)} {made : Fields} {olds : List Fields}
    (hactions : m.configuration.NoActions) (hwell : m.catalogue.WellTyped)
    (hderived : m.catalogue.Derived) (hfactories : m.configuration.FactoriesTyped m.catalogue)
    (hforce : m.configuration.forcesReplace ⟨base ++ path⟩ = true)
    (horiginal : Typed m.catalogue (.object original.type original.fields))
    (hbegun : m.begun? (.object original.type original.fields) path =
      some (.slot (.collection type olds)))
    (haddresses : m.Addresses original.type members path items)
    (hwalk : m.Walks base patch original members s made s') :
    ∃ r kept added, r.full = ⟨base ++ path⟩ ∧ r.type = type ∧
      m.shown? patch path = some (.slot (.collection r.patchType r.patchItems)) ∧
      m.held? (.object original.type made) path =
        some (.slot (.collection type (kept ++ added))) ∧
      m.Replaced r s.minted items olds s s' kept added ∧
      (∃ stays, stays.Sublist olds ∧
        List.Forall₂ (m.Stays r s.minted items) stays kept) ∧
      (m.NamesIdentity type ∨ r.patchType = type → ∃ firsts newFates,
        List.Forall₂ (m.Adds r s.minted) (additions m.options 0 items) firsts ∧
        List.Forall₂ (m.Fate r items) firsts newFates ∧ added = newFates.reduceOption) ∧
      (m.Granted s.requests → m.Granted s'.requests) := by
  obtain ⟨r, left, t, u, hfull, rfl, hsettles⟩ := hwalk.exists_settlesAlone hactions hwell
    hderived hfactories horiginal haddresses hbegun
  rw [← hfull] at hforce
  obtain ⟨kept, added, rfl, hinner⟩ := hsettles.settles.replaced hactions hforce
  have hreplaced := hinner.widen hsettles.before hsettles.after
  exact ⟨r, kept, added, hfull, rfl, hsettles.shown, hsettles.held, hreplaced,
    hreplaced.exists_stays, fun hkeeps => hreplaced.exists_firsts hactions hderived hkeeps,
    fun hgranted => (guarded_runDirectives ..).of_ok hgranted hwalk⟩

end Merger

/-! ## Devices that stand for all -/

namespace Sample

/-- A merger of racks which has the devices of a rack replaced. -/
def replacingRacks : Merger :=
  { racks with configuration := ⟨[⟨.exact ⟨["devices"]⟩, .forceReplace⟩]⟩ }

theorem replacingRacks_noActions : replacingRacks.configuration.NoActions := by
  intro e he action haction
  obtain rfl := List.mem_singleton.1 he
  cases haction

theorem replacingRacks_factoriesTyped :
    replacingRacks.configuration.FactoriesTyped replacingRacks.catalogue := by
  intro full make patchItem item hmake
  cases hmake

/-- An element that adds a device. -/
def addedDevice : Json := .object [("displayName", .null)]

/-- A rack with one device that has no identity yet. -/
def unkeyedRack (name : String) : Node := rackOf [deviceCalled 0 name]

/-- Devices before somebody replaces them. -/
def olderDevices : List Fields := [deviceCalled 10 "old", deviceCalled 11 "older"]

/-- Devices with which they are replaced. -/
def newerDevices : List Fields := [deviceCalled 10 "new", deviceCalled 12 "newer"]

/-- Elements that name one of the devices, and add one with the identity that the patch has
for it. -/
def replacements : List Json :=
  [.object [("Id", .string "00000000-0000-0000-0000-00000000000a"), ("displayName", .null)],
    .object [("serialKey", .null), ("displayName", .null)]]

/-- The report of what they change. -/
def reportOfReplacements : Report :=
  ⟨[⟨⟨["devices", "displayName"]⟩, .updated, none⟩, ⟨⟨["devices"]⟩, .added, some ⟨12⟩⟩,
    ⟨⟨["devices"]⟩, .removed, some ⟨11⟩⟩]⟩

theorem replacements_addresses : replacingRacks.Addresses "Rack"
    [("devices", .array replacements)] ["devices"] replacements :=
  ⟨by decide, [], [], rfl, by simp⟩

theorem olderDevices_typed :
    Typed replacingRacks.catalogue (.object "Rack" (keyedRack 1 olderDevices).fields) :=
  keyedRack_typed 1 (by simp [olderDevices, deviceCalled_typed])

end Sample

/-- No element names the device that is there, but one adds a device, and both have the nil
identity. So the old device is kept, and nothing asks for its removal. -/
theorem unnamed_device_stays :
    Sample.replacingRacks.configuration.NoActions ∧
      Sample.replacingRacks.configuration.forcesReplace ⟨["devices"]⟩ = true ∧
      Intent.updates Sample.replacingRacks.options [Sample.addedDevice] = [] ∧
      (Sample.replacingRacks.merge (Sample.unkeyedRack "new") (Sample.unkeyedRack "old")
        (.object [("devices", .array [Sample.addedDevice])]) 0).result =
          .ok ⟨[⟨⟨["devices"]⟩, .added, some Uuid.nil⟩]⟩ ∧
      Sample.deviceNames (Sample.unkeyedRack "old") = ["old"] ∧
      Sample.deviceNames (Sample.replacingRacks.merge (Sample.unkeyedRack "new")
        (Sample.unkeyedRack "old") (.object [("devices", .array [Sample.addedDevice])])
        0).original = ["old", "new"] :=
  ⟨Sample.replacingRacks_noActions, by decide +kernel, by decide +kernel, by decide +kernel,
    by decide +kernel, by decide +kernel⟩

/-- The device that no element names is dropped, the other one is kept, and the new one comes
after it. -/
theorem replaces_unmentioned_racks :
    (Sample.replacingRacks.merge (Sample.keyedRack 1 Sample.newerDevices)
        (Sample.keyedRack 1 Sample.olderDevices)
        (.object [("devices", .array Sample.replacements)]) 0).result =
          .ok Sample.reportOfReplacements ∧
      Sample.deviceNames (Sample.replacingRacks.merge (Sample.keyedRack 1 Sample.newerDevices)
        (Sample.keyedRack 1 Sample.olderDevices)
        (.object [("devices", .array Sample.replacements)]) 0).original = ["new", "newer"] ∧
      ∃ made s r kept added, Sample.replacingRacks.Walks []
          (Sample.keyedRack 1 Sample.newerDevices) (Sample.keyedRack 1 Sample.olderDevices)
          [("devices", .array Sample.replacements)] (Session.start 0) made s ∧
        r.full = ⟨["devices"]⟩ ∧ r.type = "Device" ∧
        Sample.replacingRacks.shown? (Sample.keyedRack 1 Sample.newerDevices) ["devices"] =
          some (.slot (.collection r.patchType r.patchItems)) ∧
        Sample.replacingRacks.held? (.object "Rack" made) ["devices"] =
          some (.slot (.collection "Device" (kept ++ added))) ∧
        Sample.replacingRacks.Replaced r 0 Sample.replacements Sample.olderDevices
          (Session.start 0) s kept added ∧
        (∃ stays, stays.Sublist Sample.olderDevices ∧
          List.Forall₂ (Sample.replacingRacks.Stays r 0 Sample.replacements) stays kept) ∧
        (Sample.replacingRacks.NamesIdentity "Device" ∨ r.patchType = "Device" →
          ∃ firsts newFates,
            List.Forall₂ (Sample.replacingRacks.Adds r 0)
              (Intent.additions Sample.replacingRacks.options 0 Sample.replacements) firsts ∧
            List.Forall₂ (Sample.replacingRacks.Fate r Sample.replacements) firsts newFates ∧
            added = newFates.reduceOption) ∧
        (Sample.replacingRacks.Granted [] → Sample.replacingRacks.Granted s.requests) := by
  have hok : (Sample.replacingRacks.merge (Sample.keyedRack 1 Sample.newerDevices)
      (Sample.keyedRack 1 Sample.olderDevices)
      (.object [("devices", .array Sample.replacements)]) 0).result =
        .ok Sample.reportOfReplacements := by
    decide +kernel
  obtain ⟨members, made, s, hmembers, hwalk, -, -⟩ := Merger.Walks.of_merge hok
  obtain rfl := Json.object.inj hmembers
  obtain ⟨r, kept, added, h⟩ := Merger.replaces_unmentioned Sample.replacingRacks_noActions
    Sample.racks_wellTyped Sample.racks_derived Sample.replacingRacks_factoriesTyped
    (by decide +kernel) Sample.olderDevices_typed rfl Sample.replacements_addresses hwalk
  exact ⟨hok, by decide +kernel, made, s, r, kept, added, hwalk, h⟩

end SelectiveMerge
