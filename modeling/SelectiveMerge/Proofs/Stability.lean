import SelectiveMerge.Proofs.Frame
import SelectiveMerge.Proofs.PatchValues

/-!
# Identities are stable

A merge without overrides that run actions of their own, from a patch of the type of its
original, keeps the identities of the items that it keeps: in every collection that the
original holds, the items that are still there are in their order and have the identities
that they had. The others were named by an element that removes them, or were gone with an
array of the payload that clears or replaces their collection. The original itself keeps its
identity unless a key of the payload that is not called `id` goes to it.

* `Merger.StableObject` — what the values of a payload make of the items in an object
* `Merger.StableObject.items` — the items of one collection, with their identities
* `stable_merge` — a whole merge
-/

namespace SelectiveMerge

namespace Merger

variable {m : Merger}

/-- The items of all collections in an object are as the values `ns` of a payload ask for.
Those that are left stand for themselves, each with its identity (`Kept.identity?_eq`), and
so do the items that they hold in turn. -/
def StableObject (m : Merger) (ns : Set Addressed) (type : TypeName) (old new : Fields) : Prop :=
  m.KeptObject True ns type old new

/-- Of a collection in a stable object some items are left, in their order and in front of
those that were added. Each of them has the identity that it had, and is itself stable. -/
theorem StableObject.items {ns : Set Addressed} {type itemType : TypeName} {old new : Fields}
    {i : Nat} {olds : List Fields} (h : m.StableObject ns type old new)
    (hold : old[i]? = some (.collection itemType olds)) :
    ∃ after added, new[i]? = some (.collection itemType (after.reduceOption ++ added)) ∧
      List.Forall₂ (fun item left => ∀ fields, left = some fields →
        m.identity? itemType fields = m.identity? itemType item ∧
          m.StableObject (elementsOf (m.denoting type i ns)) itemType item fields) olds after := by
  obtain ⟨s, hs, hkept⟩ := Kept.field hold h
  obtain ⟨after, added, rfl, hafter⟩ := hkept.exists_after
  refine ⟨after, added, hs, hafter.imp fun item left hitem fields hleft => ?_⟩
  subst hleft
  exact ⟨hitem.identity?_eq trivial, hitem.of_item⟩

/-- After a merge without overrides that run actions of their own, from a patch of the type
of the original, the original has its identity unless a key of the payload goes to it that
is not called `id`, and each item that any collection in it still holds has its own. -/
theorem stable_merge {patch original : Node} {payload : Json} {minted : Nat} {report : Report}
    (hactions : m.configuration.NoActions) (hwell : m.catalogue.WellTyped)
    (hderived : m.catalogue.Derived) (hfactories : m.configuration.FactoriesTyped m.catalogue)
    (halike : m.Alike patch original)
    (hok : (m.merge patch original payload minted).result = .ok report) :
    (m.Protects {key | key ∈ payload.keys} original.type →
      m.identity? original.type (m.merge patch original payload minted).original.fields =
        m.identity? original.type original.fields) ∧
    m.StableObject {⟨[], payload⟩} original.type original.fields
      (m.merge patch original payload minted).original.fields := by
  obtain ⟨members, made, s, rfl, hwalk, -, heq⟩ := Walks.of_merge hok
  rw [heq]
  refine ⟨fun hprotects => ?_, ?_⟩
  · exact identity?_runDirectives hactions hderived (.inl hprotects)
      (fun d hd name hname => mem_keys_of_mem_ofMembers hd hname) hwalk
  · have hkind : m.OfOneKind patch original := ⟨hwell, hfactories, halike⟩
    exact runsKeep hactions hderived _ (fun _ => hkind)
      (fun d hd => ⟨_, rfl, rfl, Directive.mem_ofMembers_iff.1 hd⟩) hwalk

end Merger

/-! ## A rack gets another key -/

namespace Sample

theorem racks_noActions : racks.configuration.NoActions := by
  intro e he
  cases he

theorem racks_derived : racks.catalogue.Derived := by
  intro type
  rcases racks_catalogue type with hdevice | hrack
  · rw [hdevice]
    exact Plan.derived_members 0 [.leaf "serialKey" .uuid, .text "displayName"]
  · rw [hrack]
    exact Plan.derived_members 0 _

/-- A rack with a device, before and after somebody gave the device another name. -/
def rackWithDevice (key : Nat) (name : String) : Node := keyedRack key [deviceCalled 10 name]

theorem rackWithDevice_alike (key key' : Nat) (name name' : String) :
    racks.Alike (rackWithDevice key name) (rackWithDevice key' name') := by
  refine ⟨rfl, keyedRack_typed key ?_, keyedRack_typed key' ?_⟩
  · simp [deviceCalled_typed]
  · simp [deviceCalled_typed]

/-- A payload that names the device. -/
def nameOfDevice : Json :=
  .object [("devices", .array [.object
    [("Id", .string "00000000-0000-0000-0000-00000000000a"), ("serialKey", .null),
      ("displayName", .null)]])]

end Sample

/-- The identity of a rack is in its member `rack_key`, which is assigned like any other. -/
theorem rack_key_changes :
    Sample.racks.configuration.NoActions ∧
      (Sample.racks.merge (Sample.keyedRack 2 []) (Sample.keyedRack 1 [])
        (.object [("rack_key", .null)]) 0).result =
          .ok ⟨[⟨⟨["rack_key"]⟩, .updated, none⟩]⟩ ∧
      Sample.racks.identity? "Rack" (Sample.keyedRack 1 []).fields = some ⟨1⟩ ∧
      Sample.racks.identity? "Rack" (Sample.racks.merge (Sample.keyedRack 2 [])
        (Sample.keyedRack 1 []) (.object [("rack_key", .null)]) 0).original.fields = some ⟨2⟩ :=
  ⟨Sample.racks_noActions, by decide +kernel, by decide +kernel, by decide +kernel⟩

/-- The device in a rack keeps its identity, which is in its member `serialKey`, although
that member is taken over from the patch. -/
theorem stable_merge_racks :
    (Sample.racks.merge (Sample.rackWithDevice 2 "new") (Sample.rackWithDevice 1 "old")
        Sample.nameOfDevice 0).result =
          .ok ⟨[⟨⟨["devices", "serialKey"]⟩, .updated, none⟩,
            ⟨⟨["devices", "displayName"]⟩, .updated, none⟩]⟩ ∧
      (Sample.racks.Protects {key | key ∈ Sample.nameOfDevice.keys} "Rack" →
        Sample.racks.identity? "Rack" (Sample.racks.merge (Sample.rackWithDevice 2 "new")
            (Sample.rackWithDevice 1 "old") Sample.nameOfDevice 0).original.fields =
          Sample.racks.identity? "Rack" (Sample.rackWithDevice 1 "old").fields) ∧
      Sample.racks.StableObject {⟨[], Sample.nameOfDevice⟩} "Rack"
        (Sample.rackWithDevice 1 "old").fields
        (Sample.racks.merge (Sample.rackWithDevice 2 "new") (Sample.rackWithDevice 1 "old")
          Sample.nameOfDevice 0).original.fields := by
  have hok : (Sample.racks.merge (Sample.rackWithDevice 2 "new") (Sample.rackWithDevice 1 "old")
      Sample.nameOfDevice 0).result =
        .ok ⟨[⟨⟨["devices", "serialKey"]⟩, .updated, none⟩,
          ⟨⟨["devices", "displayName"]⟩, .updated, none⟩]⟩ := by
    decide +kernel
  have hstable := Merger.stable_merge Sample.racks_noActions Sample.racks_wellTyped
    Sample.racks_derived (Configuration.factoriesTyped_empty _)
    (Sample.rackWithDevice_alike 2 1 "new" "old") hok
  exact ⟨hok, hstable⟩

end SelectiveMerge
