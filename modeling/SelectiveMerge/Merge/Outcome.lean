import SelectiveMerge.Merge.Payload
import SelectiveMerge.Merge.Reconciliation

/-!
# Merging

`Merger.merge` applies a payload to an object: the members that the payload names
take the values that they have in the patch. A merge is all or nothing: when a
step fails, the object stays as it was and the error is the outcome. The requests
that the validator saw and the number of identities minted are part of the
outcome in either case.
-/

namespace SelectiveMerge

/-- What came of a merge. -/
structure Outcome where
  /-- The report of the changes, or why there are none. -/
  result : Except MergeError Report
  /-- The object after the merge. -/
  original : Node
  /-- The requests that the validator decided on, in order. -/
  sent : List SentRequest
  /-- How many identities have been minted so far. -/
  minted : Nat

/-- The requests of a merge, without the record of what was being populated. -/
def Outcome.requests (o : Outcome) : List Request := o.sent.map (·.request)

namespace Merger

/-- A merger without overrides that grants every request. -/
def plain (catalogue : Catalogue) (mint : Nat → Uuid) : Merger where
  catalogue := catalogue
  configuration := .empty
  validator := .approveAll
  options := {}
  mint := mint

/-- Applies the members of a payload. -/
def applyMembers (m : Merger) (patch original : Node) (members : List (String × Json)) :
    Run Fields :=
  m.runDirectives [] patch original.type (Directive.ofMembers m.options members) original.fields

/-- Applies a payload to an object; `minted` identities were given out before. -/
def merge (m : Merger) (patch original : Node) (payload : Json) (minted : Nat) : Outcome :=
  match Payload.members? payload with
  | .error e => ⟨.error e, original, [], minted⟩
  | .ok members =>
      match m.applyMembers patch original members (Session.start minted) with
      | .ok fields s => ⟨.ok s.report, ⟨original.type, fields⟩, s.sent, s.minted⟩
      | .error e s => ⟨.error e, original, s.sent, s.minted⟩

/-- Applies the text of a payload to an object. -/
def mergeText (m : Merger) (patch original : Node) (text : String) (minted : Nat) : Outcome :=
  match Payload.parse text with
  | .error e => ⟨.error e, original, [], minted⟩
  | .ok payload => m.merge patch original payload minted

end Merger

end SelectiveMerge
