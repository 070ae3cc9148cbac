import SelectiveMerge.Merge.Configuration
import SelectiveMerge.Options
import SelectiveMerge.Report

/-!
# Sessions

The parts of a merge that do not change while it runs, and the record that it
keeps: the requests sent to the validator, the changes made, how many identities
were minted, and how many new items are being populated. A step of a merge is a
`Run`; when it fails the record of what was done before stays.
-/

namespace SelectiveMerge

/-- The question whether a mutation may take place. -/
structure Request where
  path : Path
  /-- The member or the dictionary key that is about to change. -/
  property : String
  value : Json
  operation : Operation
  originalItem : Option Node
  patchItem : Option Node

/-- A request that was sent, and how many new items, one inside the other, were being
populated at the time. -/
structure SentRequest where
  request : Request
  populating : Nat

/-- Decides on mutations, one request after another. -/
structure Validator where
  /-- Whether a request is granted, given the requests that came before it. -/
  approves : (earlier : List Request) → Request → Bool

namespace Validator

/-- Grants every request. -/
def approveAll : Validator := ⟨fun _ _ => true⟩

/-- Decides on each request by itself. -/
def stateless (approves : Request → Bool) : Validator := ⟨fun _ request => approves request⟩

end Validator

/-- What a merge is run with. -/
structure Merger where
  catalogue : Catalogue
  configuration : Configuration
  validator : Validator
  options : Options
  /-- The fresh identities, in the order in which they are given out. -/
  mint : Nat → Uuid

/-- The record that a merge keeps. -/
structure Session where
  sent : List SentRequest
  report : Report
  minted : Nat
  /-- How many new items, one inside the other, are being populated. -/
  populating : Nat

namespace Session

/-- The record at the start, when so many identities have been minted before. -/
def start (minted : Nat) : Session := ⟨[], Report.empty, minted, 0⟩

/-- The requests that were sent, in order. -/
def requests (s : Session) : List Request := s.sent.map (·.request)

/-- The record after one more request. -/
def asking (s : Session) (request : Request) : Session :=
  { s with sent := s.sent ++ [⟨request, s.populating⟩] }

/-- The record after one more change. -/
def noting (s : Session) (c : Change) : Session := { s with report := s.report.push c }

end Session

/-- A step of a merge. -/
abbrev Run := EStateM MergeError Session

namespace Run

/-- Fails. -/
def fail {α : Type} (e : MergeError) : Run α := fun s => .error e s

/-- Goes on with the result of a computation that may fail. -/
def ofExcept {α : Type} : Except MergeError α → Run α
  | .ok a => pure a
  | .error e => fail e

/-- Goes on with a value that may be missing. -/
def require {α : Type} (e : MergeError) : Option α → Run α
  | some a => pure a
  | none => fail e

/-- Records a change. -/
def record (c : Change) : Run Unit := fun s => .ok () (s.noting c)

/-- Runs a step that populates a new item; its changes are not recorded. -/
def quietly {α : Type} (step : Run α) : Run α := fun s =>
  match step { s with populating := s.populating + 1 } with
  | .ok a s' => .ok a { s' with report := s.report, populating := s.populating }
  | .error e s' => .error e { s' with report := s.report, populating := s.populating }

end Run

namespace Merger

/-- Asks the validator; a refusal ends the merge. -/
def validate (m : Merger) (request : Request) : Run Unit := fun s =>
  if m.validator.approves s.requests request then .ok () (s.asking request)
  else .error (.validationRejected request.path request.operation) (s.asking request)

/-- Makes an object of a type from nothing, if the type has such objects. -/
def construct? (m : Merger) (type : TypeName) : Run (Option Fields) := fun s =>
  let schema := m.catalogue type
  if !schema.constructible then .ok none s
  else if schema.needsFreshIdentity then
    .ok (some (schema.withIdentity (m.mint s.minted) schema.initialFields))
      { s with minted := s.minted + 1 }
  else .ok (some schema.initialFields) s

/-- Makes an object of a type from nothing, or fails at a path. -/
def construct (m : Merger) (type : TypeName) (path : Path) : Run Fields := do
  let made ← m.construct? type
  Run.require (.uninitializable path (m.catalogue type).typeName) made

/-- The object that was found, or else one of a type that is made from nothing. -/
def ensure (m : Merger) (type : TypeName) (path : Path) : Option Fields → Run Fields
  | some fields => pure fields
  | none => m.construct type path

end Merger

end SelectiveMerge
