import SelectiveMerge.Json.Basic
import SelectiveMerge.Path
import SelectiveMerge.Uuid

/-!
# Change reports

A merge reports each mutation that took effect, in order. A report is written as
a JSON object with the list of its changes and read back from that form.
-/

namespace SelectiveMerge

/-- What happened at a path. -/
inductive ChangeKind where
  | updated
  | custom
  | added
  | removed
  | cleared
  deriving DecidableEq

namespace ChangeKind

/-- The name of a kind of change. -/
def text : ChangeKind → String
  | .updated => "updated"
  | .custom => "custom"
  | .added => "added"
  | .removed => "removed"
  | .cleared => "cleared"

/-- All kinds of change. -/
def all : List ChangeKind := [.updated, .custom, .added, .removed, .cleared]

/-- The kind with a name. -/
def ofText? (s : String) : Option ChangeKind := all.find? fun kind => kind.text == s

@[simp] theorem ofText?_text (kind : ChangeKind) : ofText? kind.text = some kind := by
  cases kind <;> decide

end ChangeKind

/-- A mutation that took effect: what, where, and of which item. -/
structure Change where
  path : Path
  kind : ChangeKind
  id : Option Uuid
  deriving DecidableEq

namespace Change

/-- The JSON form of a change; an item without identity leaves no trace. -/
def toJson (c : Change) : Json :=
  .object ([("path", .array (c.path.segments.map Json.string)), ("kind", .string c.kind.text)] ++
    match c.id with
    | some id => [("id", .string id.toText)]
    | none => [])

/-- The texts of an array of texts. -/
def texts? (items : List Json) : Option (List String) :=
  items.mapM fun
    | .string s => some s
    | _ => none

/-- Reads the identity of a change: nothing at all, `null`, or a text. -/
def idOfJson? : Option Json → Option (Option Uuid)
  | none => some none
  | some .null => some none
  | some (.string s) => (Uuid.ofText? s).map some
  | some _ => none

/-- Reads the JSON form of a change. -/
def ofJson? (j : Json) : Option Change :=
  match j.member? "path", j.member? "kind" with
  | some (.array segments), some (.string kind) => do
      let segments ← texts? segments
      let kind ← ChangeKind.ofText? kind
      let id ← idOfJson? (j.member? "id")
      some ⟨⟨segments⟩, kind, id⟩
  | _, _ => none

end Change

/-- The changes of a merge, in order. -/
structure Report where
  changes : List Change
  deriving DecidableEq

namespace Report

/-- The report of no change. -/
def empty : Report := ⟨[]⟩

/-- The report with one more change at its end. -/
def push (r : Report) (c : Change) : Report := ⟨r.changes ++ [c]⟩

/-- The number of changes. -/
def length (r : Report) : Nat := r.changes.length

/-- Whether nothing changed. -/
def isEmpty (r : Report) : Bool := r.changes.isEmpty

/-- The number of changes of a kind. -/
def count (r : Report) (kind : ChangeKind) : Nat := r.changes.countP (·.kind == kind)

/-- The paths of the changes of a kind. -/
def paths (r : Report) (kind : ChangeKind) : List Path :=
  (r.changes.filter (·.kind == kind)).map (·.path)

/-- The JSON form of a report. -/
def toJson (r : Report) : Json := .object [("changes", .array (r.changes.map Change.toJson))]

/-- Reads the JSON form of a report. -/
def ofJson? (j : Json) : Option Report :=
  match j.member? "changes" with
  | some (.array items) => (items.mapM Change.ofJson?).map Report.mk
  | _ => none

@[simp] theorem changes_push (r : Report) (c : Change) : (r.push c).changes = r.changes ++ [c] := rfl

@[simp] theorem length_push (r : Report) (c : Change) : (r.push c).length = r.length + 1 := by
  simp [length]

end Report

end SelectiveMerge
