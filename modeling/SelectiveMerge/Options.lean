import SelectiveMerge.Json.Basic
import SelectiveMerge.Text.Ascii

/-!
# Merge options

The name of the key that marks an element for removal, and whether member names
are looked up without regard to the case of ASCII letters. Options are read from
a JSON object or from the array of their values; what is missing has its default.
-/

namespace SelectiveMerge

/-- The options of a merge. -/
structure Options where
  removeMarker : String := "remove"
  ignoreCase : Bool := true
  deriving DecidableEq, Inhabited

namespace Options

/-- Whether a key is the removal marker, in any case. -/
def isRemoveMarker (o : Options) (key : String) : Bool := Text.eqIgnoreCase key o.removeMarker

/-- Sets the marker from JSON. -/
def withMarker (o : Options) : Option Json → Option Options
  | none => some o
  | some (.string s) => some { o with removeMarker := s }
  | some _ => none

/-- Sets the case rule from JSON. -/
def withCase (o : Options) : Option Json → Option Options
  | none => some o
  | some (.bool b) => some { o with ignoreCase := b }
  | some _ => none

/-- Reads options. Unknown members of an object are ignored; an array has at most
the two values. -/
def ofJson? (j : Json) : Option Options :=
  match j with
  | .object _ => do
      let o ← withMarker {} (j.member? "remove_marker")
      o.withCase (j.member? "ignore_case")
  | .array items =>
      if 2 < items.length then none else do
        let o ← withMarker {} items[0]?
        o.withCase items[1]?
  | _ => none

/-- The JSON form of options. -/
def toJson (o : Options) : Json :=
  .object [("remove_marker", .string o.removeMarker), ("ignore_case", .bool o.ignoreCase)]

end Options

end SelectiveMerge
