import SelectiveMerge.Error
import SelectiveMerge.Json.Parser
import SelectiveMerge.Text.Blank

/-!
# Payloads

A payload is the text of a JSON object that names the members to take over. A
text of blanks only is no payload, and neither is one that is no JSON. That the
value is an object is asked when the payload is applied.
-/

namespace SelectiveMerge.Payload

/-- The error of a payload that cannot be read. -/
def malformed (message : String) : MergeError := .malformedInput "json" message

/-- Reads the text of a payload. -/
def parse (text : String) : Except MergeError Json :=
  if Text.isBlankText text then .error (malformed "payload is empty")
  else (Json.parse text).mapError fun e => malformed e.message

/-- The members of a payload, which has to be an object. -/
def members? : Json → Except MergeError (List (String × Json))
  | .object members => .ok members
  | other => .error (malformed ("expected a JSON object, found " ++ other.typeName))

end SelectiveMerge.Payload
