import SelectiveMerge.Leaf.Codec
import SelectiveMerge.Path

/-!
# Merge errors

Every way in which a merge can fail, with its wording and its class: an error of
the client, who sent a payload that does not fit, or a fatal one, which the
program that set up the merge has to answer for.
-/

namespace SelectiveMerge

/-- The kinds of mutation that a validator is asked about. -/
inductive Operation where
  | updateProperty
  | addItem
  | removeItem
  deriving DecidableEq

namespace Operation

/-- The name of an operation in messages. -/
def text : Operation → String
  | .updateProperty => "update-property"
  | .addItem => "add-item"
  | .removeItem => "remove-item"

end Operation

/-- Whose fault an error is. -/
inductive ErrorClass where
  | client
  | fatal
  deriving DecidableEq

/-- Why a leaf could not be turned into JSON or be read from it. -/
inductive SerializationFault where
  | encoding (fault : EncodeFault)
  | decoding (fault : DecodeFault)
  deriving DecidableEq

/-- The wording of a serialization fault. -/
def SerializationFault.message : SerializationFault → String
  | .encoding fault => fault.message
  | .decoding fault => fault.message

/-- Why a merge failed. -/
inductive MergeError where
  /-- An argument that cannot be read, such as a payload that is no JSON object. -/
  | malformedInput (argument message : String)
  /-- A path that names no member of a type. -/
  | structuralMismatch (path : Path) (typeName member : String)
  /-- A JSON value, or a member of the patch, of the wrong shape. -/
  | typeMismatch (path : Path) (expected found : String)
  /-- An identity in the payload that is no identifier. -/
  | invalidIdentity (path : Path) (raw : String)
  /-- An identity that no item has. -/
  | unknownIdentity (path : Path) (id : Uuid) (hint : String)
  /-- A mutation that the validator refused. -/
  | validationRejected (path : Path) (operation : Operation)
  /-- An object that is needed on the way and has no default. -/
  | uninitializable (path : Path) (typeName : String)
  /-- A patch value that the leaf takes in no reading. -/
  | coercion (path : Path) (value : Json) (sourceType targetType : String)
  /-- An override for other types, or a member table that does not fit. -/
  | configuration (path : Path) (message : String)
  /-- A leaf without a JSON form, or one that does not read. -/
  | serialization (fault : SerializationFault)
  deriving DecidableEq

namespace MergeError

/-- The wording of an error. -/
def message : MergeError → String
  | .malformedInput argument message => "malformed input `" ++ argument ++ "`: " ++ message
  | .structuralMismatch path typeName member =>
      "type `" ++ typeName ++ "` has no member `" ++ member ++ "` (path " ++ path.toText ++ ")"
  | .typeMismatch path expected found =>
      "type mismatch at " ++ path.toText ++ ": expected " ++ expected ++ ", found " ++ found
  | .invalidIdentity path raw => "invalid identity `" ++ raw ++ "` at " ++ path.toText
  | .unknownIdentity path id hint =>
      "no item with id " ++ id.toText ++ " at " ++ path.toText ++ hint
  | .validationRejected path operation =>
      "validation rejected " ++ operation.text ++ " at " ++ path.toText
  | .uninitializable path typeName =>
      "cannot construct a default `" ++ typeName ++ "` at " ++ path.toText
  | .coercion path value sourceType targetType =>
      "cannot set " ++ path.toText ++ " to " ++ value.compact ++ ": `" ++ sourceType ++
        "` does not convert to `" ++ targetType ++ "`"
  | .configuration path message => "configuration error at " ++ path.toText ++ ": " ++ message
  | .serialization fault => "serialization error: " ++ fault.message

/-- The class of an error. -/
def errorClass : MergeError → ErrorClass
  | .malformedInput .. | .structuralMismatch .. | .typeMismatch .. | .invalidIdentity ..
  | .unknownIdentity .. | .validationRejected .. => .client
  | .uninitializable .. | .coercion .. | .configuration .. | .serialization .. => .fatal

/-- Whether the sender of the payload is at fault. -/
def isClient (e : MergeError) : Bool := e.errorClass == .client

/-- The path that an error points at, if it has one. -/
def path? : MergeError → Option Path
  | .malformedInput .. | .serialization .. => none
  | .structuralMismatch path .. | .typeMismatch path .. | .invalidIdentity path ..
  | .unknownIdentity path .. | .validationRejected path .. | .uninitializable path ..
  | .coercion path .. | .configuration path .. => some path

end MergeError

end SelectiveMerge
