import SelectiveMerge.Declaration.Token

/-!
# Faults of syntax

Why a declaration could not be read. A fault says what was expected or what is not
allowed, and whether nothing was left to read at its place.

* `SyntaxFault.message` — the wording of a fault
-/

namespace SelectiveMerge.Declaration

/-- What is wrong at a place. -/
inductive Complaint where
  /-- Something else has to stand here, and nothing particular could. -/
  | unexpected
  /-- One of these things has to stand here. -/
  | expected (things : List String)
  /-- A reserved word stands where a name has to. -/
  | reservedName (word : String)
  /-- Something is left in a group in these brackets, or at the end of the text. -/
  | leftover (enclosing : Option Delimiter)
  | statementUnfinished
  | comparisonChained
  | castContinued (continuation : String)
  | rangeWithAttribute
  | attributeAsValue
  | labelWithoutParentheses
  | openRangeInSlice
  | bindingWithRelaxation
  | misplacedConstant (written : String)
  | misplacedCapture
  | objectWithoutTrait
  | implementorWithoutTrait
  | parametersOfConditions
  | suffixOnIndex
  | indexTooGreat
  | indexNotDigits
  | secondReceiver
  | misplacedReceiver
  | negatedWithoutTrait
  deriving DecidableEq

/-- Things of which one was expected, in words. -/
def alternatives : List String → String
  | [] => "nothing"
  | [a] => a
  | [a, b] => a ++ " or " ++ b
  | things => "one of: " ++ String.intercalate ", " things

/-- The wording of a complaint. -/
def Complaint.message : Complaint → String
  | .unexpected => "unexpected token"
  | .expected things => "expected " ++ alternatives things
  | .reservedName word => "expected identifier, found keyword `" ++ word ++ "`"
  | .leftover none => "unexpected token"
  | .leftover (some d) => "unexpected token, expected `" ++ d.closing ++ "`"
  | .statementUnfinished => "unexpected token, expected `;`"
  | .comparisonChained => "comparison operators cannot be chained"
  | .castContinued continuation => "casts cannot be followed by " ++ continuation
  | .rangeWithAttribute => "attributes are not allowed on range expressions starting with `..`"
  | .attributeAsValue => "unexpected attribute inside of attribute"
  | .labelWithoutParentheses => "parentheses required"
  | .openRangeInSlice =>
      "range pattern is not allowed unparenthesized inside slice pattern"
  | .bindingWithRelaxation =>
      "`for<...>` binder not allowed with `?` trait polarity modifier"
  | .misplacedConstant written => "`" ++ written ++ "` is not allowed here"
  | .misplacedCapture => "`use<...>` precise capturing syntax is not allowed here"
  | .objectWithoutTrait => "at least one trait is required for an object type"
  | .implementorWithoutTrait => "at least one trait must be specified"
  | .parametersOfConditions =>
      "generic parameters on `where` clauses are reserved for future use"
  | .suffixOnIndex => "expected unsuffixed integer"
  | .indexTooGreat => "number too large to fit in target type"
  | .indexNotDigits => "invalid digit found in string"
  | .secondReceiver => "unexpected second method receiver"
  | .misplacedReceiver => "unexpected method receiver"
  | .negatedWithoutTrait => "inherent impls cannot be negative"

/-- A complaint, and whether it was raised where nothing was left to read. -/
structure SyntaxFault where
  atEnd : Bool
  complaint : Complaint
  deriving DecidableEq

/-- The wording of a fault. -/
def SyntaxFault.message (fault : SyntaxFault) : String :=
  if fault.atEnd then
    match fault.complaint with
    | .unexpected => "unexpected end of input"
    | complaint => "unexpected end of input, " ++ complaint.message
  else fault.complaint.message

end SelectiveMerge.Declaration
