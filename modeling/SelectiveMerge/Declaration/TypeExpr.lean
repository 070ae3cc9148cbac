import SelectiveMerge.Declaration.Token

/-!
# Type expressions

The declared type of a field. What matters about it is the path that it is, if it is
one: the names, and the arguments in angle brackets. Of every other type expression
only the text is kept.

* `TypeExpr.text` — the text of a type expression without blanks
* `TypeExpr.name` — the last name of a path
-/

namespace SelectiveMerge.Declaration

mutual

/-- A type expression. -/
inductive TypeExpr where
  /-- A path; `start` is what stands before its first name. -/
  | path (start : String) (segments : List PathSegment)
  /-- A single bound on a trait, other than a path, perhaps in parentheses. -/
  | bound (parenthesized : Bool) (trait : String)
  /-- Any other type expression, by its text. -/
  | other (text : String)

/-- A name on a path, with its arguments. -/
inductive PathSegment where
  | mk (name : String) (arguments : Arguments)

/-- The arguments of a name. -/
inductive Arguments where
  | none
  /-- Arguments in angle brackets, perhaps after `::` and with a comma at the end. -/
  | angled (afterColons : Bool) (arguments : List Argument) (trailingComma : Bool)

/-- An argument in angle brackets. -/
inductive Argument where
  | lifetime (text : String)
  | type (type : TypeExpr)
  /-- A constant, a binding of an associated type, or a bound on one. -/
  | other (text : String)

end

instance : Inhabited TypeExpr := ⟨.other ""⟩

namespace Argument

/-- Whether an argument is a lifetime. -/
def isLifetime : Argument → Bool
  | .lifetime _ => true
  | _ => false

end Argument

/-- Things in a row. Each has a comma after it, except that the one that was last
in the source has one only if the source had it there; where that one does not stand
last any more, a comma is put in front of the next. -/
def joinWithCommas : Bool → List (String × Bool) → String
  | _, [] => ""
  | separated, (text, comma) :: rest =>
      (if separated then "" else ",") ++ text ++ (if comma then "," else "") ++
        joinWithCommas comma rest

/-- The text of arguments or parameters: the lifetimes come first. Of each it is given
whether it is a lifetime, its text, and whether a comma stood after it. -/
def lifetimesFirst (items : List (Bool × String × Bool)) : String :=
  joinWithCommas true ((items.filter (·.1) ++ items.filter (!·.1)).map (·.2))

mutual

/-- The text of a type expression. -/
def TypeExpr.text : TypeExpr → String
  | .path start segments => start ++ String.intercalate "::" (segmentTexts segments)
  | .bound parenthesized trait => if parenthesized then "(" ++ trait ++ ")" else trait
  | .other text => text

/-- The texts of the names of a path. -/
def segmentTexts : List PathSegment → List String
  | [] => []
  | s :: segments => s.text :: segmentTexts segments

/-- The text of a name with its arguments. -/
def PathSegment.text : PathSegment → String
  | .mk name arguments => name ++ arguments.text

/-- The text of arguments: the lifetimes come first. -/
def Arguments.text : Arguments → String
  | .none => ""
  | .angled afterColons arguments trailingComma =>
      (if afterColons then "::<" else "<") ++
        lifetimesFirst (argumentTexts trailingComma arguments) ++ ">"

/-- The texts of arguments: whether each is a lifetime, and has a comma after it. -/
def argumentTexts (trailingComma : Bool) : List Argument → List (Bool × String × Bool)
  | [] => []
  | [a] => [(a.isLifetime, a.text, trailingComma)]
  | a :: b :: arguments =>
      (a.isLifetime, a.text, true) :: argumentTexts trailingComma (b :: arguments)

/-- The text of an argument. -/
def Argument.text : Argument → String
  | .lifetime text => text
  | .type type => type.text
  | .other text => text

end

namespace PathSegment

/-- The name. -/
def name : PathSegment → String
  | .mk name _ => name

/-- The arguments. -/
def arguments : PathSegment → Arguments
  | .mk _ arguments => arguments

end PathSegment

/-- The last name of a path. -/
def TypeExpr.name? : TypeExpr → Option String
  | .path _ segments => segments.getLast?.map PathSegment.name
  | _ => none

/-- The last name of a path; no other type expression has a name. -/
def TypeExpr.name (t : TypeExpr) : String := t.name?.getD "Unknown"

end SelectiveMerge.Declaration
