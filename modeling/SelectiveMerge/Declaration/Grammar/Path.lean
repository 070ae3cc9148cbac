import SelectiveMerge.Declaration.Grammar.Attribute

/-!
# The grammar of paths

A path is a row of names with `::` between them, each of which may have arguments in
angle brackets. It may begin with a type in angle brackets to which the names belong.

* `Grammar.path` — reads a path of names
* `Grammar.qualifiedPath` — reads a path that may begin with a type
-/

namespace SelectiveMerge.Declaration

/-- The path that begins with something and has some names. -/
abbrev PathParts := String × List PathSegment

/-- The text of a path. -/
def PathParts.text (parts : PathParts) : String := (TypeExpr.path parts.1 parts.2).text

/-- Whether all names of a path stand without arguments. -/
def PathParts.isPlain (parts : PathParts) : Bool :=
  parts.2.all fun s =>
    match s.arguments with
    | .none => true
    | .angled .. => false

/-- Whether a path begins with a type in angle brackets. -/
def PathParts.isQualified (parts : PathParts) : Bool := parts.1.toList.head? == some '<'

/-- Whether there are no arguments, or none between the angle brackets. -/
def Arguments.isEmpty : Arguments → Bool
  | .none => true
  | .angled _ arguments _ => arguments.isEmpty

namespace Grammar

open TokenReader Peek

/-! ## Arguments -/

/-- Reads a constant argument: a literal, a name, or a block. -/
def constantArgument (inner : Inner) : TokenReader String := do
  if ← sees literal then return (← literalToken).2
  else if ← sees name then identifier
  else if ← sees (group .brace) then attributedBlock inner
  else complain .unexpected

/-- The name that a type is, when it is one name with nothing before it. -/
def singleName : TypeExpr → Option PathSegment
  | .path "" [s] => some s
  | _ => none

/-- Reads bounds joined with plus signs, stopping where a test holds. -/
def boundsUntil (inner : Inner) (stop : Peek) : TokenReader String :=
  joinedUntil "+" stop do return (← inner.bound ⟨false, true⟩).text

/-- Whether a constant comes next that is no name. -/
def startsConstant : Peek := fun ts => literal ts || group .brace ts

/-- Reads an argument in angle brackets. -/
def argument (inner : Inner) : TokenReader Argument := do
  if ← sees fun ts => lifetime ts && !second (mark "+") ts then return .lifetime (← lifetimeText)
  else if ← sees startsConstant then return .other (← constantArgument inner)
  else
    let type ← inner.typeExpr true
    match singleName type with
    | none => return .type type
    | some segment =>
        if ← takes "=" then
          if ← sees startsConstant then
            return .other (segment.text ++ "=" ++ (← constantArgument inner))
          else return .other (segment.text ++ "=" ++ (← inner.type))
        else if ← takes ":" then
          let bounds ← boundsUntil inner fun ts => mark "," ts || mark ">" ts
          return .other (segment.text ++ ":" ++ bounds)
        else return .type type

/-- Reads arguments in angle brackets, perhaps after `::`. -/
def arguments (inner : Inner) : TokenReader Arguments := do
  let afterColons ← takes "::"
  let _ ← punct "<"
  let (found, trailingComma) ← repeatStep (fun (found, comma) => do
    if ← sees (mark ">") then return ((found, comma), false)
    let found := found ++ [← argument inner]
    if ← sees (mark ">") then return ((found, false), false)
    let _ ← punct ","
    return ((found, true), true)) (([] : List Argument), false)
  let _ ← punct ">"
  return .angled afterColons found trailingComma

/-! ## Paths -/

/-- Reads a name of a path with its arguments. In an expression, arguments stand only
after `::`. -/
def segment (inner : Inner) (inExpression : Bool) : TokenReader PathSegment := do
  if ← sees (oneOf ["super", "self", "crate", "try"]) then return .mk (← anyWord) .none
  else
    let name ← if ← sees (word "Self") then anyWord else identifier
    let angle ← sees fun ts => mark "<" ts && !mark "<=" ts && !mark "<<=" ts
    let colons ← sees fun ts => mark "::" ts && third (mark "<") ts
    if (!inExpression && angle) || colons then return .mk name (← arguments inner)
    else return .mk name .none

/-- Reads further names of a path, each after `::`. -/
def furtherSegments (inner : Inner) (inExpression : Bool) (segments : List PathSegment) :
    TokenReader (List PathSegment) :=
  repeatStep (fun segments => do
    if ← sees fun ts => mark "::" ts && !third (group .paren) ts then
      let _ ← punct "::"
      return (segments ++ [← segment inner inExpression], true)
    else return (segments, false)) segments

/-- Reads a path of names. -/
def path (inner : Inner) (inExpression : Bool) : TokenReader PathParts := do
  let start ← optionalMark "::"
  let first ← segment inner inExpression
  return (start, ← furtherSegments inner inExpression [first])

/-- Reads a path that may begin with a type in angle brackets, perhaps as a trait. -/
def qualifiedPath (inner : Inner) (inExpression : Bool) : TokenReader PathParts := do
  if ← sees (mark "<") then
    let start ← texts [punct "<", inner.type,
      ifSees (word "as") (texts [keyword "as", do return (← path inner false).text]),
      punct ">", punct "::"]
    let segments ← repeatStep (fun segments => do
      let segments := segments ++ [← segment inner inExpression]
      return (segments, ← takes "::")) []
    return (start, segments)
  else path inner inExpression

/-- Whether a path that was read is the name of a macro: an exclamation mark follows
that begins no operator. -/
def callsMacro : Peek := fun ts => mark "!" ts && !mark "!=" ts

/-- Reads the exclamation mark and the group of a macro. -/
def macroTail : TokenReader String := texts [punct "!", groupText]

end Grammar

end SelectiveMerge.Declaration
