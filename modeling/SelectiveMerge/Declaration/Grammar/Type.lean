import SelectiveMerge.Declaration.Grammar.Bound

/-!
# The grammar of types

A type is a path, bounds, a function, a tuple, a pointer, or a few other forms. Where
bounds may be joined with plus signs, a path is the first of the bounds that follow.

* `Grammar.typeExpr` — reads a type
-/

namespace SelectiveMerge.Declaration.Grammar

open TokenReader Peek

/-! ## Functions -/

/-- Whether a literal text comes next. -/
def startsText : Peek := literalOf fun kind =>
  match kind with
  | .text _ => true
  | _ => false

/-- Reads the calling convention of a function, if one is given. -/
def convention : TokenReader String :=
  ifSees (word "extern") (texts [keyword "extern", ifSees startsText literalText])

/-- Whether a name or an underscore comes next. -/
def nameOrBlank : Peek := fun ts => name ts || word "_" ts

/-- Whether dots for further inputs come next, perhaps after a name. -/
def startsDots : Peek := fun ts =>
  mark "..." ts || (nameOrBlank ts && second (mark ":") ts && third (mark "...") ts)

/-- Reads dots for further inputs, perhaps after a name. -/
def dots : TokenReader String :=
  texts [ifSees nameOrBlank (texts [anyWord, punct ":"]), punct "...", optionalMark ","]

/-- Reads an input of a function type. The first one may be a receiver; of one that may
be changed, the source is kept. -/
def functionInput (inner : Inner) (first : Bool) : TokenReader String := do
  let named : Peek := fun ts =>
    (nameOrBlank ts || (first && word "self" ts)) &&
      second (fun us => mark ":" us && !mark "::" us) ts
  let input := texts [ifSees named (texts [anyWord, punct ":"]), inner.type]
  if first && (← sees fun ts => word "mut" ts && second (word "self") ts) then
    verbatim (texts [keyword "mut", input])
  else input

/-- Reads the inputs of a function type up to the end. -/
def functionInputs (inner : Inner) : TokenReader String :=
  repeatStep (fun text => do
    if ← atEnd then return (text, false)
    let attributes ← outerAttributes inner
    if ← sees startsDots then return (text ++ attributes ++ (← dots), false)
    let text := text ++ attributes ++ (← functionInput inner text.isEmpty)
    if ← atEnd then return (text, false)
    return (text ++ (← punct ","), true)) ""

/-- Reads the output of a function, if one is given. -/
def output (type : TokenReader String) : TokenReader String :=
  ifSees (mark "->") (texts [punct "->", type])

/-- Reads a function type. -/
def functionType (inner : Inner) : TokenReader String :=
  texts [optionalWord "unsafe", convention, keyword "fn", inside .paren (functionInputs inner),
    output inner.typeWithoutPlus]

/-! ## Bounds as types -/

/-- Reads bounds of which one has to be a trait. -/
def traitBounds (inner : Inner) (plus : Bool) (rules : BoundRules) (complaint : Complaint) :
    TokenReader String := do
  let found ← bounds inner plus rules
  if found.hasTrait then return found.text else reject complaint

/-- The bounds of an object type: neither captures nor constants. -/
def objectBounds (inner : Inner) (plus : Bool) : TokenReader String :=
  traitBounds inner plus ⟨false, false⟩ .objectWithoutTrait

/-- Reads an object type. Of one with a star, the source is kept. -/
def objectType (inner : Inner) (plus : Bool) : TokenReader String := do
  let starred ← sees (second (mark "*"))
  let (text, source) ←
    withSource (texts [keyword "dyn", optionalMark "*", objectBounds inner plus])
  return if starred then source else text

/-- Reads further bounds for as long as a plus sign follows. -/
def furtherBounds (inner : Inner) (text : String) : TokenReader String :=
  repeatStep (fun text => do
    if ← takes "+" then return (text ++ "+" ++ (← inner.bound ⟨false, false⟩).text, true)
    else return (text, false)) text

/-- Reads further bounds for as long as a plus sign follows; one may stand last. -/
def openBounds (inner : Inner) (text : String) : TokenReader String :=
  repeatStep (fun text => do
    if ← takes "+" then
      if ← sees startsBound then
        return (text ++ "+" ++ (← inner.bound ⟨false, false⟩).text, true)
      else return (text ++ "+", false)
    else return (text, false)) text

/-! ## Parentheses -/

/-- What stands in parentheses in place of a type. -/
inductive Parenthesized where
  /-- A tuple, or bounds that begin with a lifetime. -/
  | closed (text : String)
  /-- A relaxed bound. -/
  | relaxed (trait : String)
  | single (type : TypeExpr)

/-- Reads the content of parentheses in place of a type. -/
def parenthesizedContent (inner : Inner) : TokenReader Parenthesized := do
  if ← atEnd then return .closed ""
  else if ← sees lifetime then return .closed (← objectBounds inner true)
  else if ← sees (mark "?") then return .relaxed (← traitBound inner false).2
  else
    let first ← inner.typeExpr true
    if ← takes "," then return .closed (first.text ++ "," ++ (← commaSeparated inner.type))
    else return .single first

/-- A type as a single bound, without parentheses, if it can be one. -/
def singleBound : TypeExpr → Option String
  | .path start segments =>
      if PathParts.isQualified (start, segments) then none
      else some (PathParts.text (start, segments))
  | .bound _ trait => some trait
  | .other _ => none

/-- Reads a tuple, a type in parentheses, or bounds of which the first is in
parentheses. -/
def parenthesizedType (inner : Inner) (plus : Bool) : TokenReader TypeExpr := do
  match ← content .paren (parenthesizedContent inner) with
  | .closed text => return .other ("(" ++ text ++ ")")
  | .relaxed trait =>
      if ← sees (mark "+") then return .other (← furtherBounds inner ("(" ++ trait ++ ")"))
      else return .bound true trait
  | .single type =>
      match singleBound type with
      | some trait =>
          if plus && (← sees (mark "+")) then
            return .other (← furtherBounds inner ("(" ++ trait ++ ")"))
          else return .other ("(" ++ type.text ++ ")")
      | none => return .other ("(" ++ type.text ++ ")")

/-! ## Types -/

/-- Reads a type that begins with a path. What is bound in front of a macro is lost. -/
def pathType (inner : Inner) (plus : Bool) (binder : String) : TokenReader TypeExpr := do
  let parts ← qualifiedPath inner false
  if parts.isQualified then return .path parts.1 parts.2
  else if parts.isPlain && (← sees callsMacro) then return .other (parts.text ++ (← macroTail))
  else if plus && (← sees (mark "+")) then
    return .other (← openBounds inner (binder ++ parts.text))
  else if binder.isEmpty then return .path parts.1 parts.2
  else return .bound false (binder ++ parts.text)

/-- Whether a call of something built in comes next. -/
def startsBuiltin : Peek := fun ts => word "builtin" ts && second (mark "#") ts

/-- Reads a call of something built in, of which the source is kept. -/
def builtinCall : TokenReader String :=
  verbatim (texts [keyword "builtin", punct "#", identifier, inside .paren restText])

/-- Reads a pointer type. -/
def pointerType (inner : Inner) : TokenReader String :=
  texts [punct "*",
    choose [(word "const", anyWord), (word "mut", anyWord)] (expected ["`const`", "`mut`"]),
    inner.typeWithoutPlus]

/-- Reads a reference type. -/
def referenceType (inner : Inner) : TokenReader String :=
  texts [punct "&", optionalLifetime, optionalWord "mut", inner.typeWithoutPlus]

/-- Reads an array type or a slice type. -/
def sequenceType (inner : Inner) : TokenReader String :=
  inside .bracket (texts [inner.type, ifSees (mark ";") (texts [punct ";", inner.expression])])

/-- What a type may begin with. -/
def typeStarts : List String :=
  ["`for`", "parentheses", "`fn`", "`unsafe`", "`extern`", "identifier", "`::`", "`<`", "`dyn`",
    "square brackets", "`*`", "`&`", "`!`", "`impl`", "`_`", "lifetime"]

/-- What may follow parameters that are bound in front of a type. -/
def boundTypeStarts : List String :=
  ["identifier", "`fn`", "`unsafe`", "`extern`", "`super`", "`self`", "`Self`", "`crate`"]

/-- Reads a type; `plus` says whether bounds may be joined with `+`. -/
def typeExpr (inner : Inner) (plus : Bool) : TokenReader TypeExpr := do
  let binder ← optionalBinder inner
  let startsFunction : Peek := oneOf ["fn", "unsafe", "extern"]
  if !binder.isEmpty && !(← sees fun ts => startsPath ts || startsFunction ts) then
    expected boundTypeStarts
  else
    let asText (reader : TokenReader String) : TokenReader TypeExpr := do
      return .other (← reader)
    choose
      [(group .paren, parenthesizedType inner plus),
        (startsFunction, asText (texts [pure binder, functionType inner])),
        (startsBuiltin, asText (texts [pure binder, builtinCall])),
        (fun ts => startsPath ts || mark "::" ts || mark "<" ts, pathType inner plus binder),
        (word "dyn", asText (objectType inner plus)),
        (group .bracket, asText (sequenceType inner)),
        (mark "*", asText (pointerType inner)),
        (mark "&", asText (referenceType inner)),
        (mark "!", asText (punct "!")),
        (word "impl", asText (texts [keyword "impl",
          traitBounds inner plus ⟨true, true⟩ .implementorWithoutTrait])),
        (word "_", asText anyWord),
        (lifetime, asText (objectBounds inner true))]
      (expected typeStarts)

end SelectiveMerge.Declaration.Grammar
