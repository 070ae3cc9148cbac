import SelectiveMerge.Declaration.Grammar.Path

/-!
# The grammar of bounds and parameters

A bound is a trait, a lifetime, or a list of captured parameters. Parameters in angle
brackets are lifetimes, types and constants; they are declared by a definition or
bound in front of a type. Conditions bound types and lifetimes after `where`.

* `Grammar.bound` — reads a bound
* `Grammar.parameters` — reads parameters in angle brackets
* `Grammar.conditions` — reads conditions
-/

namespace SelectiveMerge.Declaration.Grammar

open TokenReader Peek

/-! ## Parameters -/

/-- Bounds after a colon; without bounds there is no colon either. -/
def afterColon (bounds : String) : String := if bounds.isEmpty then "" else ":" ++ bounds

/-- Reads lifetimes joined with plus signs, stopping where a test holds. -/
def lifetimesUntil (stop : Peek) : TokenReader String := joinedUntil "+" stop lifetimeText

/-- Reads a lifetime as a parameter, with its bounds. -/
def lifetimeParameter : TokenReader String := do
  let name ← lifetimeText
  if ← takes ":" then
    let bounds ← lifetimesUntil fun ts => ts.isEmpty || mark "," ts || mark ">" ts
    return name ++ afterColon bounds
  else return name

/-- Reads a type as a parameter, with its bounds and its default. -/
def typeParameter (inner : Inner) : TokenReader String := do
  let name ← identifier
  let bounds ←
    if ← takes ":" then
      boundsUntil inner fun ts => ts.isEmpty || mark "," ts || mark ">" ts || mark "=" ts
    else pure ""
  let default ← ifSees (mark "=") (texts [punct "=", inner.type])
  return name ++ afterColon bounds ++ default

/-- Reads a constant as a parameter, with its type and its default. -/
def constantParameter (inner : Inner) : TokenReader String :=
  texts [keyword "const", identifier, punct ":", inner.type,
    ifSees (mark "=") (texts [punct "=", constantArgument inner])]

/-- Reads a parameter that is bound in front of a type. -/
def boundParameter (inner : Inner) : TokenReader String := do
  let attributes ← outerAttributes inner
  if ← sees name then return attributes ++ (← typeParameter inner)
  else if ← sees lifetime then return attributes ++ (← lifetimeParameter)
  else if ← sees (word "const") then return attributes ++ (← constantParameter inner)
  else expected ["identifier", "lifetime", "`const`"]

/-- Reads parameters that are bound in front of a type. -/
def binder (inner : Inner) : TokenReader String :=
  texts [keyword "for", punct "<", separatedUntil "," (mark ">") (boundParameter inner), punct ">"]

/-- Reads parameters that are bound in front of a type, if there are any. -/
def optionalBinder (inner : Inner) : TokenReader String := ifSees (word "for") (binder inner)

/-- Reads a parameter of a definition: whether it is a lifetime, and its text. -/
def declaredParameter (inner : Inner) : TokenReader (Bool × String) := do
  let attributes ← outerAttributes inner
  if ← sees lifetime then return (true, attributes ++ (← lifetimeParameter))
  else if ← sees name then return (false, attributes ++ (← typeParameter inner))
  else if ← sees (word "const") then return (false, attributes ++ (← constantParameter inner))
  else if ← sees (word "_") then return (false, attributes ++ (← anyWord))
  else expected ["lifetime", "identifier", "`const`"]

/-- The parameters of a definition, as they were read. -/
structure Parameters where
  /-- Whether there are angle brackets at all. -/
  bracketed : Bool
  /-- Of each, whether it is a lifetime, its text, and whether a comma follows. -/
  items : List (Bool × String × Bool)

/-- The text of the parameters of a definition: lifetimes come first. -/
def Parameters.text (ps : Parameters) : String :=
  if ps.items.isEmpty then "" else "<" ++ lifetimesFirst ps.items ++ ">"

/-- Reads the parameters of a definition, if there are any. -/
def parameters (inner : Inner) : TokenReader Parameters := do
  if ← takes "<" then
    let items ← repeatStep (fun items => do
      if ← sees (mark ">") then return (items, false)
      let (isLifetime, text) ← declaredParameter inner
      if ← sees (mark ">") then return (items ++ [(isLifetime, text, false)], false)
      let _ ← punct ","
      return (items ++ [(isLifetime, text, true)], true)) []
    let _ ← punct ">"
    return ⟨true, items⟩
  else return ⟨false, []⟩

/-! ## Bounds -/

/-- Reads an input of a function trait. -/
def parenthesizedArguments (inner : Inner) : TokenReader String :=
  texts [inside .paren (commaSeparated inner.type),
    ifSees (mark "->") (texts [punct "->", inner.typeWithoutPlus])]

/-- Reads a word that makes a bound constant, if there is one: whether there is. -/
def constantMark (allowed : Bool) : TokenReader Bool := do
  if ← sees (group .bracket) then
    let _ ← inside .bracket (keyword "const")
    if allowed then return true else reject (.misplacedConstant "[const]")
  else if ← sees (word "const") then
    skip 1
    if allowed then return true else reject (.misplacedConstant "const")
  else return false

/-- Reads a trait as a bound: whether it is made constant, and its text otherwise. -/
def traitBound (inner : Inner) (allowConstant : Bool) : TokenReader (Bool × String) := do
  let binderBefore ← optionalBinder inner
  let constant ← constantMark allowConstant
  let relaxed ← optionalMark "?"
  let binderAfter ←
    if binderBefore.isEmpty && !relaxed.isEmpty then optionalBinder inner else pure ""
  let binder := binderBefore ++ binderAfter
  let (start, segments) ← path inner false
  let lastEmpty := segments.getLast?.any fun s => s.arguments.isEmpty
  let called ← sees fun ts =>
    group .paren ts || (mark "::" ts && third (group .paren) ts)
  let name ←
    if lastEmpty && called then do
      let _ ← optionalMark "::"
      let bare := segments.dropLast ++ (segments.getLast?.toList.map fun s => .mk s.name .none)
      pure (PathParts.text (start, bare) ++ (← parenthesizedArguments inner))
    else pure (PathParts.text (start, segments))
  if !binder.isEmpty && !relaxed.isEmpty then reject .bindingWithRelaxation
  else return (constant, relaxed ++ binder ++ name)

/-- Reads the parameters that are captured. -/
def capture : TokenReader String := do
  let _ ← keyword "use"
  let _ ← punct "<"
  let items ← repeatStep (fun items => do
    if ← sees (mark ">") then return (items, false)
    let isLifetime ← sees lifetime
    let text ←
      if isLifetime then lifetimeText
      else if ← sees fun ts => name ts || word "Self" ts then anyWord
      else expected ["lifetime", "identifier", "`>`"]
    if ← takes "," then return (items ++ [(isLifetime, text, true)], true)
    else if ← sees (mark ">") then return (items ++ [(isLifetime, text, false)], false)
    else expected ["`,`", "`>`"]) []
  let _ ← punct ">"
  return "use<" ++ lifetimesFirst items ++ ">"

/-- Reads a bound. Of one that is made constant, the source is kept. -/
def bound (inner : Inner) (rules : BoundRules) : TokenReader Bound := do
  if ← sees lifetime then
    let text ← lifetimeText
    return ⟨.lifetime, text, text, false⟩
  else if ← sees (word "use") then
    let text ← capture
    if rules.capture then return ⟨.capture, text, text, false⟩ else reject .misplacedCapture
  else
    let parenthesized ← sees (group .paren)
    let ((constant, bare), source) ← withSource
      (if parenthesized then content .paren (traitBound inner rules.constant)
       else traitBound inner rules.constant)
    if constant then return ⟨.trait, source, source, false⟩
    else return ⟨.trait, if parenthesized then "(" ++ bare ++ ")" else bare, bare, parenthesized⟩

/-- Whether a bound may go on after a plus sign. -/
def startsBound : Peek := fun ts =>
  someWord ts || mark "::" ts || mark "?" ts || lifetime ts || group .paren ts

/-- Bounds that were read: in order, and whether a plus sign stands last. -/
structure Bounds where
  bounds : List Bound
  trailingPlus : Bool

namespace Bounds

/-- The text of bounds. -/
def text (bs : Bounds) : String :=
  String.intercalate "+" (bs.bounds.map Bound.text) ++ (if bs.trailingPlus then "+" else "")

/-- Whether a trait is among the bounds. -/
def hasTrait (bs : Bounds) : Bool := bs.bounds.any fun b => b.sort == .trait

end Bounds

/-- Reads bounds; `plus` says whether there may be more than one. -/
def bounds (inner : Inner) (plus : Bool) (rules : BoundRules) : TokenReader Bounds :=
  repeatStep (fun bs => do
    let bs : Bounds := ⟨bs.bounds ++ [← bound inner rules], false⟩
    if plus && (← sees (mark "+")) then
      let _ ← punct "+"
      let goesOn ← sees fun ts =>
        startsBound ts || (rules.constant && (group .bracket ts || word "const" ts))
      return (⟨bs.bounds, true⟩, goesOn)
    else return (bs, false)) ⟨[], false⟩

/-! ## Conditions -/

/-- Whether parameters in angle brackets come next, and not a type in them. -/
def startsParameters : Peek := fun ts =>
  mark "<" ts &&
    (second (mark ">") ts || second (mark "#") ts || second (word "const") ts ||
      ((second lifetime ts || second name ts) &&
        third (fun us => mark ">" us || mark "," us || (mark ":" us && !mark "::" us) ||
          mark "=" us) ts))

/-- Whether conditions end here. -/
def endsConditions : Peek := fun ts =>
  ts.isEmpty || group .brace ts || mark "," ts || mark ";" ts ||
    (mark ":" ts && !mark "::" ts) || mark "=" ts

/-- Reads a condition. -/
def condition (inner : Inner) : TokenReader String := do
  if ← sees fun ts => lifetime ts && second (mark ":") ts then
    texts [lifetimeText, punct ":",
      lifetimesUntil fun ts => endsConditions ts || mark ":" ts]
  else texts [optionalBinder inner, inner.type, punct ":", boundsUntil inner endsConditions]

/-- Reads the conditions of a definition. Without any, nothing of them is left. -/
def conditions (inner : Inner) : TokenReader String := do
  let _ ← keyword "where"
  if ← sees startsParameters then complain .parametersOfConditions
  let found ← joinedUntil "," endsConditions (condition inner)
  return if found.isEmpty then "" else "where" ++ found

/-- Reads the conditions of a definition, if there is a place for them. -/
def optionalConditions (inner : Inner) : TokenReader String :=
  ifSees (word "where") (conditions inner)

end SelectiveMerge.Declaration.Grammar
