import SelectiveMerge.Declaration.Grammar.Body
import SelectiveMerge.Declaration.Grammar.Statement

/-!
# The grammar of definitions

Definitions stand among the statements of a block: functions, constants, types,
modules, traits, implementations and macros. A definition in one of the less usual
forms is kept as it stands in the source.

* `Grammar.definition` — reads a definition with its attributes
-/

namespace SelectiveMerge.Declaration.Grammar

open TokenReader Peek

/-- A definition: its text, and whether its source is kept instead. -/
abbrev Definition := String × Bool

/-- Reads a definition of which the source is never kept. -/
def plain (readers : List (TokenReader String)) : TokenReader Definition := do
  return (← texts readers, false)

/-- Reads a definition of which the source is always kept. -/
def kept (readers : List (TokenReader String)) : TokenReader Definition := do
  return (← texts readers, true)

/-- Reads a definition: its text, or its source where that is kept. -/
def sourceOrText (reader : TokenReader Definition) : TokenReader String := do
  let ((text, keepSource), source) ← withSource reader
  return if keepSource then source else text

/-- What trees are left after the visibility, if it can be read. -/
def treesAfterVisibility : TokenReader (List TokenTree) := do
  match ← treesAfter visibility with
  | some ts => return ts
  | none =>
      let _ ← visibility
      giveUp

/-! ## Functions -/

/-- Trees without a certain word in front. -/
def withoutWord (w : String) (ts : List TokenTree) : List TokenTree :=
  if word w ts then ts.drop 1 else ts

/-- Trees without a calling convention in front. -/
def withoutConvention (ts : List TokenTree) : List TokenTree :=
  if word "extern" ts then (if second startsText ts then ts.drop 2 else ts.drop 1) else ts

/-- Whether the head of a function comes next; `safe` says whether it may be called
safe. -/
def startsFunction (safe : Bool) : Peek := fun ts =>
  let ts := withoutWord "async" (withoutWord "const" ts)
  let ts := if safe && word "safe" ts then ts.drop 1 else withoutWord "unsafe" ts
  word "fn" (withoutConvention ts)

/-- Reads the receiver of a method. -/
def receiver (inner : Inner) : TokenReader String := do
  let reference ← ifSees (mark "&") (texts [punct "&", optionalLifetime])
  let name ← texts [optionalWord "mut", keyword "self"]
  let type ←
    if reference.isEmpty then ifSees (mark ":") (texts [punct ":", inner.type]) else pure ""
  return reference ++ name ++ type

/-- The sorts of parameters of a function. -/
inductive FunctionParameter where
  | receiver
  | value
  /-- Dots for all that follow. -/
  | dots
  deriving DecidableEq

/-- Reads a parameter of a function without its attributes. A type with arguments may
stand without a name. -/
def functionParameter (inner : Inner) : TokenReader (FunctionParameter × String) := do
  if ← sees (mark "...") then return (.dots, ← punct "...")
  else
    match ← attempt (receiver inner) with
    | some text => return (.receiver, text)
    | none =>
        if ← sees fun ts => name ts && second (mark "<") ts then
          return (.value, "_:" ++ (← inner.type))
        else
          let name ← texts [do return (← inner.pattern).text, punct ":"]
          if ← takes "..." then return (.dots, name ++ "...")
          else return (.value, name ++ (← inner.type))

/-- Reads the parameters of a function. Only the first one may be a receiver. -/
def functionParameters (inner : Inner) : TokenReader String := do
  let (text, _) ← repeatStep (fun (text, received) => do
    if ← atEnd then return ((text, received), false)
    else
      let attributes ← outerAttributes inner
      let (sort, parameter) ← functionParameter inner
      if sort = .receiver && received then reject .secondReceiver
      else if sort = .receiver && !text.isEmpty then reject .misplacedReceiver
      else
        let text := text ++ attributes ++ parameter
        let comma ← if ← atEnd then pure "" else punct ","
        return ((text ++ comma, received || sort = .receiver), sort ≠ .dots && !comma.isEmpty))
    ("", false)
  return text

/-- Reads the head of a function; `safe` says whether it may be called safe. -/
def functionHead (inner : Inner) (safe : Bool) : TokenReader String :=
  texts [optionalWord "const", optionalWord "async",
    if safe then choose [(word "safe", anyWord)] (optionalWord "unsafe")
    else optionalWord "unsafe",
    convention, keyword "fn", identifier, do return (← parameters inner).text,
    inside .paren (functionParameters inner), output inner.type, optionalConditions inner]

/-- Reads a function with its body. Of one without a body the source is kept. -/
def functionDefinition (inner : Inner) : TokenReader Definition := do
  let front ← texts [visibility, optionalWord "default", functionHead inner false]
  if ← takes ";" then return (front ++ ";", true)
  else return (front ++ (← attributedBlock inner), false)

/-! ## Constants and names of types -/

/-- Reads the name and the parameters of a definition. -/
def parameterizedName (inner : Inner) : TokenReader String :=
  texts [identifier, do return (← parameters inner).text]

/-- Reads a constant. With parameters or conditions, and without a value where it needs
one, its source is kept. Where no value is needed, functions were expected as well. -/
def constantDefinition (inner : Inner) (needsValue : Bool) : TokenReader Definition := do
  let front ← texts [visibility, optionalWord "default", keyword "const",
    choose [(nameOrBlank, anyWord)]
      (expected (["identifier", "`_`"] ++
        if needsValue then [] else ["`async`", "`unsafe`", "`extern`", "`fn`"]))]
  let ps ← parameters inner
  let type ← texts [punct ":", inner.type]
  let value ← ifSees (mark "=") (texts [punct "=", inner.expression])
  let conditional ← sees (word "where")
  let conditions ← optionalConditions inner
  let text := front ++ ps.text ++ type ++ value ++ conditions ++ (← punct ";")
  return (text, ps.bracketed || conditional || (needsValue && value.isEmpty))

/-- Reads a static value. Without a type or a value its source is kept. -/
def staticDefinition (inner : Inner) : TokenReader Definition := do
  let front ← texts [visibility, keyword "static", optionalWord "mut", identifier]
  if ← sees (mark "=") then
    return (front ++ (← texts [punct "=", inner.expression, punct ";"]), true)
  else
    let typed := front ++ (← texts [punct ":", inner.type])
    if ← takes ";" then return (typed ++ ";", true)
    else return (typed ++ (← texts [punct "=", inner.expression, punct ";"]), false)

/-- Reads bounds with plus signs between them up to where a test holds. -/
def boundsUpTo (inner : Inner) (stop : Peek) : TokenReader String :=
  separatedUntil "+" stop do return (← inner.bound ⟨false, true⟩).text

/-- Reads bounds after a colon, stopping where a test holds. -/
def boundsAfterColon (inner : Inner) (stop : Peek) : TokenReader String := do
  if ← takes ":" then return afterColon (← boundsUpTo inner stop) else return ""

/-- Where a name for a type stands. -/
inductive TypeRole where
  | standalone
  | ofTrait
  | ofImplementation
  | foreign
  deriving DecidableEq

namespace TypeRole

/-- Whether conditions may stand in front of the value. -/
def conditionsBefore (role : TypeRole) : Bool := role = .standalone || role = .foreign

/-- Whether conditions may stand after the value. -/
def conditionsAfter (role : TypeRole) : Bool := role ≠ .standalone

/-- Whether the source of a name for a type is kept. -/
def keepsSource (bounded valued : Bool) : TypeRole → Bool
  | .standalone | .ofImplementation => bounded || !valued
  | .ofTrait => false
  | .foreign => bounded || valued

end TypeRole

/-- Reads a name for a type. -/
def typeDefinition (inner : Inner) (role : TypeRole) : TokenReader Definition := do
  let front ← texts [visibility, optionalWord "default", keyword "type", parameterizedName inner]
  let bounded ← sees (mark ":")
  let bounds ← boundsAfterColon inner fun ts => word "where" ts || mark "=" ts || mark ";" ts
  let conditional ← sees (word "where")
  let before ← if role.conditionsBefore then optionalConditions inner else pure ""
  let value ← ifSees (mark "=") (texts [punct "=", inner.type])
  let mayFollow := role.conditionsAfter && !(role.conditionsBefore && conditional)
  let after ← if mayFollow then optionalConditions inner else pure ""
  let text := front ++ bounds ++ before ++ value ++ after ++ (← punct ";")
  return (text, role.keepsSource bounded !value.isEmpty)

/-! ## Imports and modules -/

/-- Reads what is imported, at most so deep. -/
def importTree : Nat → (rooted : Bool) → TokenReader String
  | 0, _ => giveUp
  | depth + 1, rooted => do
      if ← sees fun ts => name ts || oneOf ["self", "super", "crate", "try"] ts then
        let front ← anyWord
        if ← takes "::" then return front ++ "::" ++ (← importTree depth false)
        else if ← takesWord "as" then
          let rename ← choose [(name, anyWord), (word "_", anyWord)]
            (expected ["identifier", "underscore"])
          return front ++ "as" ++ rename
        else return front
      else if ← takes "*" then return "*"
      else if ← sees (group .brace) then
        inside .brace (commaSeparated do
          let root ← if rooted then optionalMark "::" else pure ""
          return root ++ (← importTree depth (rooted && root.isEmpty)))
      else expected ["identifier", "`self`", "`super`", "`crate`", "`try`", "`*`", "curly braces"]

/-- Reads an import. -/
def importDefinition : TokenReader Definition := do
  let front ← texts [visibility, keyword "use"]
  let root ← optionalMark "::"
  let depth ← look TokenTree.countAll
  return (front ++ root ++ (← importTree (depth + 1) root.isEmpty) ++ (← punct ";"), false)

/-- Reads the import of a whole library. -/
def libraryDefinition : TokenReader Definition :=
  plain [visibility, keyword "extern", keyword "crate", choose [(word "self", anyWord)] identifier,
    ifSees (word "as") (texts [keyword "as", identifierOrBlank]), punct ";"]

/-- Reads a module. -/
def moduleDefinition (inner : Inner) : TokenReader Definition :=
  plain [visibility, optionalWord "unsafe", keyword "mod",
    choose [(word "try", anyWord)] identifier,
    choose
      [(mark ";", punct ";"),
        (group .brace, inside .brace (texts [innerAttributes inner, untilEnd inner.definition]))]
      (expected ["`;`", "curly braces"])]

/-! ## Macros -/

/-- What a macro as a definition may begin with. -/
def macroStarts : List String := ["identifier", "`self`", "`super`", "`crate`", "`::`"]

/-- Whether a path of a macro comes next. -/
def startsMacroPath : Peek := fun ts =>
  name ts || oneOf ["self", "super", "crate"] ts || mark "::" ts

/-- Reads a macro as a definition, perhaps with a name. After other brackets than
braces, a semicolon stands. -/
def macroDefinition (named : Bool) : TokenReader Definition := do
  let front ← texts [plainPath, punct "!",
    if named then ifSees (fun ts => name ts || word "try" ts) anyWord else pure ""]
  let braced ← sees (group .brace)
  return (front ++ (← groupText) ++ (← if braced then pure "" else punct ";"), false)

/-- Reads a macro that is defined by its own word. -/
def ownMacroDefinition : TokenReader Definition :=
  kept [visibility, keyword "macro", identifier,
    choose
      [(group .paren, texts [groupText,
          choose [(group .brace, groupText)] (expected ["curly braces"])]),
        (group .brace, groupText)]
      (expected ["parentheses", "curly braces"])]

/-! ## Members of traits and implementations -/

/-- Reads a method of a trait, perhaps with a body. -/
def traitMethod (inner : Inner) : TokenReader Definition :=
  plain [functionHead inner false,
    choose [(group .brace, attributedBlock inner), (mark ";", punct ";")]
      (expected ["curly braces", "`;`"])]

/-- The words that a member of a trait or an implementation may begin with. -/
def memberWords : List String := ["fn", "const", "type"]

/-- Reads a member of a trait. With a visibility or a default mark its source is kept. -/
def traitMember (inner : Inner) : TokenReader String :=
  sourceOrText do
    let attributes ← outerAttributes inner
    let marks ← texts [visibility, optionalWord "default"]
    let (text, keepSource) ← choose
      [(startsFunction false, traitMethod inner),
        (word "const", constantDefinition inner false),
        (word "type", typeDefinition inner .ofTrait),
        (fun ts => marks.isEmpty && startsMacroPath ts, macroDefinition false)]
      (do expectedWordAt (← look id) memberWords (if marks.isEmpty then macroStarts else []))
    return (attributes ++ marks ++ text, keepSource || !marks.isEmpty)

/-- Reads a member of an implementation. -/
def implementationMember (inner : Inner) : TokenReader String :=
  sourceOrText do
    let attributes ← outerAttributes inner
    let ts ← treesAfterVisibility
    let overridable := word "default" ts && !second (mark "!") ts
    let unmarked := if overridable then ts.drop 1 else ts
    let macroAllowed := !overridable && !(← sees (word "pub"))
    let (text, keepSource) ←
      if startsFunction false unmarked then functionDefinition inner
      else if word "const" unmarked then constantDefinition inner true
      else if word "type" unmarked then typeDefinition inner .ofImplementation
      else if macroAllowed && startsMacroPath ts then macroDefinition false
      else
        expectedWordAt unmarked (if overridable then memberWords else "default" :: memberWords)
          (if macroAllowed then macroStarts else [])
    return (attributes ++ text, keepSource)

/-- Reads a foreign function. With a body or the safe mark its source is kept. -/
def foreignFunction (inner : Inner) : TokenReader Definition := do
  let place ← visibility
  let safe ← look fun ts => word "safe" (withoutWord "async" (withoutWord "const" ts))
  let head ← functionHead inner true
  if ← sees (group .brace) then return (place ++ head ++ (← attributedBlock inner), true)
  else return (place ++ head ++ (← punct ";"), safe)

/-- Reads a foreign static value. With a value or a mark its source is kept. -/
def foreignStatic (inner : Inner) : TokenReader Definition := do
  let place ← visibility
  let safety ← choose [(oneOf ["unsafe", "safe"], anyWord)] (return "")
  let front ← texts [keyword "static", optionalWord "mut", identifier, punct ":", inner.type]
  let value ← ifSees (mark "=") (texts [punct "=", inner.expression])
  return (place ++ safety ++ front ++ value ++ (← punct ";"), !safety.isEmpty || !value.isEmpty)

/-- Reads a member of a foreign block. -/
def foreignMember (inner : Inner) : TokenReader String :=
  sourceOrText do
    let attributes ← outerAttributes inner
    let ts ← treesAfterVisibility
    let startsStatic := word "static" ts ||
      (oneOf ["unsafe", "safe"] ts && second (word "static") ts)
    let (text, keepSource) ←
      if startsFunction true ts then foreignFunction inner
      else if startsStatic then foreignStatic inner
      else if word "type" ts then typeDefinition inner .foreign
      else if ← sees (word "pub") then expectedWordAt ts ["fn", "static", "type"] []
      else if startsMacroPath ts then macroDefinition false
      else expectedWordAt ts ["fn", "static", "type"] macroStarts
    return (attributes ++ text, keepSource)

/-- Reads members in braces, with attributes at their beginning. -/
def members (inner : Inner) (item : TokenReader String) : TokenReader String :=
  inside .brace (texts [innerAttributes inner, untilEnd item])

/-- Reads a foreign block. -/
def foreignDefinition (inner : Inner) : TokenReader Definition :=
  plain [optionalWord "unsafe", keyword "extern", ifSees startsText literalText,
    members inner (foreignMember inner)]

/-- Reads what follows the name of a trait. -/
def traitBody (inner : Inner) : TokenReader String :=
  texts [boundsAfterColon inner fun ts => word "where" ts || group .brace ts,
    optionalConditions inner, members inner (traitMember inner)]

/-- Reads a trait, or, when no marks stand in front, perhaps a name for bounds. -/
def traitDefinition (inner : Inner) : TokenReader Definition := do
  let place ← visibility
  let marks ← texts [optionalWord "unsafe", optionalWord "auto"]
  let named ← texts [keyword "trait", parameterizedName inner]
  let rest ←
    if !marks.isEmpty then traitBody inner
    else
      choose
        [(fun ts => group .brace ts || mark ":" ts || word "where" ts, traitBody inner),
          (mark "=", texts [punct "=",
            boundsUpTo inner fun ts => word "where" ts || mark ";" ts,
            optionalConditions inner, punct ";"])]
        (expected ["curly braces", "`:`", "`where`", "`=`"])
  return (place ++ marks ++ named ++ rest, false)

/-- Reads an implementation. With a visibility, of a constant trait, or for something
that is no path, its source is kept. -/
def implementationDefinition (inner : Inner) : TokenReader Definition := do
  let place ← visibility
  let front ← texts [optionalWord "default", optionalWord "unsafe", keyword "impl"]
  let ps ← if ← sees startsParameters then parameters inner else pure ⟨false, []⟩
  let constant ←
    if ← sees fun ts => word "const" ts || (mark "?" ts && second (word "const") ts) then
      texts [optionalMark "?", keyword "const"]
    else pure ""
  let negation ← ifSees (fun ts => mark "!" ts && !second (group .brace) ts) (punct "!")
  let first ← inner.typeExpr true
  let forType ← sees (word "for")
  let self ←
    if forType then texts [keyword "for", inner.type]
    else if negation.isEmpty then pure ""
    else reject .negatedWithoutTrait
  let rest ← texts [optionalConditions inner, members inner (implementationMember inner)]
  let isTrait : Bool :=
    match first with
    | .path start segments => !PathParts.isQualified (start, segments)
    | _ => false
  return (place ++ front ++ ps.text ++ constant ++ negation ++ first.text ++ self ++ rest,
    !place.isEmpty || !constant.isEmpty || (forType && !isTrait))

/-! ## Definitions -/

/-- Reads a type with a body. -/
def bodyDefinition (inner : Inner) (w : String) (body : TokenReader (ItemBody × String)) :
    TokenReader Definition :=
  plain [visibility, keyword w, parameterizedName inner, do return (← body).2]

/-- The words that a definition may begin with. -/
def definitionWords : List String :=
  ["fn", "extern", "use", "static", "const", "unsafe", "mod", "type", "struct", "enum", "union",
    "trait", "auto", "impl", "default", "macro"]

/-- Reads a definition of a sort that does not begin with the head of a function; `ts`
is what follows its visibility. -/
def otherDefinition (inner : Inner) (ts : List TokenTree) : TokenReader Definition := do
  let next := ts.drop 1
  if word "extern" ts then
    let afterText := if startsText next then next.drop 1 else next
    if word "crate" next then libraryDefinition
    else if group .brace afterText then foreignDefinition inner
    else if startsText next then expectedAt afterText ["curly braces"]
    else expectedAt next ["`crate`", "curly braces", "string literal"]
  else if word "use" ts then importDefinition
  else if word "static" ts then staticDefinition inner
  else if word "const" ts then constantDefinition inner true
  else if word "unsafe" ts then
    if word "trait" next || (word "auto" next && second (word "trait") next) then
      traitDefinition inner
    else if word "impl" next then implementationDefinition inner
    else if word "extern" next then foreignDefinition inner
    else if word "mod" next then moduleDefinition inner
    else expectedWordAt next ["trait", "auto", "impl", "extern", "mod"] []
  else if word "mod" ts then moduleDefinition inner
  else if word "type" ts then typeDefinition inner .standalone
  else if word "struct" ts then bodyDefinition inner "struct" (structureBody inner)
  else if word "enum" ts then bodyDefinition inner "enum" (enumerationBody inner)
  else if word "union" ts && name next then bodyDefinition inner "union" (unionBody inner)
  else if word "trait" ts || (word "auto" ts && word "trait" next) then traitDefinition inner
  else if word "impl" ts || (word "default" ts && !mark "!" next) then
    implementationDefinition inner
  else if word "macro" ts then ownMacroDefinition
  else
    if ← sees (word "pub") then expectedWordAt ts definitionWords []
    else if startsMacroPath ts then macroDefinition true
    else expectedWordAt ts definitionWords macroStarts

/-- Reads a definition with its attributes. -/
def definition (inner : Inner) : TokenReader String :=
  sourceOrText do
    let attributes ← outerAttributes inner
    let ts ← treesAfterVisibility
    let (text, keepSource) ←
      if startsFunction false ts then functionDefinition inner else otherDefinition inner ts
    return (attributes ++ text, keepSource)

end SelectiveMerge.Declaration.Grammar
