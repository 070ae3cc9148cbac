import SelectiveMerge.Declaration.Grammar.Pattern

/-!
# The grammar of expressions

An expression is made of operands with operators between them. An operand is an atom
with calls, members and indices after it, and perhaps marks in front of it. Where an
expression stands in front of a block, a path in it takes no fields in braces.

* `Grammar.operand` — reads an expression without operators between operands
* `Grammar.operation` — goes on after an operand
* `Grammar.boundedExpression` — reads an expression that may end after a block
-/

namespace SelectiveMerge.Declaration.Grammar

open TokenReader Peek

/-! ## Operators between operands -/

/-- The operators between two operands, in the order in which they are looked for. -/
def binaryOperators : List (String × Precedence) :=
  [("+=", .assignment), ("-=", .assignment), ("*=", .assignment), ("/=", .assignment),
    ("%=", .assignment), ("^=", .assignment), ("&=", .assignment), ("|=", .assignment),
    ("<<=", .assignment), (">>=", .assignment), ("&&", .conjunction), ("||", .disjunction),
    ("<<", .shift), (">>", .shift), ("==", .comparison), ("<=", .comparison),
    ("!=", .comparison), (">=", .comparison), ("+", .sum), ("-", .sum), ("*", .product),
    ("/", .product), ("%", .product), ("^", .bitXor), ("&", .bitAnd), ("|", .bitOr),
    ("<", .comparison), (">", .comparison)]

/-- The operator between two operands that comes next. -/
def operatorAt (ts : List TokenTree) : Option (String × Precedence) :=
  binaryOperators.find? fun o => mark o.1 ts

/-- Whether an equals sign comes next that assigns. -/
def startsAssignment : Peek := fun ts => mark "=" ts && !mark "=>" ts

/-- How tightly what comes next holds the operand in front of it. -/
def precedenceAt (ts : List TokenTree) : Precedence :=
  match operatorAt ts with
  | some (_, precedence) => precedence
  | none =>
      if startsAssignment ts then .assignment
      else if mark ".." ts then .range
      else if word "as" ts then .cast
      else .least

/-- Reads the operand on the right of an operator, with what holds it more tightly. -/
def rightOperand (inner : Inner) (braces : Bool) (precedence : Precedence) :
    TokenReader Expression := do
  let first ← inner.operand braces
  repeatStep (fun right => do
    let next ← look precedenceAt
    if next.level > precedence.level || (next = precedence && precedence = .assignment) then
      let before ← look List.length
      let right ← inner.operation braces next right
      return (right, (← look List.length) < before)
    else return (right, false)) first

/-! ## Ranges and casts -/

/-- Whether a range has no upper end here. -/
def endsRange (braces : Bool) : Peek := fun ts =>
  ts.isEmpty || (mark "." ts && !mark ".." ts) || (!braces && group .brace ts) ||
    word "as" ts ||
    [",", ";", "?", "=>", "=", "+", "/", "%", "^", ">", "<=", "!=", "-=", "*=", "&=", "|=",
      "<<="].any fun s => mark s ts

/-- Reads the dots of a range with its upper end, if there is one. -/
def rangeTail (inner : Inner) (braces : Bool) : TokenReader String := do
  if ← sees (mark "...") then expected ["`..=`"]
  else
    let closed ← sees (mark "..=")
    let dots ← punct (if closed then "..=" else "..")
    if !closed && (← sees (endsRange braces)) then return dots
    else return dots ++ (← rightOperand inner braces .range).text

/-- Whether a point comes next that begins no range. -/
def startsMember : Peek := fun ts => mark "." ts && !mark ".." ts

/-- What would follow a cast here, although nothing may. -/
def castContinuation (ts : List TokenTree) : Option String :=
  if startsMember ts then
    some
      (if second (word "await") ts then "`.await`"
       else if second name ts && third (fun us => group .paren us || mark "::" us) ts then
         "a method call"
       else "a field access")
  else if mark "?" ts then some "`?`"
  else if group .bracket ts then some "indexing"
  else if group .paren ts then some "a function call"
  else none

/-- Reads the type of a cast. -/
def castTail (inner : Inner) : TokenReader String := do
  let text ← texts [keyword "as", inner.typeWithoutPlus]
  match ← look castContinuation with
  | some continuation => complain (.castContinued continuation)
  | none => return text

/-! ## Operations -/

/-- Goes on after an operand with one operator that holds at least as tightly as
`base`, if one follows. Nothing follows a range, and comparisons do not follow each
other. -/
def operationStep (inner : Inner) (braces : Bool) (base : Precedence) (left : Expression) :
    TokenReader (Expression × Bool) := do
  if left.sort = .range then return (left, false)
  else
    match ← look operatorAt with
    | some (operator, precedence) =>
        if precedence.level < base.level then return (left, false)
        else if precedence = .comparison && left.sort = .binary .comparison then
          complain .comparisonChained
        else
          let _ ← punct operator
          let right ← rightOperand inner braces precedence
          return (⟨.binary precedence, left.text ++ operator ++ right.text⟩, true)
    | none =>
        if base.level ≤ Precedence.assignment.level && (← sees startsAssignment) then
          let _ ← punct "="
          let right ← rightOperand inner braces .assignment
          return (⟨.assign, left.text ++ "=" ++ right.text⟩, true)
        else if base.level ≤ Precedence.range.level && (← sees (mark "..")) then
          return (⟨.range, left.text ++ (← rangeTail inner braces)⟩, true)
        else if base.level ≤ Precedence.cast.level && (← sees (word "as")) then
          return (⟨.cast, left.text ++ (← castTail inner)⟩, true)
        else return (left, false)

/-- Goes on after an operand with operators that hold at least as tightly as `base`. -/
def operation (inner : Inner) (braces : Bool) (base : Precedence) (left : Expression) :
    TokenReader Expression :=
  repeatStep (operationStep inner braces base) left

/-! ## What follows an atom -/

/-- Reads what a function is called with. -/
def callArguments (inner : Inner) : TokenReader String :=
  inside .paren (commaSeparated inner.expression)

/-- Reads a member or a method after the point. -/
def memberTail (inner : Inner) (e : Expression) : TokenReader Expression := do
  if ← takesWord "await" then return ⟨.await, e.text ++ ".await"⟩
  else
    let isNamed ← sees name
    let text := e.text ++ "." ++ (← member)
    if isNamed && (← sees (mark "::")) then
      let found ← arguments inner
      return ⟨.methodCall, text ++ found.text ++ (← callArguments inner)⟩
    else if isNamed && (← sees (group .paren)) then
      return ⟨.methodCall, text ++ (← callArguments inner)⟩
    else return ⟨.field, text⟩

/-- Reads what follows a point: a member, a method, or the numbers of several members. -/
def afterPoint (inner : Inner) (e : Expression) : TokenReader Expression := do
  let _ ← punct "."
  if ← sees (literalOf (· == .float)) then
    let number ← literalText
    match membersOfDecimal number with
    | .error complaint => reject complaint
    | .ok members =>
        let e := ⟨.field, e.text ++ String.join (members.map ("." ++ ·))⟩
        if endsInPoint number then memberTail inner e else return e
  else memberTail inner e

/-- Reads what follows an atom, step by step. -/
def trailers (inner : Inner) (e : Expression) : TokenReader Expression :=
  repeatStep (fun e => do
    if ← sees (group .paren) then return (⟨.call, e.text ++ (← callArguments inner)⟩, true)
    else if e.sort ≠ .range && (← sees startsMember) then return (← afterPoint inner e, true)
    else if ← sees (group .bracket) then
      return (⟨.index, e.text ++ (← inside .bracket inner.expression)⟩, true)
    else if e.sort ≠ .range && (← sees (mark "?")) then
      return (⟨.questioned, e.text ++ (← punct "?")⟩, true)
    else return (e, false)) e

/-! ## Blocks and conditions -/

/-- Reads an expression in front of a block. -/
def headExpression (inner : Inner) : TokenReader String := do
  return (← inner.expressionWith false).text

/-- Reads conditional blocks. -/
def conditional (inner : Inner) : TokenReader String :=
  repeatStep (fun text => do
    let text := text ++ (← texts [keyword "if", headExpression inner, inner.block])
    if ← takesWord "else" then
      if ← sees (word "if") then return (text ++ "else", true)
      else if ← sees (group .brace) then return (text ++ "else" ++ (← inner.block), false)
      else expected ["`if`", "curly braces"]
    else return (text, false)) ""

/-- Reads a loop with a condition. -/
def whileLoop (inner : Inner) : TokenReader String :=
  texts [keyword "while", headExpression inner, attributedBlock inner]

/-- Reads a loop through values. -/
def forLoop (inner : Inner) : TokenReader String :=
  texts [keyword "for", alternativesText inner, keyword "in", headExpression inner,
    attributedBlock inner]

/-- Reads a loop without a condition. -/
def plainLoop (inner : Inner) : TokenReader String :=
  texts [keyword "loop", attributedBlock inner]

/-- Reads an expression of one sort. -/
def ofSort (sort : ExpressionSort) (reader : TokenReader String) : TokenReader Expression := do
  return ⟨sort, ← reader⟩

/-- Reads a loop or a block after its label. -/
def labeled (inner : Inner) : TokenReader Expression := do
  let label ← texts [lifetimeText, punct ":"]
  let e ← choose
    [(word "while", ofSort .whileLoop (whileLoop inner)),
      (word "for", ofSort .forLoop (forLoop inner)),
      (word "loop", ofSort .loop (plainLoop inner)),
      (group .brace, ofSort .block (attributedBlock inner))]
    (complain (.expected ["loop or block expression"]))
  return e.after label

/-- Whether parameters that are bound in front of a closure come next. -/
def startsBoundClosure : Peek := fun ts => word "for" ts && second startsParameters ts

/-- Reads the arms of a selection up to the end. -/
def arms (inner : Inner) : TokenReader String :=
  untilEnd do
    let front ← texts [outerAttributes inner, alternativesText inner,
      ifSees (word "if") (texts [keyword "if", inner.expression]), punct "=>"]
    let e ← inner.bounded
    let comma ←
      if e.sort.isBlockLike || (← atEnd) then optionalMark "," else punct ","
    return front ++ e.text ++ comma

/-- Reads a selection. -/
def selection (inner : Inner) : TokenReader String :=
  texts [keyword "match", headExpression inner,
    inside .brace (texts [innerAttributes inner, arms inner])]

/-- Whether a word comes next that a block follows. -/
def startsWordBlock (w : String) : Peek := fun ts => word w ts && second (group .brace) ts

/-- The forms that may end a statement or an arm without a mark. -/
def blockLikeForms (inner : Inner) : List (Peek × TokenReader Expression) :=
  [(word "if", ofSort .conditional (conditional inner)),
    (word "while", ofSort .whileLoop (whileLoop inner)),
    (fun ts => word "for" ts && !startsBoundClosure ts, ofSort .forLoop (forLoop inner)),
    (word "loop", ofSort .loop (plainLoop inner)),
    (word "match", ofSort .selection (selection inner)),
    (startsWordBlock "try", ofSort .tryBlock (texts [keyword "try", inner.block])),
    (word "unsafe", ofSort .unchecked (texts [keyword "unsafe", attributedBlock inner])),
    (startsWordBlock "const", ofSort .constant (constantBlock inner)),
    (group .brace, ofSort .block (attributedBlock inner)),
    (lifetime, labeled inner)]

/-! ## Atoms -/

/-- Whether an expression may begin here, after a word that needs none. -/
def startsExpression : Peek := fun ts =>
  (someWord ts && !word "as" ts) || group .paren ts || group .bracket ts || group .brace ts ||
    literal ts || (mark "!" ts && !mark "!=" ts) ||
    (mark "-" ts && !mark "-=" ts && !mark "->" ts) || (mark "*" ts && !mark "*=" ts) ||
    (mark "|" ts && !mark "|=" ts) || (mark "&" ts && !mark "&=" ts) || mark ".." ts ||
    (mark "<" ts && !mark "<=" ts && !mark "<<=" ts) || mark "::" ts || lifetime ts || mark "#" ts

/-- Reads an input of a closure. Attributes of a pattern of which the source is kept
are lost. -/
def closureInput (inner : Inner) : TokenReader String := do
  let attributes ← outerAttributes inner
  let found ← inner.pattern
  if ← takes ":" then return attributes ++ found.text ++ ":" ++ (← inner.type)
  else return if found.sort = .verbatim then found.text else attributes ++ found.text

/-- Reads a closure. -/
def closure (inner : Inner) (braces : Bool) : TokenReader String :=
  texts [optionalBinder inner, optionalWord "const", optionalWord "static",
    optionalWord "async", optionalWord "move", punct "|",
    separatedUntil "," (mark "|") (closureInput inner), punct "|", do
      if ← takes "->" then return "->" ++ (← texts [inner.type, inner.block])
      else return (← inner.expressionWith braces).text]

/-- Whether a closure comes next. -/
def startsClosure : Peek := fun ts =>
  mark "|" ts || word "move" ts || startsBoundClosure ts ||
    (word "const" ts && !second (group .brace) ts) || word "static" ts ||
    (word "async" ts && second (fun us => mark "|" us || word "move" us) ts)

/-- Reads a field in braces: a name alone, or a member with a value. -/
def fieldValue (inner : Inner) : TokenReader String := do
  let attributes ← outerAttributes inner
  let isNamed ← sees name
  let text ← member
  if !isNamed || (← sees (mark ":")) then
    return attributes ++ text ++ (← texts [punct ":", inner.expression])
  else return attributes ++ text

/-- Reads the fields in braces; two dots and a value for all others may stand last. -/
def fieldValues (inner : Inner) : TokenReader String :=
  repeatStep (fun text => do
    if ← atEnd then return (text, false)
    else if ← takes ".." then
      return (text ++ ".." ++ (← ifSees (fun ts => !ts.isEmpty) inner.expression), false)
    else
      let text := text ++ (← fieldValue inner)
      if ← atEnd then return (text, false) else return (text ++ (← punct ","), true)) ""

/-- Reads a path, a macro, or a structure. -/
def pathAtom (inner : Inner) (braces : Bool) : TokenReader Expression := do
  let parts ← qualifiedPath inner true
  if !parts.isQualified && parts.isPlain && (← sees callsMacro) then
    let braced ← sees (second (group .brace))
    return ⟨.macroCall braced, parts.text ++ (← macroTail)⟩
  else if braces && (← sees (group .brace)) then
    return ⟨.struct, parts.text ++ (← inside .brace (fieldValues inner))⟩
  else return ⟨.path, parts.text⟩

/-- Whether a path comes next where an expression stands. -/
def startsPathAtom : Peek := fun ts =>
  startsPath ts || mark "::" ts || mark "<" ts ||
    (word "try" ts && second (fun us => mark "!" us || mark "::" us) ts)

/-- Reads expressions after a comma up to the end. -/
def furtherExpressions (inner : Inner) : TokenReader String :=
  texts [punct ",", commaSeparated inner.expression]

/-- Reads a tuple or an expression in parentheses. -/
def parenthesizedExpression (inner : Inner) : TokenReader Expression := do
  let (sort, text) ← content .paren do
    if ← atEnd then return (ExpressionSort.tuple, "")
    else
      let first ← inner.expression
      if ← atEnd then return (.paren, first)
      else return (.tuple, first ++ (← furtherExpressions inner))
  return ⟨sort, "(" ++ text ++ ")"⟩

/-- Reads an array, or a value that is repeated. -/
def sequenceExpression (inner : Inner) : TokenReader Expression := do
  let (sort, text) ← content .bracket do
    if ← atEnd then return (ExpressionSort.array, "")
    else
      let first ← inner.expression
      if ← atEnd then return (.array, first)
      else if ← sees (mark ",") then return (.array, first ++ (← furtherExpressions inner))
      else if ← takes ";" then return (.repetition, first ++ ";" ++ (← inner.expression))
      else expected ["`,`", "`;`"]
  return ⟨sort, "[" ++ text ++ "]"⟩

/-- Reads a way out of a loop with its label and its value. A labeled loop as a value
needs parentheses. -/
def breakOut (inner : Inner) (braces : Bool) : TokenReader String := do
  let front ← keyword "break"
  if ← sees fun ts => lifetime ts && second (mark ":") ts then
    let _ ← inner.expression
    reject .labelWithoutParentheses
  else
    let label ← optionalLifetime
    let value ← ifSees (fun ts => startsExpression ts && (braces || !group .brace ts)) do
      return (← inner.expressionWith braces).text
    return front ++ label ++ value

/-- Reads a word with a value, if one follows. -/
def wordWithValue (inner : Inner) (w : String) : TokenReader String :=
  texts [keyword w, ifSees startsExpression inner.expression]

/-- Reads a pattern with the value that it is compared to. -/
def patternBinding (inner : Inner) (braces : Bool) : TokenReader String := do
  let front ← texts [keyword "let", alternativesText inner, punct "="]
  let value ← inner.operation braces .comparison (← inner.operand braces)
  return front ++ value.text

/-- Whether a block that runs by itself comes next. -/
def startsAsyncBlock : Peek := fun ts =>
  word "async" ts &&
    (second (group .brace) ts || (second (word "move") ts && third (group .brace) ts))

/-- Reads an atom. -/
def atom (inner : Inner) (braces : Bool) : TokenReader Expression :=
  choose
    ([(literal, do
        let (kind, text) ← literalToken
        return ⟨.literal kind, text⟩),
      (startsAsyncBlock, ofSort .async
        (texts [keyword "async", optionalWord "move", inner.block])),
      (startsWordBlock "try", ofSort .tryBlock (texts [keyword "try", inner.block])),
      (startsClosure, ofSort .closure (closure inner braces)),
      (startsBuiltin, ofSort .verbatim builtinCall),
      (startsPathAtom, pathAtom inner braces),
      (group .paren, parenthesizedExpression inner),
      (word "break", ofSort .breakOut (breakOut inner braces)),
      (word "continue", ofSort .continueOn (texts [keyword "continue", optionalLifetime])),
      (word "return", ofSort .returned (wordWithValue inner "return")),
      (word "become", ofSort .verbatim
        (verbatim (texts [keyword "become", inner.expression]))),
      (group .bracket, sequenceExpression inner),
      (word "let", ofSort .binding (patternBinding inner braces)),
      (word "yield", ofSort .yielded (wordWithValue inner "yield")),
      (mark "..", ofSort .range (rangeTail inner braces)),
      (word "_", ofSort .infer anyWord)] ++ blockLikeForms inner)
    (complain (.expected ["an expression"]))

/-! ## Operands -/

/-- Reads a reference. -/
def reference (inner : Inner) (braces : Bool) : TokenReader Expression := do
  let front ← punct "&"
  if ← sees fun ts => word "raw" ts && second (oneOf ["mut", "const"]) ts then
    let front := front ++ (← texts [anyWord, anyWord])
    return ⟨.rawReference, front ++ (← inner.operand braces).text⟩
  else
    let front := front ++ (← optionalWord "mut")
    return ⟨.reference, front ++ (← inner.operand braces).text⟩

/-- Reads an expression without operators between operands. A range that begins with its
dots takes no attributes. -/
def operand (inner : Inner) (braces : Bool) : TokenReader Expression := do
  let ((e, attributes), source) ← withSource do
    let attributes ← outerAttributes inner
    let e ← choose
      [(mark "&", reference inner braces),
        (fun ts => mark "*" ts || mark "!" ts || mark "-" ts, do
          let front ← choose [(mark "*", punct "*"), (mark "!", punct "!")] (punct "-")
          return ⟨.unary, front ++ (← inner.operand braces).text⟩)]
      (do trailers inner (← atom inner braces))
    return (e, attributes)
  if e.sort = .verbatim then return ⟨.verbatim, source⟩
  else if e.sort = .range && !attributes.isEmpty then reject .rangeWithAttribute
  else return e.after attributes

/-- Reads an expression that may end after a block, as one does that is a statement or
what an arm gives. Attributes of one of which the source is kept are lost. -/
def boundedExpression (inner : Inner) : TokenReader Expression := do
  let attributes ← outerAttributes inner
  let blockLike ← choose
    ((blockLikeForms inner).map fun b => (b.1, do return some (← b.2))) (return none)
  let e ←
    match blockLike with
    | some e =>
        if ← sees fun ts => startsMember ts || mark "?" ts then
          inner.operation true .least (← trailers inner e)
        else pure e
    | none => inner.operation true .least (← inner.operand true)
  return if e.sort = .verbatim then e else e.after attributes

end SelectiveMerge.Declaration.Grammar
