import SelectiveMerge.Declaration.Grammar.Expression

/-!
# The grammar of statements

A block holds statements: definitions, new names, macros and expressions. Between
two of them a semicolon stands, except after a definition, after a block, and after a
macro in braces.

* `Grammar.statements` — reads the statements of a block
-/

namespace SelectiveMerge.Declaration.Grammar

open TokenReader Peek

/-! ## Where definitions begin -/

/-- Whether a static closure, and no definition, comes next. -/
def startsStaticClosure : Peek := fun ts =>
  second (word "async") ts && third (fun us => word "move" us || mark "|" us) ts

/-- Whether a constant closure or block, and no definition, comes next. -/
def startsConstantExpression : Peek := fun ts =>
  second (group .brace) ts || second (word "static") ts ||
    (second (word "async") ts && !third (oneOf ["unsafe", "extern", "fn"]) ts) ||
    second (word "move") ts || second (mark "|") ts

/-- Whether a definition comes next, attributes apart. -/
def startsDefinition : Peek := fun ts =>
  oneOf ["pub", "extern", "use", "fn", "mod", "type", "struct", "enum", "trait", "impl",
    "macro"] ts ||
    (word "crate" ts && !second (mark "::") ts) ||
    (word "static" ts && (second (word "mut") ts || (second name ts && !startsStaticClosure ts))) ||
    (word "const" ts && !startsConstantExpression ts) ||
    (word "unsafe" ts && !second (group .brace) ts) ||
    (word "async" ts && second (oneOf ["unsafe", "extern", "fn"]) ts) ||
    (word "union" ts && second name ts) || (word "auto" ts && second (word "trait") ts) ||
    (word "default" ts && second (oneOf ["unsafe", "impl"]) ts)

/-! ## Statements -/

/-- Reads new names with the value that they get, and what happens if the value does
not match. -/
def newNames (inner : Inner) : TokenReader String := do
  let front ← texts [keyword "let", do return (← inner.pattern).text,
    ifSees (mark ":") (texts [punct ":", inner.type])]
  let value ←
    if ← takes "=" then
      let e ← inner.expressionWith true
      let otherwise ←
        if e.endsInBrace then pure ""
        else ifSees (word "else") (texts [keyword "else", inner.block])
      pure ("=" ++ e.text ++ otherwise)
    else pure ""
  return front ++ value ++ (← punct ";")

/-- Whether a macro in braces comes next that is a statement by itself; the exclamation
mark is first. -/
def startsBracedMacro : Peek := fun ts =>
  mark "!" ts && second (group .brace) ts &&
    !third (fun us => startsMember us || mark "?" us) ts

/-- Whether a macro with a name comes next; the exclamation mark is first. -/
def startsNamedMacro : Peek := fun ts =>
  mark "!" ts && (second name ts || second (word "try") ts)

/-- Reads an expression as a statement: its text, and whether a semicolon has to stand
before another statement. -/
def expressionStatement (inner : Inner) (attributes : String) : TokenReader (String × Bool) := do
  let e ← boundedExpression inner
  let text := if e.sort = .verbatim then e.text else attributes ++ e.text
  if ← takes ";" then return (text ++ ";", false)
  else
    match e.sort with
    | .macroCall braced => return (text, !braced)
    | sort => return (text, !sort.isBlockLike)

/-- Reads a statement: its text, and whether a semicolon has to stand before another
one. -/
def statement (inner : Inner) : TokenReader (String × Bool) := do
  let afterAttributes ← treesAfter (outerAttributes inner)
  let afterPath ← treesAfter (texts [outerAttributes inner, plainPath])
  if afterAttributes.any startsDefinition || afterPath.any startsNamedMacro then
    return (← inner.definition, false)
  else
    let attributes ← outerAttributes inner
    if afterPath.any startsBracedMacro then
      return (attributes ++ (← texts [plainPath, macroTail, optionalMark ";"]), false)
    else if ← sees (word "let") then return (attributes ++ (← newNames inner), false)
    else expressionStatement inner attributes

/-- Reads the statements of a block up to its end. -/
def statements (inner : Inner) : TokenReader String :=
  repeatStep (fun text => do
    let text := text ++ (← whileSees (mark ";") (punct ";"))
    if ← atEnd then return (text, false)
    else
      let (found, unfinished) ← statement inner
      let text := text ++ found
      if ← atEnd then return (text, false)
      else if unfinished then complain .statementUnfinished
      else return (text, true)) ""

end SelectiveMerge.Declaration.Grammar
