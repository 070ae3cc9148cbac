import SelectiveMerge.Declaration.Grammar.Member

/-!
# The grammar of patterns

A pattern is a name, a literal, a range, a path with patterns inside, a tuple, a
slice, a reference, or the rest of a sequence. Alternatives stand with `|` between
them.

* `Grammar.pattern` — reads a pattern without alternatives
* `Grammar.alternatives` — reads a pattern
-/

namespace SelectiveMerge.Declaration.Grammar

open TokenReader Peek

/-- Whether a bar comes next that begins no operator. -/
def startsAlternative : Peek := fun ts => mark "|" ts && !mark "||" ts && !mark "|=" ts

/-- Reads patterns with bars between them; a bar may stand in front. -/
def alternatives (inner : Inner) : TokenReader Pattern := do
  let leading ← optionalMark "|"
  let first ← inner.pattern
  if leading.isEmpty && !(← sees startsAlternative) then return first
  else
    let further ← whileSees startsAlternative
      (texts [punct "|", do return (← inner.pattern).text])
    return ⟨.other, leading ++ first.text ++ further⟩

/-- Reads patterns with bars between them: their text. -/
def alternativesText (inner : Inner) : TokenReader String := do
  return (← alternatives inner).text

/-! ## Ranges -/

/-- Whether a range has no upper end here. -/
def endsRangePattern : Peek := fun ts =>
  ts.isEmpty || mark "|" ts || mark "=" ts || (mark ":" ts && !mark "::" ts) || mark "," ts ||
    mark ";" ts || word "if" ts

/-- Reads a constant in a block. -/
def constantBlock (inner : Inner) : TokenReader String :=
  texts [keyword "const", attributedBlock inner]

/-- Reads an end of a range. -/
def rangeEnd (inner : Inner) : TokenReader String :=
  choose
    [(literal, literalText),
      (fun ts => startsPath ts || mark "::" ts || mark "<" ts,
        do return (← qualifiedPath inner true).text),
      (word "const", constantBlock inner)]
    (expected ["literal", "identifier", "`::`", "`<`", "`self`", "`Self`", "`super`", "`crate`",
      "`const`"])

/-- Reads the dots of a range with the upper end, if there is one. Three dots mean the
same as two with an equals sign. -/
def rangePatternTail (inner : Inner) (start : String) : TokenReader Pattern := do
  let closed ← sees fun ts => mark "..=" ts || mark "..." ts
  let _ ← punct (if ← sees (mark "..=") then "..=" else if closed then "..." else "..")
  if ← sees endsRangePattern then
    if closed then complain (.expected ["range upper bound"])
    else return ⟨.openRange, start ++ ".."⟩
  else return ⟨.other, start ++ (if closed then "..=" else "..") ++ (← rangeEnd inner)⟩

/-- Reads a literal or a constant, or a range that begins with one. -/
def constantPattern (inner : Inner) : TokenReader Pattern := do
  let start ← rangeEnd inner
  if ← sees (mark "..") then rangePatternTail inner start else return ⟨.other, start⟩

/-- Reads a range without a lower end, or the rest of a sequence. -/
def openPattern (inner : Inner) : TokenReader Pattern := do
  let closed ← sees (mark "..=")
  let dots ← punct (if closed then "..=" else "..")
  if ← sees endsRangePattern then
    if closed then complain (.expected ["range upper bound"]) else return ⟨.rest, dots⟩
  else return ⟨.openRange, dots ++ (← rangeEnd inner)⟩

/-! ## Patterns with patterns inside -/

/-- Reads a field in a pattern: a name alone, or a member with a pattern. -/
def fieldPattern (inner : Inner) : TokenReader String := do
  let marks ← texts [optionalWord "box", optionalWord "ref", optionalWord "mut"]
  if !marks.isEmpty then return marks ++ (← identifier)
  else
    let isNamed ← sees name
    let text ← member
    if !isNamed || (← sees (mark ":")) then
      return text ++ (← texts [punct ":", alternativesText inner])
    else return text

/-- Reads the fields in a pattern; two dots for all others stand last. -/
def fieldPatterns (inner : Inner) : TokenReader String :=
  repeatStep (fun text => do
    if ← atEnd then return (text, false)
    let text := text ++ (← outerAttributes inner)
    if ← takes ".." then return (text ++ "..", false)
    let text := text ++ (← fieldPattern inner)
    if ← atEnd then return (text, false)
    return (text ++ (← punct ","), true)) ""

/-- Reads a pattern that begins with a path. -/
def pathPattern (inner : Inner) : TokenReader Pattern := do
  let parts ← qualifiedPath inner true
  if !parts.isQualified && parts.isPlain && (← sees callsMacro) then
    return ⟨.other, parts.text ++ (← macroTail)⟩
  else if ← sees (group .brace) then
    return ⟨.other, parts.text ++ (← inside .brace (fieldPatterns inner))⟩
  else if ← sees (group .paren) then
    return ⟨.other, parts.text ++ (← inside .paren (commaSeparated (alternativesText inner)))⟩
  else if ← sees (mark "..") then rangePatternTail inner parts.text
  else return ⟨.other, parts.text⟩

/-- Reads a name, perhaps with a pattern for what it stands for. -/
def namePattern (inner : Inner) : TokenReader Pattern := do
  let text ← texts [optionalWord "ref", optionalWord "mut",
    choose [(word "self", anyWord)] identifier,
    ifSees (mark "@") (texts [punct "@", do return (← inner.pattern).text])]
  return ⟨.other, text⟩

/-- Reads a pattern in a slice, in which a range needs both ends. -/
def slicePattern (inner : Inner) : TokenReader String := do
  let found ← alternatives inner
  if found.sort = .openRange then reject .openRangeInSlice else return found.text

/-- What a pattern may begin with. -/
def patternStarts : List String :=
  ["identifier", "`::`", "`<`", "`_`", "literal", "`const`", "`ref`", "`mut`", "`&`",
    "parentheses", "square brackets"]

/-- Whether a name comes next that begins a path, and is none by itself. -/
def startsPathPattern : Peek := fun ts =>
  (name ts && (second (mark "::") ts || second (mark "!") ts || second (group .brace) ts ||
      second (group .paren) ts || second (mark "..") ts)) ||
    (word "self" ts && second (mark "::") ts) || mark "::" ts || mark "<" ts ||
    oneOf ["Self", "super", "crate"] ts

/-- Reads a pattern without alternatives. -/
def pattern (inner : Inner) : TokenReader Pattern :=
  let ofSort (sort : PatternSort) (reader : TokenReader String) : TokenReader Pattern := do
    return ⟨sort, ← reader⟩
  choose
    [(startsPathPattern, pathPattern inner),
      (word "_", ofSort .other anyWord),
      (word "box", ofSort .verbatim
        (verbatim (texts [keyword "box", do return (← inner.pattern).text]))),
      (fun ts => mark "-" ts || literal ts || word "const" ts, constantPattern inner),
      (fun ts => oneOf ["ref", "mut", "self"] ts || name ts, namePattern inner),
      (mark "&", ofSort .other
        (texts [punct "&", optionalWord "mut", do return (← inner.pattern).text])),
      (group .paren, ofSort .other (inside .paren (commaSeparated (alternativesText inner)))),
      (group .bracket, ofSort .other (inside .bracket (commaSeparated (slicePattern inner)))),
      (fun ts => mark ".." ts && !mark "..." ts, openPattern inner)]
    (do
      let dotted ← sees (mark "..")
      expected (patternStarts ++ if dotted then [] else ["`..`"]))

end SelectiveMerge.Declaration.Grammar
