import SelectiveMerge.Declaration.Grammar.Type

/-!
# The grammar of bodies

The body of a structure, an enumeration or a union: fields with or without names, and
variants. Named fields are kept; of the rest only the form and the text matter.

* `Grammar.namedFields` — reads named fields
* `Grammar.structureBody`, `Grammar.enumerationBody`, `Grammar.unionBody` — reads what
  follows the name and the parameters of a type
-/

namespace SelectiveMerge.Declaration

/-- A named field as it is written. -/
structure FieldSource where
  attributes : List Attribute
  name : String
  type : TypeExpr

/-- The body of a declaration. -/
inductive ItemBody where
  | named (fields : List FieldSource)
  | unnamed (count : Nat)
  | unit
  | enumeration
  | union

namespace Grammar

open TokenReader Peek

/-! ## Visibility -/

/-- Whether a visibility is restricted to a place that one word names. -/
def startsPlace : Peek
  | .group .paren [.ident w] :: _ => w == "crate" || w == "self" || w == "super"
  | _ => false

/-- Whether a visibility is restricted to a place that a path names. -/
def startsPlacePath : Peek
  | .group .paren ts :: _ => word "in" ts
  | _ => false

/-- Reads a visibility, if one is written. -/
def visibility : TokenReader String :=
  ifSees (word "pub") (texts [keyword "pub", ifSees startsPlace groupText,
    ifSees startsPlacePath (inside .paren (texts [keyword "in", plainPath]))])

/-! ## Fields -/

/-- Whether a type without a name comes next, of which the fields are written. -/
def startsUnnamedType : Peek := fun ts =>
  word "struct" ts || (word "union" ts && second (group .brace) ts)

/-- Reads things with commas between them up to the end: what is read, and the text. -/
def listed {α : Type} (item : TokenReader (α × String)) : TokenReader (List α × String) :=
  repeatStep (fun (found, text) => do
    if ← atEnd then return ((found, text), false)
    else
      let (a, more) ← item
      let found := found ++ [a]
      let text := text ++ more
      if ← atEnd then return ((found, text), false)
      else return ((found, text ++ (← punct ",")), true)) ([], "")

/-- Reads a group of things with commas between them. -/
def listedInside {α : Type} (d : Delimiter) (item : TokenReader (α × String)) :
    TokenReader (List α × String) := do
  let (found, text) ← content d (listed item)
  return (found, d.opening ++ text ++ d.closing)

/-- Reads a named field; `unnamedType` reads a type without a name, which a field has
whose own name is an underscore. -/
def namedFieldWith (inner : Inner) (unnamedType : TokenReader String) :
    TokenReader (FieldSource × String) := do
  let attributes ← attributeList inner
  let place ← visibility
  let blank ← sees (word "_")
  let name ← identifierOrBlank
  let _ ← punct ":"
  let type ←
    if blank && (← sees startsUnnamedType) then pure (TypeExpr.other (← unnamedType))
    else inner.typeExpr true
  return (⟨attributes, name, type⟩,
    attributesText attributes ++ place ++ name ++ ":" ++ type.text)

/-- Reads a type without a name, of which the source is kept, at most so deep. -/
def unnamedType (inner : Inner) : Nat → TokenReader String
  | 0 => giveUp
  | depth + 1 => verbatim (texts [anyWord, do
      return (← listedInside .brace (namedFieldWith inner (unnamedType inner depth))).2])

/-- Reads a named field. -/
def namedField (inner : Inner) : TokenReader (FieldSource × String) := do
  let depth ← look TokenTree.countAll
  namedFieldWith inner (unnamedType inner depth)

/-- Reads named fields in braces. -/
def namedFields (inner : Inner) : TokenReader (List FieldSource × String) :=
  listedInside .brace (namedField inner)

/-- Reads fields without names in parentheses. -/
def unnamedFields (inner : Inner) : TokenReader (List Unit × String) :=
  listedInside .paren do
    return ((), ← texts [outerAttributes inner, visibility, inner.type])

/-! ## Bodies -/

/-- Reads the body of a structure. -/
def structureBody (inner : Inner) : TokenReader (ItemBody × String) := do
  let conditional ← sees (word "where")
  let front ← optionalConditions inner
  if !conditional && (← sees (group .paren)) then
    let (fields, text) ← unnamedFields inner
    let conditions ← optionalConditions inner
    if ← takes ";" then return (.unnamed fields.length, text ++ conditions ++ ";")
    else expected (if conditions.isEmpty then ["`where`", "`;`"] else ["`;`"])
  else if ← sees (group .brace) then
    let (fields, text) ← namedFields inner
    return (.named fields, front ++ text)
  else if ← takes ";" then return (.unit, front ++ ";")
  else
    expected
      (if conditional then ["curly braces", "`;`"]
       else ["`where`", "parentheses", "curly braces", "`;`"])

/-- Reads a variant of an enumeration. Its visibility is lost. -/
def variant (inner : Inner) : TokenReader String := do
  let attributes ← outerAttributes inner
  let _ ← visibility
  let name ← identifier
  let fields ← choose
    [(group .brace, do return (← namedFields inner).2),
      (group .paren, do return (← unnamedFields inner).2)] (return "")
  return attributes ++ name ++ fields ++
    (← ifSees (mark "=") (texts [punct "=", inner.expression]))

/-- Reads the body of an enumeration. -/
def enumerationBody (inner : Inner) : TokenReader (ItemBody × String) := do
  return (.enumeration,
    ← texts [optionalConditions inner, inside .brace (commaSeparated (variant inner))])

/-- Reads the body of a union. -/
def unionBody (inner : Inner) : TokenReader (ItemBody × String) := do
  return (.union, ← texts [optionalConditions inner, do return (← namedFields inner).2])

end Grammar

end SelectiveMerge.Declaration
