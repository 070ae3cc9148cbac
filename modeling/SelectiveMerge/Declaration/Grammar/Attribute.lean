import SelectiveMerge.Declaration.Grammar.Basic

/-!
# The grammar of attributes

An attribute is a path, alone, with a group of tokens, or with a value. Outer
attributes stand in front of what they belong to, inner ones at the beginning of its
content.

* `Grammar.outerAttributes`, `Grammar.innerAttributes` — reads the attributes that
  come next
-/

namespace SelectiveMerge.Declaration

/-- What follows the path of an attribute. -/
inductive AttributeForm where
  | word
  | list (delimiter : Delimiter) (content : List TokenTree)
  | value (value : Expression)

/-- An attribute without its brackets. -/
structure Attribute where
  /-- Whether two colons stand before the path. -/
  rooted : Bool
  path : String
  form : AttributeForm

namespace Attribute

/-- The text of an attribute without its brackets. -/
def text (a : Attribute) : String :=
  (if a.rooted then "::" else "") ++ a.path ++
    match a.form with
    | .word => ""
    | .list d content => (TokenTree.group d content).text
    | .value e => "=" ++ e.text

end Attribute

namespace Grammar

open TokenReader Peek

/-- The words that are reserved and yet stand on paths. -/
def pathWords : List String := ["super", "self", "Self", "crate"]

/-- Whether a word comes next that may stand on a path. -/
def startsPath : Peek := fun ts => name ts || oneOf pathWords ts

/-- Reads the words of a path without arguments, with two colons between them. -/
def plainWords : TokenReader String := do
  if ← sees startsPath then
    repeatStep (fun text => do
      let text := text ++ (← anyWord)
      if ← takes "::" then
        if ← sees startsPath then return (text ++ "::", true)
        else expected ["path segment after `::`"]
      else return (text, false)) ""
  else identifier

/-- Reads a path without arguments. -/
def plainPath : TokenReader String := texts [optionalMark "::", plainWords]

/-- Whether a group comes next. -/
def startsGroup : Peek := fun ts => group .paren ts || group .bracket ts || group .brace ts

/-- Reads a value after an equals sign. A literal is one only if nothing follows it. -/
def assigned (inner : Inner) : TokenReader Expression := do
  let _ ← punct "="
  let whole ← attempt do
    let (kind, text) ← literalToken
    if ← atEnd then return Expression.mk (.literal kind) text else giveUp
  match whole with
  | some e => return e
  | none =>
      if ← sees fun ts => mark "#" ts && second (group .bracket) ts then
        complain .attributeAsValue
      else inner.expressionWith true

/-- Reads an attribute without its brackets. -/
def attributeBody (inner : Inner) : TokenReader Attribute := do
  let unchecked ← sees (word "unsafe")
  let rooted ← if unchecked then pure false else takes "::"
  let path ← if unchecked then anyWord else plainWords
  if ← sees startsGroup then
    let (d, trees) ← anyGroup
    return ⟨rooted, path, .list d trees⟩
  else if ← sees (mark "=") then return ⟨rooted, path, .value (← assigned inner)⟩
  else return ⟨rooted, path, .word⟩

/-- Reads the attributes in front of something. -/
def attributeList (inner : Inner) : TokenReader (List Attribute) :=
  repeatStep (fun attributes => do
    if ← takes "#" then
      return (attributes ++ [← content .bracket (attributeBody inner)], true)
    else return (attributes, false)) []

/-- The text of the attributes in front of something. -/
def attributesText (attributes : List Attribute) : String :=
  String.join (attributes.map fun a => "#[" ++ a.text ++ "]")

/-- Reads the attributes in front of something: their text. -/
def outerAttributes (inner : Inner) : TokenReader String := do
  return attributesText (← attributeList inner)

/-- Reads the attributes at the beginning of the content of something. -/
def innerAttributes (inner : Inner) : TokenReader String :=
  whileSees (fun ts => mark "#" ts && second (mark "!") ts)
    (texts [punct "#", punct "!",
      inside .bracket do return (← attributeBody inner).text])

/-- Reads a block with attributes at its beginning. -/
def attributedBlock (inner : Inner) : TokenReader String :=
  inside .brace (texts [innerAttributes inner, inner.statements])

end Grammar

end SelectiveMerge.Declaration
