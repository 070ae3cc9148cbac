import SelectiveMerge.Declaration.Grammar.Depth
import SelectiveMerge.Declaration.Lexer

/-!
# Items

The declaration of a type as it is written: attributes, a visibility, the name,
parameters, and a body.

* `TypeExpr.ofText?` — the type that a text is
* `Item.ofText?` — the item that a text declares
-/

namespace SelectiveMerge.Declaration

/-- The declaration of a type as it is written. -/
structure Item where
  attributes : List Attribute
  name : String
  /-- Whether there are type parameters or lifetime parameters. -/
  parameterized : Bool
  body : ItemBody

namespace Grammar

open TokenReader Peek

/-- Reads what follows the word that says what is declared. -/
def itemAfterWord (inner : Inner) (attributes : List Attribute)
    (body : TokenReader (ItemBody × String)) : TokenReader Item := do
  let _ ← anyWord
  let name ← identifier
  let ps ← parameters inner
  return ⟨attributes, name, !ps.items.isEmpty, (← body).1⟩

/-- Reads an item. -/
def item (inner : Inner) : TokenReader Item := do
  let attributes ← attributeList inner
  let _ ← visibility
  choose
    [(word "struct", itemAfterWord inner attributes (structureBody inner)),
      (word "enum", itemAfterWord inner attributes (enumerationBody inner)),
      (word "union", itemAfterWord inner attributes (unionBody inner))]
    (expected ["`struct`", "`enum`", "`union`"])

end Grammar

/-- What the trees of a text are, read to their end with readers of enough levels. -/
def readText? {α : Type} (reader : Inner → TokenReader α) (text : String) : Option α :=
  (tokens? text).bind fun ts => (TokenReader.all (reader (Inner.forTrees ts)) ts).toOption

/-- The type that a text is. -/
def TypeExpr.ofText? (text : String) : Option TypeExpr :=
  readText? (fun inner => inner.typeExpr true) text

/-- The item that a text declares. -/
def Item.ofText? (text : String) : Option Item := readText? Grammar.item text

end SelectiveMerge.Declaration
