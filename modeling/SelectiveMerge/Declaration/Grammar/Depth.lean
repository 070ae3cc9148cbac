import SelectiveMerge.Declaration.Grammar.Definition

/-!
# Grammars of any depth

The grammars read what stands inside of what they read with the readers for one level
less. At level zero nothing can be read. Between two levels that take nothing from the
source there are only a few others, so that a number of levels in proportion to the
number of tokens is enough for all that trees can hold.

* `Inner.atDepth` — the readers of a level
* `Inner.forTrees` — readers of enough levels for some trees
-/

namespace SelectiveMerge.Declaration.Inner

/-- Readers that read nothing. -/
def none : Inner where
  typeExpr _ := TokenReader.giveUp
  bound _ := TokenReader.giveUp
  operand _ := TokenReader.giveUp
  operation _ _ _ := TokenReader.giveUp
  bounded := TokenReader.giveUp
  pattern := TokenReader.giveUp
  statements := TokenReader.giveUp
  definition := TokenReader.giveUp

/-- The readers that read what is inside with given ones. -/
def next (inner : Inner) : Inner where
  typeExpr plus := Grammar.typeExpr inner plus
  bound rules := Grammar.bound inner rules
  operand braces := Grammar.operand inner braces
  operation braces base left := Grammar.operation inner braces base left
  bounded := Grammar.boundedExpression inner
  pattern := Grammar.pattern inner
  statements := Grammar.statements inner
  definition := Grammar.definition inner

/-- The readers of a level. -/
def atDepth : Nat → Inner
  | 0 => none
  | depth + 1 => (atDepth depth).next

/-- Readers of enough levels for some trees. -/
def forTrees (ts : List TokenTree) : Inner := atDepth (8 * (TokenTree.countAll ts + 2))

end SelectiveMerge.Declaration.Inner
