import SelectiveMerge.Declaration.Reader
import SelectiveMerge.Declaration.TypeExpr

/-!
# What the grammars give

Types, bounds, patterns, expressions and statements are read by grammars that need
each other. Of what they read, the text is kept, with the little that decides how
the reading goes on: the sort of an expression, of a pattern and of a bound.

* `Expression` — the sort and the text of an expression
* `Inner` — the readers for what stands one level deeper, from which those of a level
  are made
-/

namespace SelectiveMerge.Declaration

/-! ## Expressions -/

/-- How tightly an operator holds its operands, from the loosest on. -/
inductive Precedence where
  | least
  | assignment
  | range
  | disjunction
  | conjunction
  | binding
  | comparison
  | bitOr
  | bitXor
  | bitAnd
  | shift
  | sum
  | product
  | cast
  deriving DecidableEq

/-- The place of a precedence in their order. -/
def Precedence.level : Precedence → Nat
  | .least => 0
  | .assignment => 1
  | .range => 2
  | .disjunction => 3
  | .conjunction => 4
  | .binding => 5
  | .comparison => 6
  | .bitOr => 7
  | .bitXor => 8
  | .bitAnd => 9
  | .shift => 10
  | .sum => 11
  | .product => 12
  | .cast => 13

/-- The sorts of expressions. -/
inductive ExpressionSort where
  | array
  | assign
  | async
  | await
  | binary (precedence : Precedence)
  | block
  | breakOut
  | call
  | cast
  | closure
  | constant
  | continueOn
  | field
  | forLoop
  | conditional
  | index
  | infer
  | binding
  | literal (kind : LiteralKind)
  | loop
  | macroCall (braced : Bool)
  | selection
  | methodCall
  | paren
  | path
  | range
  | rawReference
  | reference
  | repetition
  | returned
  | struct
  | questioned
  | tryBlock
  | tuple
  | unary
  | unchecked
  | verbatim
  | whileLoop
  | yielded
  deriving DecidableEq

/-- The name of a kind of literals. -/
def LiteralKind.name : LiteralKind → String
  | .text _ => "string"
  | .bytes => "byte string"
  | .foreignText => "unknown"
  | .byte => "byte"
  | .char => "char"
  | .int => "int"
  | .float => "float"
  | .truth _ => "bool"
  | .unrecognized => "verbatim"

/-- The name of a sort of expressions. -/
def ExpressionSort.name : ExpressionSort → String
  | .array => "array"
  | .assign => "assign"
  | .async => "async"
  | .await => "await"
  | .binary _ => "binary"
  | .block => "block"
  | .breakOut => "break"
  | .call => "call"
  | .cast => "cast"
  | .closure => "closure"
  | .constant => "const"
  | .continueOn => "continue"
  | .field => "field"
  | .forLoop => "for_loop"
  | .conditional => "if"
  | .index => "index"
  | .infer => "infer"
  | .binding => "let"
  | .literal kind => kind.name
  | .loop => "loop"
  | .macroCall _ => "macro"
  | .selection => "match"
  | .methodCall => "method_call"
  | .paren => "paren"
  | .path => "path"
  | .range => "range"
  | .rawReference => "unknown"
  | .reference => "reference"
  | .repetition => "repeat"
  | .returned => "return"
  | .struct => "struct"
  | .questioned => "try"
  | .tryBlock => "try_block"
  | .tuple => "tuple"
  | .unary => "unary"
  | .unchecked => "unsafe"
  | .verbatim => "verbatim"
  | .whileLoop => "while"
  | .yielded => "yield"

/-- Whether an expression of a sort ends by itself where a statement or an arm may end. -/
def ExpressionSort.isBlockLike : ExpressionSort → Bool
  | .conditional | .selection | .block | .unchecked | .whileLoop | .loop | .forLoop | .tryBlock
  | .constant => true
  | _ => false

/-- An expression. -/
structure Expression where
  sort : ExpressionSort
  text : String

namespace Expression

/-- An expression with something in front of it. -/
def after (front : String) (e : Expression) : Expression := { e with text := front ++ e.text }

/-- Whether the last token of an expression is a closing brace. -/
def endsInBrace (e : Expression) : Bool := e.text.toList.getLast? == some '\x7d'

end Expression

/-! ## Patterns and bounds -/

/-- The sorts of patterns that decide something. -/
inductive PatternSort where
  /-- Two dots for all the rest. -/
  | rest
  /-- A range without its lower or its upper end. -/
  | openRange
  /-- A pattern of which only the source is kept. -/
  | verbatim
  | other
  deriving DecidableEq

/-- A pattern. -/
structure Pattern where
  sort : PatternSort
  text : String

/-- The sorts of bounds. -/
inductive BoundSort where
  | trait
  | lifetime
  | capture
  deriving DecidableEq

/-- A bound: a trait, a lifetime, or the parameters that are captured. -/
structure Bound where
  sort : BoundSort
  text : String
  /-- The text without the parentheses around it, and whether there are any. -/
  bare : String
  parenthesized : Bool

/-- Which unusual bounds may stand at a place. -/
structure BoundRules where
  capture : Bool
  constant : Bool

/-! ## Levels -/

/-- The readers for what stands one level deeper than what is being read. -/
structure Inner where
  /-- A type; `plus` says whether bounds may be joined with `+`. -/
  typeExpr : (plus : Bool) → TokenReader TypeExpr
  bound : BoundRules → TokenReader Bound
  /-- An expression without infix operators; `braces` says whether a path may be
  followed by fields in braces. -/
  operand : (braces : Bool) → TokenReader Expression
  /-- What goes on after an operand with operators that hold at least so tightly. -/
  operation : (braces : Bool) → Precedence → Expression → TokenReader Expression
  /-- An expression that may end after a block: a statement, or what an arm gives. -/
  bounded : TokenReader Expression
  /-- A pattern without alternatives. -/
  pattern : TokenReader Pattern
  /-- The statements of a block up to its end. -/
  statements : TokenReader String
  /-- A definition with its attributes. -/
  definition : TokenReader String

namespace Inner

open TokenReader

/-- An expression; `braces` says whether a path may be followed by fields in braces. -/
def expressionWith (inner : Inner) (braces : Bool) : TokenReader Expression := do
  inner.operation braces .least (← inner.operand braces)

/-- The text of an expression. -/
def expression (inner : Inner) : TokenReader String := do
  return (← inner.expressionWith true).text

/-- The text of a type in which bounds may be joined. -/
def type (inner : Inner) : TokenReader String := do return (← inner.typeExpr true).text

/-- The text of a type in which bounds may not be joined. -/
def typeWithoutPlus (inner : Inner) : TokenReader String := do
  return (← inner.typeExpr false).text

/-- A block of statements. -/
def block (inner : Inner) : TokenReader String := inside .brace inner.statements

end Inner

end SelectiveMerge.Declaration
