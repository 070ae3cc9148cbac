import SelectiveMerge.Text.Blank

/-!
# Tokens of a declaration

Declarations are read as token trees: identifiers, lifetimes, literals, single
punctuation characters, and groups in brackets. A punctuation character knows
whether another one follows at once, so that `::` can be told from two colons.

* `TokenTree.text` — the text of a tree without blanks
-/

namespace SelectiveMerge.Declaration

/-- The three sorts of brackets. -/
inductive Delimiter where
  | paren
  | bracket
  | brace
  deriving DecidableEq

namespace Delimiter

/-- The opening bracket. -/
def opening : Delimiter → String
  | .paren => "("
  | .bracket => "["
  | .brace => "\x7b"

/-- The closing bracket. -/
def closing : Delimiter → String
  | .paren => ")"
  | .bracket => "]"
  | .brace => "\x7d"

end Delimiter

/-- The kinds of literals; a text and a truth value have their value. The two truth
values are words, which stand for literals where a literal may stand. -/
inductive LiteralKind where
  | text (value : String)
  | bytes
  | foreignText
  | byte
  | char
  | int
  | float
  | truth (value : Bool)
  | unrecognized
  deriving DecidableEq

/-- A token, or a group of tokens in brackets. -/
inductive TokenTree where
  | ident (name : String)
  | lifetime (name : String)
  | punct (char : Char) (joint : Bool)
  | literal (kind : LiteralKind) (text : String)
  | group (delimiter : Delimiter) (content : List TokenTree)
  deriving Inhabited

namespace TokenTree

mutual

/-- The text of a tree. -/
def rawText : TokenTree → String
  | .ident name => name
  | .lifetime name => "'" ++ name
  | .punct c _ => String.singleton c
  | .literal _ text => text
  | .group d content => d.opening ++ rawTexts content ++ d.closing

/-- The text of several trees. -/
def rawTexts : List TokenTree → String
  | [] => ""
  | t :: ts => t.rawText ++ rawTexts ts

end

mutual

/-- The number of tokens and groups of a tree. -/
def count : TokenTree → Nat
  | .group _ content => countAll content + 1
  | _ => 1

/-- The number of tokens and groups of several trees. -/
def countAll : List TokenTree → Nat
  | [] => 0
  | t :: ts => t.count + countAll ts

end

end TokenTree

/-- A text without its blanks. -/
def withoutBlanks (s : String) : String :=
  String.ofList (s.toList.filter fun c => !Text.isBlank c)

/-- The text of several trees, without the blanks inside literals. -/
def textOfTrees (ts : List TokenTree) : String := withoutBlanks (TokenTree.rawTexts ts)

/-- The text of a tree, without the blanks inside literals. -/
def TokenTree.text (t : TokenTree) : String := withoutBlanks t.rawText

/-- The words that are no identifiers. -/
def keywords : List String :=
  ["_", "abstract", "as", "async", "await", "become", "box", "break", "const", "continue", "crate",
    "do", "dyn", "else", "enum", "extern", "false", "final", "fn", "for", "if", "impl", "in", "let",
    "loop", "macro", "match", "mod", "move", "mut", "override", "priv", "pub", "ref", "return",
    "Self", "self", "static", "struct", "super", "trait", "true", "try", "type", "typeof", "unsafe",
    "unsized", "use", "virtual", "where", "while", "yield"]

/-- Whether a word is reserved. -/
def isKeyword (word : String) : Bool := keywords.contains word

end SelectiveMerge.Declaration
