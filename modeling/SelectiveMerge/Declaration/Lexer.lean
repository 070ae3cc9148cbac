import SelectiveMerge.Declaration.Literal
import SelectiveMerge.Text.Quoted

/-!
# Reading tokens

The text of a declaration is cut into lexemes, which are then put together to token
trees. Blanks and comments separate lexemes and are dropped, but documentation
comments stand for attributes. A text with a character that begins no lexeme, or
with brackets that do not match, has no tokens.

* `tokens?` — the token trees of a text
-/

namespace SelectiveMerge.Declaration

/-! ## Blanks and comments -/

/-- Whether a character separates lexemes: a blank or one of the two marks of
writing direction. -/
def isSeparator (c : Char) : Bool :=
  Text.isBlank c || c == Char.ofNat 0x200E || c == Char.ofNat 0x200F

/-- What follows a block comment, of which `depth` levels are open. -/
def afterBlockComment : Nat → List Char → Option (List Char)
  | _, [] => none
  | depth, '*' :: '/' :: cs => if depth ≤ 1 then some cs else afterBlockComment (depth - 1) cs
  | depth, '/' :: '*' :: cs => afterBlockComment (depth + 1) cs
  | depth, _ :: cs => afterBlockComment depth cs

/-- The rest of the line, with what follows it. A return in front of the end of the line
belongs to neither. -/
def splitLine : List Char → List Char × List Char
  | [] => ([], [])
  | '\r' :: '\n' :: cs => ([], '\n' :: cs)
  | c :: cs =>
      if c = '\n' then ([], c :: cs)
      else
        let (line, rest) := splitLine cs
        (c :: line, rest)

/-- Whether a text begins with another one. -/
def startsWith (start : String) (cs : List Char) : Bool := start.toList.isPrefixOf cs

/-- Whether a text begins with a documentation comment on the rest of the line. -/
def startsLineDoc (cs : List Char) : Bool :=
  startsWith "//!" cs || (startsWith "///" cs && !startsWith "////" cs)

/-- Whether a text begins with a documentation comment in a block. -/
def startsBlockDoc (cs : List Char) : Bool :=
  startsWith "/*!" cs ||
    (startsWith "/**" cs && !startsWith "/***" cs && !startsWith "/**/" cs)

/-- Drops blanks and comments, in at most `fuel` pieces. -/
def skipSeparators : Nat → List Char → List Char
  | 0, cs => cs
  | fuel + 1, cs =>
      match cs with
      | '/' :: '/' :: rest =>
          if startsLineDoc cs then cs else skipSeparators fuel (splitLine rest).2
      | '/' :: '*' :: rest =>
          if startsBlockDoc cs then cs
          else
            match afterBlockComment 1 rest with
            | some rest => skipSeparators fuel rest
            | none => cs
      | c :: rest => if isSeparator c then skipSeparators fuel rest else cs
      | [] => []

/-! ## Lexemes -/

/-- A token, or a bracket. -/
inductive Lexeme where
  | tree (t : TokenTree)
  | opening (d : Delimiter)
  | closing (d : Delimiter)

/-- The bracket that a character is. -/
def bracket? : Char → Option Lexeme
  | '(' => some (.opening .paren)
  | ')' => some (.closing .paren)
  | '[' => some (.opening .bracket)
  | ']' => some (.closing .bracket)
  | '\x7b' => some (.opening .brace)
  | '\x7d' => some (.closing .brace)
  | _ => none

/-- The punctuation characters. -/
def punctuation : List Char := "~!@#$%^&*-=+|;:,<.>/?'".toList

/-- Whether a text begins with a punctuation character that begins no comment. -/
def startsPunct (cs : List Char) : Bool :=
  !startsWith "//" cs && !startsWith "/*" cs && (cs.head?).any punctuation.contains

/-- The words that cannot be made identifiers by `r#`. -/
def notRaw : List String := ["_", "super", "self", "Self", "crate"]

/-- Reads an identifier, which may begin with `r#`. -/
def identifier? (cs : List Char) : Option (String × List Char) :=
  match cs with
  | 'r' :: '#' :: rest =>
      match Text.takeIdentifier? rest with
      | some (word, after) =>
          let name := String.ofList word
          if notRaw.contains name then none else some ("r#" ++ name, after)
      | none => none
  | _ => (Text.takeIdentifier? cs).map fun r => (String.ofList r.1, r.2)

/-- The starts of literals at which no identifier begins. -/
def literalStarts : List String :=
  ["r\"", "r#\"", "r##", "b\"", "b'", "br\"", "br#", "c\"", "cr\"", "cr#"]

/-- The start of a lifetime: the name after its quote, or, where a literal begins
instead of a name, the quote alone. No quote and no number sign follows the name. -/
def lifetime? (cs : List Char) : Option (TokenTree × List Char) :=
  match identifier? cs with
  | some (name, rest) =>
      if rest.head? = some '\'' ∨ (rest.head? = some '#' ∧ !startsWith "r#" cs) then none
      else if literalStarts.any fun start => startsWith start cs then some (.punct '\'' true, cs)
      else some (.lifetime name, rest)
  | none => none

/-- The text that stands for a literal that could not be read. -/
def unrecognizedText : String := "(/*ERROR*/)"

/-- Reads a token that is no group. -/
def token? (cs : List Char) : Option (TokenTree × List Char) :=
  match literal? cs with
  | some (kind, rest) =>
      some (.literal kind (String.ofList (cs.take (cs.length - rest.length))), rest)
  | none =>
      if startsPunct cs then
        match cs with
        | '\'' :: rest => lifetime? rest
        | c :: rest => some (.punct c (startsPunct rest), rest)
        | [] => none
      else if literalStarts.any fun start => startsWith start cs then none
      else
        match identifier? cs with
        | some (name, rest) => some (.ident name, rest)
        | none =>
            if startsWith unrecognizedText cs then
              some (.literal .unrecognized unrecognizedText, cs.drop unrecognizedText.length)
            else none

/-! ## Documentation comments -/

/-- Whether every return in a text stands in front of the end of a line. -/
def returnsEndLines : List Char → Bool
  | [] => true
  | '\r' :: cs => cs.head? == some '\n' && returnsEndLines cs
  | _ :: cs => returnsEndLines cs

/-- A documentation comment as it stands between quotes. The character with the number
zero is given by two digits where one of the digits up to seven follows. -/
def quotedComment : List Char → List Char
  | [] => []
  | c :: cs =>
      (if c = '\x00' ∧ cs.head?.any (fun d => '0' ≤ d && d ≤ '7') then "\\x00".toList
       else Text.showChar c) ++ quotedComment cs

/-- The lexemes of the attribute that a documentation comment stands for. -/
def docLexemes (inner : Bool) (comment : List Char) : List Lexeme :=
  .tree (.punct '#' false) :: (if inner then [.tree (.punct '!' false)] else []) ++
    [.opening .bracket, .tree (.ident "doc"), .tree (.punct '=' false),
      .tree (.literal (.text (String.ofList comment))
        (String.ofList ('"' :: quotedComment comment ++ ['"']))),
      .closing .bracket]

/-- Reads a documentation comment: its text, with what follows it. -/
def docComment? (cs : List Char) : Option (List Char × List Char) :=
  let found : Option (List Char × List Char) :=
    if startsLineDoc cs then some (splitLine (cs.drop 3))
    else if startsBlockDoc cs then
      (afterBlockComment 1 (cs.drop 2)).map fun rest =>
        ((cs.take (cs.length - rest.length - 2)).drop 3, rest)
    else none
  found.filter fun r => returnsEndLines r.1

/-! ## Texts -/

/-- Reads the next lexemes of a text without leading separators. -/
def lexemes? (cs : List Char) : Option (List Lexeme × List Char) :=
  match docComment? cs with
  | some (comment, rest) =>
      some (docLexemes (startsWith "//!" cs || startsWith "/*!" cs) comment, rest)
  | none =>
      match cs with
      | [] => some ([], [])
      | c :: rest =>
          match bracket? c with
          | some lexeme =>
              if startsWith unrecognizedText cs then (token? cs).map fun r => ([.tree r.1], r.2)
              else some ([lexeme], rest)
          | none => (token? cs).map fun r => ([.tree r.1], r.2)

/-- All lexemes of a text, in at most `fuel` pieces. -/
def allLexemes : Nat → List Char → Option (List Lexeme)
  | 0, _ => none
  | fuel + 1, cs =>
      match skipSeparators (cs.length + 1) cs with
      | [] => some []
      | c :: cs => do
          let (found, rest) ← lexemes? (c :: cs)
          let more ← allLexemes fuel rest
          some (found ++ more)

/-! ## Trees -/

/-- Puts lexemes together. `outer` holds the brackets that are open with what came
before them, `before` what came since, both in reverse. -/
def nest : List (Delimiter × List TokenTree) → List TokenTree → List Lexeme →
    Option (List TokenTree)
  | [], before, [] => some before.reverse
  | _ :: _, _, [] => none
  | outer, before, .tree t :: rest => nest outer (t :: before) rest
  | outer, before, .opening d :: rest => nest ((d, before) :: outer) [] rest
  | [], _, .closing _ :: _ => none
  | (d, enclosing) :: outer, before, .closing e :: rest =>
      if d = e then nest outer (.group d before.reverse :: enclosing) rest else none

/-- A text without the mark of byte order at its start. -/
def withoutByteOrderMark : List Char → List Char
  | [] => []
  | c :: cs => if c = Char.ofNat 0xFEFF then cs else c :: cs

/-- The token trees of a text. -/
def tokens? (text : String) : Option (List TokenTree) :=
  let cs := withoutByteOrderMark text.toList
  (allLexemes (cs.length + 1) cs).bind (nest [] [])

end SelectiveMerge.Declaration
