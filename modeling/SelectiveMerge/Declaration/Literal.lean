import SelectiveMerge.Declaration.Token
import SelectiveMerge.Text.Identifier
import SelectiveMerge.Uuid

/-!
# Literals

The literals of a declaration: texts, bytes, characters and numbers. A literal ends
where its own rules say so, and a name may follow it as its suffix. The value of a
text is what its escapes stand for.

* `literal?` — reads a literal
* `textValue` — the value of a text between its quotes
-/

namespace SelectiveMerge.Declaration

/-! ## Escapes -/

/-- What may stand between the quotes of a kind of literals. -/
structure QuotedRules where
  /-- The greatest number that two hexadecimal digits give. -/
  byteLimit : Nat
  /-- Whether a character may be given by its number. -/
  numbered : Bool
  /-- Whether the character with the number zero may stand, or be given. -/
  zero : Bool
  /-- Whether only ASCII characters may stand. -/
  ascii : Bool

namespace QuotedRules

/-- The rules of texts and of characters. -/
def text : QuotedRules := ⟨0x7F, true, true, false⟩

/-- The rules of bytes. -/
def bytes : QuotedRules := ⟨0xFF, false, true, true⟩

/-- The rules of foreign texts, which end with the number zero. -/
def foreignText : QuotedRules := ⟨0xFF, true, false, false⟩

/-- Whether a character may stand as it is. -/
def allows (rules : QuotedRules) (c : Char) : Bool :=
  (!rules.ascii || c.toNat < 128) && (rules.zero || c ≠ '\x00')

end QuotedRules

/-- The character that two hexadecimal digits give, at most `limit`. -/
def hexPair (limit : Nat) : List Char → Option (Char × List Char)
  | a :: b :: cs => do
      let hi ← Uuid.hexValue? a
      let lo ← Uuid.hexValue? b
      if hi * 16 + lo ≤ limit then some (Char.ofNat (hi * 16 + lo), cs) else none
  | _ => none

/-- The character with a number, if there is one. -/
def charOf? (n : Nat) : Option Char := if n.isValidChar then some (Char.ofNat n) else none

/-- The character whose number is given by the digits up to a closing brace, of which
there are at most six; underscores may stand between them. -/
def bracedHex (value count : Nat) : List Char → Option (Char × List Char)
  | [] => none
  | c :: cs =>
      if c = '\x7d' then (if count = 0 then none else (charOf? value).map fun v => (v, cs))
      else if c = '_' ∧ count ≠ 0 then bracedHex value count cs
      else
        match Uuid.hexValue? c with
        | some d => if count = 6 then none else bracedHex (value * 16 + d) (count + 1) cs
        | none => none

/-- The character that an escape stands for, after its backslash. -/
def escaped (rules : QuotedRules) (cs : List Char) : Option (Char × List Char) :=
  let found : Option (Char × List Char) :=
    match cs with
    | 'x' :: cs => hexPair rules.byteLimit cs
    | 'n' :: cs => some ('\n', cs)
    | 'r' :: cs => some ('\r', cs)
    | 't' :: cs => some ('\t', cs)
    | '0' :: cs => some ('\x00', cs)
    | '\\' :: cs => some ('\\', cs)
    | '\'' :: cs => some ('\'', cs)
    | '"' :: cs => some ('"', cs)
    | 'u' :: '\x7b' :: cs => if rules.numbered then bracedHex 0 0 cs else none
    | _ => none
  found.filter fun r => rules.zero || r.1 ≠ '\x00'

/-! ## Texts -/

/-- What follows a backslash at the end of a line and the blanks after it. A return has
to stand in front of the end of a line, and something has to follow. -/
def afterContinuation : List Char → Option (List Char)
  | [] => none
  | '\r' :: '\n' :: cs => afterContinuation cs
  | c :: cs =>
      if c = '\r' then none
      else if c = ' ' ∨ c = '\t' ∨ c = '\n' then afterContinuation cs
      else some (c :: cs)

/-- What follows the closing quote, in at most `fuel` steps. -/
def afterQuoted (rules : QuotedRules) : Nat → List Char → Option (List Char)
  | 0, _ => none
  | _, [] => none
  | _ + 1, '"' :: cs => some cs
  | fuel + 1, '\r' :: cs =>
      match cs with
      | '\n' :: cs => afterQuoted rules fuel cs
      | _ => none
  | fuel + 1, '\\' :: cs =>
      if cs.head? = some '\n' ∨ cs.head? = some '\r' then
        (afterContinuation cs).bind (afterQuoted rules fuel)
      else (escaped rules cs).bind fun r => afterQuoted rules fuel r.2
  | fuel + 1, c :: cs => if rules.allows c then afterQuoted rules fuel cs else none

/-- The value of what stands between the quotes of a text, in at most `fuel` steps. A
backslash at the end of a line drops all blanks that follow. -/
def textValue : Nat → List Char → List Char
  | 0, _ => []
  | _, [] => []
  | fuel + 1, '\r' :: '\n' :: cs => '\n' :: textValue fuel cs
  | fuel + 1, '\\' :: cs =>
      if cs.head? = some '\n' ∨ cs.head? = some '\r' then
        textValue fuel (cs.dropWhile Text.isBlank)
      else
        match escaped .text cs with
        | some (c, cs) => c :: textValue fuel cs
        | none => []
  | fuel + 1, c :: cs => c :: textValue fuel cs

/-- What follows the closing quote of a raw text, with `hashes` number signs after it. -/
def afterRaw (rules : QuotedRules) (hashes : Nat) : List Char → Option (List Char)
  | [] => none
  | c :: cs =>
      if c = '"' ∧ hashes ≤ (cs.takeWhile (· = '#')).length then some (cs.drop hashes)
      else if c = '\r' ∧ cs.head? ≠ some '\n' then none
      else if rules.allows c then afterRaw rules hashes cs
      else none

/-! ## Characters and suffixes -/

/-- What follows a character after its opening quote. -/
def afterCharacter (rules : QuotedRules) (cs : List Char) : Option (List Char) :=
  let rest : Option (List Char) :=
    match cs with
    | '\\' :: cs => (escaped rules cs).map (·.2)
    | c :: cs => if rules.allows c then some cs else none
    | [] => none
  match rest with
  | some ('\'' :: rest) => some rest
  | _ => none

/-- What follows an identifier or nothing: the suffix of a literal. -/
def afterSuffix (cs : List Char) : List Char :=
  match Text.takeIdentifier? cs with
  | some (_, rest) => rest
  | none => cs

/-! ## Numbers -/

/-- The digits of a base at the start of a text, underscores included, with the rest.
A decimal digit that is too great is an error. -/
def digitsOf (base : Nat) : List Char → Option (List Char × List Char)
  | [] => some ([], [])
  | c :: cs =>
      if c = '_' then (digitsOf base cs).map fun r => (c :: r.1, r.2)
      else
        match Uuid.hexValue? c with
        | some d =>
            if d < base then (digitsOf base cs).map fun r => (c :: r.1, r.2)
            else if c.isDigit then none
            else some ([], c :: cs)
        | none => some ([], c :: cs)

/-- What follows an integer literal without its suffix. -/
def afterDigits (cs : List Char) : Option (List Char) :=
  let (base, rest) : Nat × List Char :=
    match cs with
    | '0' :: 'x' :: rest => (16, rest)
    | '0' :: 'o' :: rest => (8, rest)
    | '0' :: 'b' :: rest => (2, rest)
    | _ => (10, cs)
  match digitsOf base rest with
  | some (digits, rest) =>
      if digits.all (· = '_') ∨ (base = 10 ∧ digits.head? = some '_') then none else some rest
  | none => none

/-- What follows a number, when no identifier runs on from it. -/
def afterNumber (cs : List Char) : Option (List Char) :=
  let rest := afterSuffix cs
  if (rest.head?).any Text.isIdentifierPart then none else some rest

/-- What follows an integer literal. -/
def int? (cs : List Char) : Option (List Char) := (afterDigits cs).bind afterNumber

/-- Whether a character is a decimal digit or an underscore. -/
def isDigitOrMark (c : Char) : Bool := c.isDigit || c == '_'

/-- What follows the digits of an exponent with at most one sign. -/
def afterExponent (cs : List Char) : Option (List Char) :=
  let unsigned := cs.dropWhile (· = '_')
  let digits :=
    match unsigned with
    | '+' :: rest => rest
    | '-' :: rest => rest
    | rest => rest
  if (digits.takeWhile isDigitOrMark).any Char.isDigit then
    some (digits.dropWhile isDigitOrMark)
  else none

/-- What follows a floating-point literal without its suffix: digits, then a point
that no second point and no name follows, or an exponent, or both. -/
def afterDecimal (cs : List Char) : Option (List Char) :=
  match cs with
  | c :: _ =>
      if !c.isDigit then none
      else
        match cs.dropWhile isDigitOrMark with
        | '.' :: rest =>
            if (rest.head?).any fun c => c == '.' || Text.isIdentifierStart c then none
            else
              match rest.dropWhile isDigitOrMark with
              | e :: more =>
                  if e = 'e' ∨ e = 'E' then some ((afterExponent more).getD (e :: more))
                  else some (e :: more)
              | [] => some []
        | e :: more => if e = 'e' ∨ e = 'E' then afterExponent more else none
        | [] => none
  | [] => none

/-- What follows a floating-point literal. -/
def float? (cs : List Char) : Option (List Char) := (afterDecimal cs).bind afterNumber

/-! ## Literals of all kinds -/

/-- Reads a quoted literal after its opening quote. -/
def quoted? (rules : QuotedRules) (kind : List Char → LiteralKind) (cs : List Char) :
    Option (LiteralKind × List Char) :=
  (afterQuoted rules (cs.length + 1) cs).map fun rest =>
    (kind (cs.take (cs.length - rest.length - 1)), afterSuffix rest)

/-- Reads a raw literal after its `r`. At most 255 number signs stand before the quote. -/
def raw? (rules : QuotedRules) (kind : List Char → LiteralKind) (cs : List Char) :
    Option (LiteralKind × List Char) :=
  let hashes := (cs.takeWhile (· = '#')).length
  match cs.drop hashes with
  | '"' :: cs =>
      if hashes ≤ 255 then
        (afterRaw rules hashes cs).map fun rest =>
          (kind (cs.take (cs.length - rest.length - hashes - 1)), afterSuffix rest)
      else none
  | _ => none

/-- Reads a number. -/
def number? (cs : List Char) : Option (LiteralKind × List Char) :=
  match float? cs with
  | some rest => some (.float, rest)
  | none => (int? cs).map fun rest => (.int, rest)

/-- Reads a literal: its kind, with what follows. -/
def literal? (cs : List Char) : Option (LiteralKind × List Char) :=
  match cs with
  | '"' :: rest =>
      quoted? .text (fun cs => .text (String.ofList (textValue (cs.length + 1) cs))) rest
  | 'r' :: rest => raw? .text (fun cs => .text (String.ofList cs)) rest
  | 'b' :: '"' :: rest => quoted? .bytes (fun _ => .bytes) rest
  | 'b' :: 'r' :: rest => raw? .bytes (fun _ => .bytes) rest
  | 'b' :: '\'' :: rest =>
      (afterCharacter .bytes rest).map fun rest => (.byte, afterSuffix rest)
  | 'c' :: '"' :: rest => quoted? .foreignText (fun _ => .foreignText) rest
  | 'c' :: 'r' :: rest => raw? .foreignText (fun _ => .foreignText) rest
  | '\'' :: rest => (afterCharacter .text rest).map fun rest => (.char, afterSuffix rest)
  | _ => number? cs

end SelectiveMerge.Declaration
