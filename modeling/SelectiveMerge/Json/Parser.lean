import SelectiveMerge.Json.Basic
import SelectiveMerge.Uuid

/-!
# Reading JSON text

The reader turns text into a JSON value or into a fault with its line and its
column. Columns count bytes of UTF-8. A fault that concerns the next character
is placed one byte after it begins; a fault found after a character was taken
is placed after that character.

A repeated member name keeps its first place and takes its last value. Numbers
with a point or an exponent, and integers that fit no 64-bit word, become
floating-point: the digits that fit 64 bits are rounded to a binary number, and
that is scaled by a power of ten, with a rounding of its own.
-/

namespace SelectiveMerge

/-- What can be wrong with a JSON text. -/
inductive JsonFault where
  | endInList
  | endInObject
  | endInString
  | endInValue
  | expectedColon
  | expectedListCommaOrEnd
  | expectedObjectCommaOrEnd
  | expectedLiteral
  | expectedValue
  | invalidEscape
  | invalidNumber
  | numberOutOfRange
  | controlCharacter
  | keyNotString
  | loneSurrogate
  | trailingComma
  | trailingCharacters
  | unexpectedEndOfHexEscape
  | tooDeep
  deriving DecidableEq

/-- The wording of a fault. -/
def JsonFault.message : JsonFault → String
  | .endInList => "EOF while parsing a list"
  | .endInObject => "EOF while parsing an object"
  | .endInString => "EOF while parsing a string"
  | .endInValue => "EOF while parsing a value"
  | .expectedColon => "expected `:`"
  | .expectedListCommaOrEnd => "expected `,` or `]`"
  | .expectedObjectCommaOrEnd => "expected `,` or `\x7d`"
  | .expectedLiteral => "expected ident"
  | .expectedValue => "expected value"
  | .invalidEscape => "invalid escape"
  | .invalidNumber => "invalid number"
  | .numberOutOfRange => "number out of range"
  | .controlCharacter =>
      "control character (\\u0000-\\u001F) found while parsing a string"
  | .keyNotString => "key must be a string"
  | .loneSurrogate => "lone leading surrogate in hex escape"
  | .trailingComma => "trailing comma"
  | .trailingCharacters => "trailing characters"
  | .unexpectedEndOfHexEscape => "unexpected end of hex escape"
  | .tooDeep => "recursion limit exceeded"

/-- A fault and its place. -/
structure JsonSyntaxError where
  fault : JsonFault
  line : Nat
  column : Nat
  deriving DecidableEq

/-- The fault and its place in words. -/
def JsonSyntaxError.message (e : JsonSyntaxError) : String :=
  e.fault.message ++ " at line " ++ toString e.line ++ " column " ++ toString e.column

namespace JsonReader

/-- The text that is left to read, and how far the reader has come. -/
structure Cursor where
  rest : List Char
  line : Nat
  column : Nat

/-- The cursor at the start of a text. -/
def Cursor.start (text : String) : Cursor := ⟨text.toList, 1, 0⟩

/-- The place after one more character. -/
def step (c : Char) (place : Nat × Nat) : Nat × Nat :=
  if c = '\n' then (place.1 + 1, 0) else (place.1, place.2 + c.utf8Size)

/-- The place after `count` more bytes, which need not end with a character;
`none` when fewer are left. -/
def placeAfter : Nat → List Char → Nat × Nat → Option (Nat × Nat)
  | 0, _, place => some place
  | _ + 1, [], _ => none
  | count + 1, c :: cs, place =>
      if c.utf8Size ≤ count + 1 then placeAfter (count + 1 - c.utf8Size) cs (step c place)
      else some (place.1, place.2 + (count + 1))
termination_by count => count
decreasing_by have := c.utf8Size_pos; omega

/-- A step of the reader. -/
abbrev Reader := StateT Cursor (Except JsonSyntaxError)

/-- Fails at the current place. -/
def failHere {α : Type} (fault : JsonFault) : Reader α := fun c => .error ⟨fault, c.line, c.column⟩

/-- Fails one byte into the next character. -/
def failAhead {α : Type} (fault : JsonFault) : Reader α := fun c =>
  let place := (placeAfter 1 c.rest (c.line, c.column)).getD (c.line, c.column)
  .error ⟨fault, place.1, place.2⟩

/-- The next character, which stays unread. -/
def peek : Reader (Option Char) := fun c => .ok (c.rest.head?, c)

/-- Drops the next character. -/
def skip : Reader Unit := fun c =>
  match c.rest with
  | [] => .ok ((), c)
  | ch :: rest =>
      let place := step ch (c.line, c.column)
      .ok ((), ⟨rest, place.1, place.2⟩)

/-- Whether a character may stand between the tokens. -/
def isSpace (c : Char) : Bool := c == ' ' || c == '\n' || c == '\t' || c == '\r'

/-- Drops the characters that satisfy a test. -/
def skipWhile (test : Char → Bool) : Reader Unit := fun c =>
  let rec go : List Char → Nat × Nat → Cursor
    | [], place => ⟨[], place.1, place.2⟩
    | ch :: cs, place =>
        if test ch then go cs (step ch place) else ⟨ch :: cs, place.1, place.2⟩
  .ok ((), go c.rest (c.line, c.column))

/-- The next character after spaces. -/
def peekToken : Reader (Option Char) := do
  skipWhile isSpace
  peek

/-- Reads the rest of one of the words `null`, `true` and `false`. -/
def literal : List Char → Reader Unit
  | [] => pure ()
  | expected :: more => do
      match ← peek with
      | none => failHere .endInValue
      | some c =>
          if c = expected then
            skip
            literal more
          else failAhead .expectedLiteral

/-! ## Numbers -/

/-- The greatest unsigned 64-bit number. -/
def maxWord : Nat := 18446744073709551615

/-- Digits read so far: the number they make, how many more digits were dropped
because the number would no longer fit 64 bits, and how many were taken. -/
structure Digits where
  value : Nat
  dropped : Nat
  taken : Nat

/-- Takes digits while the number fits 64 bits and counts the ones after that. -/
def digitRun (d : Digits) : List Char → Digits × List Char
  | [] => (d, [])
  | c :: cs =>
      if c.isDigit then
        let value := d.value * 10 + (c.toNat - 48)
        if d.dropped = 0 ∧ value ≤ maxWord then digitRun { d with value, taken := d.taken + 1 } cs
        else digitRun { d with dropped := d.dropped + 1 } cs
      else (d, c :: cs)

/-- Takes a run of digits, all of which are on the line. -/
def takeDigits (start : Nat) : Reader Digits := fun c =>
  let (d, rest) := digitRun ⟨start, 0, 0⟩ c.rest
  .ok (d, ⟨rest, c.line, c.column + (c.rest.length - rest.length)⟩)

/-- Scales a binary number by a power of ten, in steps of at most 308 places;
`none` when it overflows. -/
def scale : Nat → Binary64 → Int → Option Binary64
  | 0, x, _ => some x
  | fuel + 1, x, power =>
      if power.natAbs ≤ 308 then
        let factor := Binary64.ofDecimal false 1 power.natAbs
        if 0 ≤ power then
          let y := x.mul factor
          if y.isFinite then some y else none
        else some (x.div factor)
      else if x.significand = 0 then some x
      else if 0 ≤ power then none
      else scale fuel (x.div (Binary64.ofDecimal false 1 308)) (power + 308)

/-- The number `± value · 10 ^ power`. -/
def floating (negative : Bool) (value : Nat) (power : Int) : Reader JsonNumber :=
  -- three steps bring every 64-bit number to zero
  match scale 4 (Binary64.ofInt value) power with
  | some x => pure (.float (if negative then x.neg else x))
  | none => failHere .numberOutOfRange

/-- The greatest exponent that is read as such. -/
def maxExponent : Nat := 2147483647

/-- Takes the digits of an exponent up to the first one that makes it too big. -/
def exponentRun (acc : Nat) : List Char → Nat × Bool × List Char × Nat
  | [] => (acc, false, [], 0)
  | c :: cs =>
      if c.isDigit then
        let value := acc * 10 + (c.toNat - 48)
        if value ≤ maxExponent then
          let (n, tooGreat, rest, count) := exponentRun value cs
          (n, tooGreat, rest, count + 1)
        else (acc, true, cs, 1)
      else (acc, false, c :: cs, 0)

/-- Reads an exponent, its letter first. -/
def exponentPart (negative : Bool) (value : Nat) (power : Int) : Reader JsonNumber := do
  skip
  let downward ← do
    match ← peek with
    | some '+' => skip; pure false
    | some '-' => skip; pure true
    | _ => pure false
  match ← peek with
  | none => failHere .endInValue
  | some c =>
      if !c.isDigit then failAhead .invalidNumber
      let (n, tooGreat, rest, count) := exponentRun 0 (← get).rest
      modify fun c => ⟨rest, c.line, c.column + count⟩
      if tooGreat then
        if value ≠ 0 ∧ !downward then failHere .numberOutOfRange
        skipWhile Char.isDigit
        pure (.float (Binary64.zero negative))
      else floating negative value (if downward then power - n else power + n)

/-- Reads a fraction, its point first. -/
def fractionPart (negative : Bool) (value : Nat) (power : Int) : Reader JsonNumber := do
  skip
  let digits ← takeDigits value
  if digits.taken = 0 ∧ digits.dropped = 0 then
    match ← peek with
    | some _ => failAhead .invalidNumber
    | none => failAhead .endInValue
  let power := power - digits.taken
  match ← peek with
  | some 'e' | some 'E' => exponentPart negative digits.value power
  | _ => floating negative digits.value power

/-- Reads a number after its sign. -/
def number (negative : Bool) : Reader JsonNumber := do
  match ← peek with
  | none => failHere .endInValue
  | some c =>
      if !c.isDigit then failAhead .invalidNumber
      if c = '0' then
        skip
        match ← peek with
        | some d => if d.isDigit then failAhead .invalidNumber
        | none => pure ()
      let digits ← if c = '0' then pure ⟨0, 0, 1⟩ else takeDigits 0
      match ← peek with
      | some '.' => fractionPart negative digits.value digits.dropped
      | some 'e' | some 'E' => exponentPart negative digits.value digits.dropped
      | _ =>
          if digits.dropped ≠ 0 then floating negative digits.value digits.dropped
          else if !negative then pure (.int digits.value)
          else if digits.value = 0 ∨ 9223372036854775808 < digits.value then
            pure (.float (Binary64.ofInt digits.value).neg)
          else pure (.int (-(digits.value : Int)))

/-- Reads a number with its sign. -/
def signedNumber : Reader JsonNumber := do
  match ← peek with
  | some '-' => skip; number true
  | _ => number false

/-! ## Strings -/

/-- Reads the four hexadecimal digits of an escape. -/
def hexEscape : Reader Nat := fun c =>
  match placeAfter 4 c.rest (c.line, c.column) with
  | none =>
      -- the text ends within the escape
      let place := c.rest.foldl (fun place ch => step ch place) (c.line, c.column)
      .error ⟨.endInString, place.1, place.2⟩
  | some place =>
      match (c.rest.take 4).mapM Uuid.hexValue? with
      | some [a, b, d, e] =>
          .ok (((a * 16 + b) * 16 + d) * 16 + e, ⟨c.rest.drop 4, place.1, place.2⟩)
      | _ => .error ⟨.invalidEscape, place.1, place.2⟩

/-- Takes the character that must follow in the second half of a surrogate pair. -/
def expectInPair (expected : Char) : Reader Unit := do
  match ← peek with
  | none => failHere .endInString
  | some c =>
      if c = expected then skip else failAhead .unexpectedEndOfHexEscape

/-- Reads an escape after its `u`. -/
def unicodeEscape : Reader Char := do
  let first ← hexEscape
  if 0xDC00 ≤ first ∧ first ≤ 0xDFFF then failHere .loneSurrogate
  if first < 0xD800 ∨ 0xDBFF < first then pure (Char.ofNat first)
  else
    expectInPair '\\'
    expectInPair 'u'
    let second ← hexEscape
    if second < 0xDC00 ∨ 0xDFFF < second then failHere .loneSurrogate
    else pure (Char.ofNat (0x10000 + (first - 0xD800) * 0x400 + (second - 0xDC00)))

/-- Reads an escape after its backslash. -/
def escape : Reader Char := do
  match ← peek with
  | none => failHere .endInString
  | some c =>
      match c with
      | '"' => skip; pure '"'
      | '\\' => skip; pure '\\'
      | '/' => skip; pure '/'
      | 'b' => skip; pure '\x08'
      | 'f' => skip; pure '\x0c'
      | 'n' => skip; pure '\n'
      | 'r' => skip; pure '\r'
      | 't' => skip; pure '\t'
      | 'u' => skip; unicodeEscape
      | _ => failAhead .invalidEscape

/-- Reads a string after its opening quote; `acc` holds its characters so far,
the last one first. -/
def stringTail : Nat → List Char → Reader String
  | 0, _ => failHere .endInString
  | fuel + 1, acc => do
      match ← peek with
      | none => failHere .endInString
      | some '"' => skip; pure (String.ofList acc.reverse)
      | some '\\' =>
          skip
          let c ← escape
          stringTail fuel (c :: acc)
      | some c =>
          if c.toNat < 0x20 then failAhead .controlCharacter
          skip
          stringTail fuel (c :: acc)

/-- Reads a string after its opening quote. -/
def string : Reader String := do stringTail ((← get).rest.length + 1) []

/-! ## Values -/

/-- Whether another item follows in an array whose bracket stays unread. -/
def hasItem (first : Bool) : Reader Bool := do
  match ← peekToken with
  | none => failAhead .endInList
  | some ']' => pure false
  | some c =>
      if first then pure true
      else if c = ',' then
        skip
        match ← peekToken with
        | some ']' => failAhead .trailingComma
        | some _ => pure true
        | none => failAhead .endInValue
      else failAhead .expectedListCommaOrEnd

/-- Whether another member follows in an object whose brace stays unread. -/
def hasMember (first : Bool) : Reader Bool := do
  match ← peekToken with
  | none => failAhead .endInObject
  | some '\x7d' => pure false
  | some c =>
      if first then
        if c = '"' then pure true else failAhead .keyNotString
      else if c = ',' then
        skip
        match ← peekToken with
        | some '"' => pure true
        | some '\x7d' => failAhead .trailingComma
        | some _ => failAhead .keyNotString
        | none => failAhead .endInValue
      else failAhead .expectedObjectCommaOrEnd

/-- Takes the colon between a member's name and its value. -/
def colon : Reader Unit := do
  match ← peekToken with
  | some ':' => skip
  | some _ => failAhead .expectedColon
  | none => failAhead .endInObject

mutual

/-- Reads a value that may hold `depth - 1` levels of arrays and objects. Of two calls
in each other at least one takes a character, so that twice the number of characters is
fuel enough. -/
def value : Nat → Nat → Reader Json
  | 0, _ => failHere .endInValue
  | fuel + 1, depth => do
      match ← peekToken with
      | none => failAhead .endInValue
      | some 'n' => skip; literal ['u', 'l', 'l']; pure .null
      | some 't' => skip; literal ['r', 'u', 'e']; pure (.bool true)
      | some 'f' => skip; literal ['a', 'l', 's', 'e']; pure (.bool false)
      | some '"' => skip; return .string (← string)
      | some '-' => skip; return .number (← number true)
      | some '[' =>
          if depth ≤ 1 then failAhead .tooDeep
          skip
          let items ← items fuel (depth - 1) true
          skip
          pure (.array items)
      | some '\x7b' =>
          if depth ≤ 1 then failAhead .tooDeep
          skip
          let members ← members fuel (depth - 1) true []
          skip
          pure (.object members)
      | some c =>
          if c.isDigit then return .number (← number false) else failAhead .expectedValue

/-- Reads the items of an array up to its closing bracket. -/
def items : Nat → Nat → Bool → Reader (List Json)
  | 0, _, _ => failHere .endInList
  | fuel + 1, depth, first => do
      if ← hasItem first then
        let item ← value fuel depth
        return item :: (← items fuel depth false)
      else pure []

/-- Reads the members of an object up to its closing brace. -/
def members : Nat → Nat → Bool → List (String × Json) → Reader (List (String × Json))
  | 0, _, _, _ => failHere .endInObject
  | fuel + 1, depth, first, acc => do
      if ← hasMember first then
        skip
        let name ← string
        colon
        let v ← value fuel depth
        members fuel depth false (Json.insertMember name v acc)
      else pure acc

end

/-- Reads a whole text. -/
def document (depth : Nat) : Reader Json := do
  let v ← value (2 * ((← get).rest.length + 1)) depth
  match ← peekToken with
  | none => pure v
  | some _ => failAhead .trailingCharacters

end JsonReader

/-- How deeply arrays and objects may be nested, plus one. -/
def Json.depthLimit : Nat := 128

/-- Reads a text that nests arrays and objects fewer than `limit` deep. -/
def Json.parseWithin (limit : Nat) (text : String) : Except JsonSyntaxError Json :=
  ((JsonReader.document limit).run (JsonReader.Cursor.start text)).map (·.1)

/-- Reads a JSON text. -/
def Json.parse (text : String) : Except JsonSyntaxError Json := Json.parseWithin Json.depthLimit text

end SelectiveMerge
