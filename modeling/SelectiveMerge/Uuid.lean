/-!
# Unique identifiers

A unique identifier is a 128-bit word. It is written as thirty-two small
hexadecimal digits in groups of 8, 4, 4, 4 and 12, and read in that form, without
the hyphens, in braces, or after `urn:uuid:`.

* `Uuid.ofText?` — the identifier that a text is
* `Uuid.read` — the same, or why the text is none
-/

namespace SelectiveMerge

/-- A universally unique identifier. -/
structure Uuid where
  bits : BitVec 128
  deriving DecidableEq, Inhabited

namespace Uuid

/-- The identifier of all zero bits, which stands for "no identity yet". -/
def nil : Uuid := ⟨0⟩

/-- Whether the identifier is `nil`. -/
def isNil (u : Uuid) : Bool := u == nil

/-- The small hexadecimal digit for a number below sixteen. -/
def hexDigit (n : Nat) : Char := Char.ofNat (if n < 10 then 48 + n else 87 + n)

/-- The value of a hexadecimal digit of either case. -/
def hexValue? (c : Char) : Option Nat :=
  if c.isDigit then some (c.toNat - 48)
  else if 'a' ≤ c ∧ c ≤ 'f' then some (c.toNat - 87)
  else if 'A' ≤ c ∧ c ≤ 'F' then some (c.toNat - 55)
  else none

/-- The last `count` hexadecimal digits of a number. -/
def hexDigits : Nat → Nat → List Char
  | 0, _ => []
  | count + 1, n => hexDigits count (n / 16) ++ [hexDigit (n % 16)]

/-- The number that a list of hexadecimal digits denotes. -/
def readHex (cs : List Char) : Option Nat :=
  cs.foldlM (fun acc c => (hexValue? c).map (acc * 16 + ·)) 0

/-- The five groups of digits with hyphens between them. -/
def hyphenate (ds : List Char) : List Char :=
  ds.take 8 ++ '-' :: (ds.drop 8).take 4 ++ '-' :: (ds.drop 12).take 4 ++
    '-' :: (ds.drop 16).take 4 ++ '-' :: ds.drop 20

/-- The digits of a hyphenated text of thirty-six characters. -/
def unhyphenate? (cs : List Char) : Option (List Char) :=
  let ds := cs.take 8 ++ (cs.drop 9).take 4 ++ (cs.drop 14).take 4 ++ (cs.drop 19).take 4 ++
    cs.drop 24
  if cs = hyphenate ds then some ds else none

/-- The text of an identifier. -/
def toText (u : Uuid) : String := String.ofList (hyphenate (hexDigits 32 u.bits.toNat))

/-- Reads thirty-two digits. -/
def ofDigits? (ds : List Char) : Option Uuid :=
  if ds.length = 32 then (readHex ds).map fun n => ⟨BitVec.ofNat 128 n⟩ else none

/-- Reads the hyphenated form. -/
def ofHyphenated? (cs : List Char) : Option Uuid := (unhyphenate? cs).bind ofDigits?

/-- The word that may stand before the hyphenated form. -/
def urnLabel : List Char := "urn:uuid:".toList

/-- Reads an identifier in one of its four forms. -/
def ofText? (s : String) : Option Uuid :=
  let cs := s.toList
  match cs.length with
  | 32 => ofDigits? cs
  | 36 => ofHyphenated? cs
  | 38 => if cs.head? = some '{' ∧ cs.getLast? = some '}' then ofHyphenated? (cs.drop 1).dropLast
          else none
  | 45 => if urnLabel.isPrefixOf cs then ofHyphenated? (cs.drop 9) else none
  | _ => none

/-! ## Faults -/

/-- Why a text is no identifier. -/
inductive Fault where
  /-- The digits alone are too few or too many. -/
  | length (found : Nat)
  | character (found : Char) (position : Nat)
  | groupCount (found : Nat)
  | groupLength (group expected found : Nat)
  deriving DecidableEq

/-- The wording of a fault. -/
def Fault.message : Fault → String
  | .length found => "invalid length: found " ++ toString found
  | .character found position =>
      "invalid character: found `" ++ String.singleton found ++ "` at " ++ toString position
  | .groupCount found => "invalid group count: expected 5, found " ++ toString found
  | .groupLength group expected found =>
      "invalid group length in group " ++ toString group ++ ": expected " ++ toString expected ++
        ", found " ++ toString found

/-- What stands in braces or after the label, or else the whole text, with the number of
characters in front of it. -/
def enclosed (cs : List Char) : List Char × Nat :=
  if urnLabel.isPrefixOf cs then (cs.drop urnLabel.length, urnLabel.length)
  else
    match cs with
    | '\x7b' :: rest =>
        if rest.getLast? = some '\x7d' then (rest.dropLast, 1) else (cs, 0)
    | _ => (cs, 0)

/-- The lengths of the groups between hyphens. -/
def groupLengths : List Char → List Nat
  | [] => [0]
  | c :: cs =>
      if c = '-' then 0 :: groupLengths cs
      else
        match groupLengths cs with
        | [] => [1]
        | n :: ns => (n + 1) :: ns

/-- The first group, from `number` on, that has not the length that it has to have. -/
def wrongGroup? (number : Nat) : List Nat → List Nat → Option Fault
  | expected :: more, found :: rest =>
      if found = expected then wrongGroup? (number + 1) more rest
      else some (.groupLength number expected found)
  | _, _ => none

/-- Why a text that is no identifier is none. A wrong character is found first, then a
wrong number of groups, then the first wrong group; the last group is what is too many
at the end of the whole text. -/
def faultOf (cs : List Char) : Fault :=
  let (body, offset) := enclosed cs
  match body.findIdx? fun c => c ≠ '-' && (hexValue? c).isNone with
  | some i => .character (body.getD i '-') (offset + i)
  | none =>
      let lengths := groupLengths body
      if lengths.length = 1 ∧ offset = 0 then .length cs.length
      else if lengths.length ≠ 5 then .groupCount lengths.length
      else (wrongGroup? 0 [8, 4, 4, 4] lengths).getD (.groupLength 4 12 (cs.length - 24))

/-- Reads an identifier, or says why a text is none. -/
def read (s : String) : Except Fault Uuid :=
  match ofText? s with
  | some u => .ok u
  | none => .error (faultOf s.toList)

instance : ToString Uuid := ⟨toText⟩

end Uuid

end SelectiveMerge
