import SelectiveMerge.Declaration.SyntaxFault

/-!
# Readers of token trees

A reader takes token trees from the front of a source or says why it cannot. The
readers here are those that all grammars share: punctuation, words, literals,
lifetimes and groups, and the ways to put readers together. Most readers give the
text of what they took.

A group that is not read to its end does not stop the reader at once: the source
keeps that it was, and the whole reading fails when nothing else is wrong.

* `TokenReader.inside` — reads the content of a group
* `TokenReader.all` — reads a source to its end
-/

namespace SelectiveMerge.Declaration

/-- What is left to read, and the brackets of the first group in which something was
left. -/
structure Source where
  trees : List TokenTree
  unread : Option Delimiter

/-- Takes token trees from the front. -/
abbrev TokenReader := StateT Source (Except SyntaxFault)

/-- A test of what comes next. -/
abbrev Peek := List TokenTree → Bool

namespace Peek

/-- Whether trees begin with punctuation characters that follow each other at once. -/
def characters : List Char → Peek
  | [], _ => true
  | [c], .punct d _ :: _ => c == d
  | c :: d :: cs, .punct e joint :: ts => c == e && joint && characters (d :: cs) ts
  | _, _ => false

/-- Whether a mark of punctuation comes next. -/
def mark (s : String) : Peek := characters s.toList

/-- Whether a certain word comes next. -/
def word (w : String) : Peek
  | .ident name :: _ => name == w
  | _ => false

/-- Whether one of some words comes next. -/
def oneOf (words : List String) : Peek := fun ts => words.any fun w => word w ts

/-- Whether any word comes next. -/
def someWord : Peek
  | .ident _ :: _ => true
  | _ => false

/-- Whether a name comes next: a word that is not reserved. -/
def name : Peek
  | .ident w :: _ => !isKeyword w
  | _ => false

/-- Whether a lifetime comes next. -/
def lifetime : Peek
  | .lifetime _ :: _ => true
  | _ => false

/-- Whether a group comes next. -/
def group (d : Delimiter) : Peek
  | .group e _ :: _ => d == e
  | _ => false

/-- The literal that comes next: a token, one of the two truth values, or a number
after a minus sign; with what follows it. -/
def literalAt : List TokenTree → Option (LiteralKind × String × List TokenTree)
  | .literal kind text :: ts => some (kind, text, ts)
  | .punct '-' _ :: .literal .int text :: ts => some (.int, "-" ++ text, ts)
  | .punct '-' _ :: .literal .float text :: ts => some (.float, "-" ++ text, ts)
  | .ident "true" :: ts => some (.truth true, "true", ts)
  | .ident "false" :: ts => some (.truth false, "false", ts)
  | _ => none

/-- Whether a literal comes next. -/
def literal : Peek := fun ts => (literalAt ts).isSome

/-- Whether a literal of a kind comes next. -/
def literalOf (test : LiteralKind → Bool) : Peek := fun ts =>
  match literalAt ts with
  | some (kind, _, _) => test kind
  | none => false

/-- What comes after the next tree. -/
def second (p : Peek) : Peek := fun ts => p (ts.drop 1)

/-- What comes after the next two trees. -/
def third (p : Peek) : Peek := fun ts => p (ts.drop 2)

end Peek

namespace TokenReader

variable {α β : Type}

/-! ## Faults -/

/-- Complains about what comes next. -/
def complain (complaint : Complaint) : TokenReader α := fun s =>
  .error ⟨s.trees.isEmpty, complaint⟩

/-- Complains about something that was taken. -/
def reject (complaint : Complaint) : TokenReader α := fun _ => .error ⟨false, complaint⟩

/-- Complains that one of some things was expected. -/
def expected (things : List String) : TokenReader α := complain (.expected things)

/-- Complains that one of some things was expected where certain trees are left. -/
def expectedAt (ts : List TokenTree) (things : List String) : TokenReader α := fun _ =>
  .error ⟨ts.isEmpty, .expected things⟩

/-- Complains that one of some words or of some other things was expected where certain
trees are left. A word that does come there is not named. -/
def expectedWordAt (ts : List TokenTree) (words others : List String) : TokenReader α :=
  expectedAt ts ((words.filter fun w => !Peek.word w ts).map (fun w => "`" ++ w ++ "`") ++ others)

/-- Gives up where no reader should get to. -/
def giveUp : TokenReader α := complain .unexpected

/-! ## Looking ahead -/

/-- What a function gives of the trees that are left. -/
def look (f : List TokenTree → α) : TokenReader α := fun s => .ok (f s.trees, s)

/-- Whether a test holds of what comes next. -/
def sees (p : Peek) : TokenReader Bool := look p

/-- Whether nothing is left. -/
def atEnd : TokenReader Bool := sees List.isEmpty

/-- What would be left after a reader, if it does not fail. -/
def treesAfter (reader : TokenReader α) : TokenReader (Option (List TokenTree)) := fun s =>
  match reader s with
  | .ok (_, rest) => .ok (some rest.trees, s)
  | .error _ => .ok (none, s)

/-- Reads with the first of some readers whose test holds of what comes next. -/
def choose (branches : List (Peek × TokenReader α)) (otherwise : TokenReader α) : TokenReader α :=
  fun s =>
    match branches.find? fun b => b.1 s.trees with
    | some (_, reader) => reader s
    | none => otherwise s

/-- Runs a reader, or takes nothing when it fails. -/
def attempt (reader : TokenReader α) : TokenReader (Option α) := fun s =>
  match reader s with
  | .ok (a, s) => .ok (some a, s)
  | .error _ => .ok (none, s)

/-! ## Tokens -/

/-- Drops trees. -/
def skip (count : Nat) : TokenReader Unit := fun s =>
  .ok ((), { s with trees := s.trees.drop count })

/-- Takes a mark of punctuation if it comes next. -/
def takes (s : String) : TokenReader Bool := do
  if ← sees (Peek.mark s) then
    skip s.length
    return true
  else return false

/-- Takes a mark of punctuation. -/
def punct (s : String) : TokenReader String := do
  if ← takes s then return s else reject (.expected ["`" ++ s ++ "`"])

/-- Takes a mark of punctuation if it comes next, and nothing otherwise. -/
def optionalMark (s : String) : TokenReader String := do
  if ← takes s then return s else return ""

/-- Takes a certain word if it comes next. -/
def takesWord (w : String) : TokenReader Bool := do
  if ← sees (Peek.word w) then
    skip 1
    return true
  else return false

/-- Takes a certain word. -/
def keyword (w : String) : TokenReader String := do
  if ← takesWord w then return w else expected ["`" ++ w ++ "`"]

/-- Takes a certain word if it comes next, and nothing otherwise. -/
def optionalWord (w : String) : TokenReader String := do
  if ← takesWord w then return w else return ""

/-- Takes any word, reserved or not. -/
def anyWord : TokenReader String := fun s =>
  match s.trees with
  | .ident name :: ts => .ok (name, { s with trees := ts })
  | _ => expected ["ident"] s

/-- Takes a name. -/
def identifier : TokenReader String := fun s =>
  match s.trees with
  | .ident name :: ts =>
      if isKeyword name then reject (.reservedName name) s else .ok (name, { s with trees := ts })
  | _ => expected ["identifier"] s

/-- Takes a name or an underscore. -/
def identifierOrBlank : TokenReader String := do
  if ← sees (Peek.word "_") then anyWord else identifier

/-- Takes a lifetime: its text. -/
def lifetimeText : TokenReader String := fun s =>
  match s.trees with
  | .lifetime name :: ts => .ok ("'" ++ name, { s with trees := ts })
  | _ => expected ["lifetime"] s

/-- Takes a lifetime if one comes next, and nothing otherwise. -/
def optionalLifetime : TokenReader String := do
  if ← sees Peek.lifetime then lifetimeText else return ""

/-- Takes a literal: its kind and its text. -/
def literalToken : TokenReader (LiteralKind × String) := fun s =>
  match Peek.literalAt s.trees with
  | some (kind, text, ts) => .ok ((kind, withoutBlanks text), { s with trees := ts })
  | none => expected ["literal"] s

/-- Takes a literal: its text. -/
def literalText : TokenReader String := do return (← literalToken).2

/-! ## Groups -/

/-- The name of a sort of brackets. -/
def groupName : Delimiter → String
  | .paren => "parentheses"
  | .bracket => "square brackets"
  | .brace => "curly braces"

/-- Reads the content of a group. -/
def content (d : Delimiter) (reader : TokenReader α) : TokenReader α := fun s =>
  match s.trees with
  | .group e trees :: ts =>
      if d = e then
        match reader ⟨trees, s.unread⟩ with
        | .ok (a, rest) =>
            .ok (a, ⟨ts, rest.unread.or (if rest.trees.isEmpty then none else some d)⟩)
        | .error fault => .error fault
      else expected [groupName d] s
  | _ => expected [groupName d] s

/-- Reads the content of a group: the text of the group. -/
def inside (d : Delimiter) (reader : TokenReader String) : TokenReader String := do
  return d.opening ++ (← content d reader) ++ d.closing

/-- Takes a group of any sort without reading it: its brackets and its content. -/
def anyGroup : TokenReader (Delimiter × List TokenTree) := fun s =>
  match s.trees with
  | .group d trees :: ts => .ok ((d, trees), { s with trees := ts })
  | _ => expected ["delimiter"] s

/-- Takes a group of any sort without reading it: its text. -/
def groupText : TokenReader String := do
  let (d, trees) ← anyGroup
  return (TokenTree.group d trees).text

/-- Takes all trees that are left: their text. -/
def restText : TokenReader String := fun s => .ok (textOfTrees s.trees, { s with trees := [] })

/-- What a reader reads, with the text of the trees that it takes as it is in the
source. -/
def withSource (reader : TokenReader α) : TokenReader (α × String) := fun s =>
  match reader s with
  | .ok (a, rest) =>
      .ok ((a, textOfTrees (s.trees.take (s.trees.length - rest.trees.length))), rest)
  | .error fault => .error fault

/-- The text of the trees that a reader takes, as it is in the source. -/
def verbatim (reader : TokenReader α) : TokenReader String := do
  return (← withSource reader).2

/-! ## Sequences -/

/-- Reads one thing after another: their texts in a row. -/
def texts (readers : List (TokenReader String)) : TokenReader String := do
  return String.join (← readers.mapM id)

/-- Reads something if a test holds of what comes next, and nothing otherwise. -/
def ifSees (p : Peek) (reader : TokenReader String) : TokenReader String := do
  if ← sees p then reader else return ""

/-- Repeats a step until it says that it was the last one. Every step but the last
takes something, so that the number of trees bounds their number. -/
def repeatStep (step : α → TokenReader (α × Bool)) (start : α) : TokenReader α := fun s =>
  let rec go : Nat → α → TokenReader α
    | 0, _ => giveUp
    | count + 1, a => do
        let (a, more) ← step a
        if more then go count a else return a
  go (s.trees.length + 1) start s

/-- Reads items as long as a test holds: their texts in a row. -/
def whileSees (p : Peek) (item : TokenReader String) : TokenReader String :=
  repeatStep (fun text => do
    if ← sees p then return (text ++ (← item), true) else return (text, false)) ""

/-- Reads items up to the end of the source: their texts in a row. -/
def untilEnd (item : TokenReader String) : TokenReader String :=
  whileSees (fun ts => !ts.isEmpty) item

/-- Reads items with a separator between them, until a test holds; a separator may
stand last. -/
def separatedUntil (separator : String) (stop : Peek) (item : TokenReader String) :
    TokenReader String :=
  repeatStep (fun text => do
    if ← sees stop then return (text, false)
    let text := text ++ (← item)
    if ← sees stop then return (text, false)
    return (text ++ (← punct separator), true)) ""

/-- Reads items with commas between them up to the end of the source. -/
def commaSeparated (item : TokenReader String) : TokenReader String :=
  separatedUntil "," List.isEmpty item

/-- Reads items joined by a separator for as long as it follows, stopping before an
item where a test holds. -/
def joinedUntil (separator : String) (stop : Peek) (item : TokenReader String) :
    TokenReader String :=
  repeatStep (fun text => do
    if ← sees stop then return (text, false)
    let text := text ++ (← item)
    if ← takes separator then return (text ++ separator, true) else return (text, false)) ""

/-! ## Whole sources -/

/-- Reads trees to their end. -/
def all (reader : TokenReader α) (trees : List TokenTree) : Except SyntaxFault α :=
  match reader ⟨trees, none⟩ with
  | .ok (a, ⟨[], none⟩) => .ok a
  | .ok (_, ⟨_, some d⟩) => .error ⟨false, .leftover (some d)⟩
  | .ok (_, ⟨_ :: _, none⟩) => .error ⟨false, .leftover none⟩
  | .error fault => .error fault

end TokenReader

end SelectiveMerge.Declaration
