import SelectiveMerge.Text.Ascii

/-!
# Paths

A path names a member of an object graph by the member names that lead to it.
It is written with dots between its segments. The module has the operations on
paths and the two comparisons up to the case of ASCII letters on which
configuration rests.
-/

namespace SelectiveMerge

/-- A sequence of member names. -/
structure Path where
  segments : List String
  deriving DecidableEq, Inhabited

namespace Path

/-- The path of the object itself. -/
def root : Path := ⟨[]⟩

/-- The characters between the dots of a text. -/
def splitDots : List Char → List (List Char)
  | [] => [[]]
  | c :: cs =>
      if c = '.' then [] :: splitDots cs
      else
        match splitDots cs with
        | [] => [[c]]
        | word :: words => (c :: word) :: words

/-- Reads dotted text; empty segments are dropped. -/
def parse (text : String) : Path :=
  ⟨((splitDots text.toList).filter (· ≠ [])).map String.ofList⟩

/-- Dotted text. -/
def toText (p : Path) : String := String.intercalate "." p.segments

instance : ToString Path := ⟨toText⟩

/-- The number of segments. -/
def length (p : Path) : Nat := p.segments.length

/-- The path of a member of the object at `p`. -/
def child (p : Path) (name : String) : Path := ⟨p.segments ++ [name]⟩

/-- The path that first follows `p` and then `q`. -/
def join (p q : Path) : Path := ⟨p.segments ++ q.segments⟩

/-- The path without its last segment; the root has none. -/
def parent? (p : Path) : Option Path :=
  if p.segments = [] then none else some ⟨p.segments.dropLast⟩

/-- The first segment. -/
def first? (p : Path) : Option String := p.segments.head?

/-- The last segment. -/
def last? (p : Path) : Option String := p.segments.getLast?

/-- Whether two lists of segments agree, as far as both go, up to the case of
ASCII letters. -/
def agree (ps qs : List String) : Bool := (ps.zip qs).all fun pq => Text.eqIgnoreCase pq.1 pq.2

/-- Equality up to the case of ASCII letters. -/
def eqIgnoreCase (p q : Path) : Bool :=
  p.length == q.length && agree p.segments q.segments

/-- Whether `start` is an initial part of `p`, up to the case of ASCII letters. -/
def startsWithIgnoreCase (p start : Path) : Bool :=
  start.length ≤ p.length && agree p.segments start.segments

/-- Whether `finish` is a final part of `p`, up to the case of ASCII letters. -/
def endsWithIgnoreCase (p finish : Path) : Bool :=
  finish.length ≤ p.length && agree p.segments.reverse finish.segments.reverse

/-- Paths in the order of their segments, which are compared by code points. -/
def compare (p q : Path) : Ordering := compareLists p.segments q.segments
where
  /-- Lexicographic order. -/
  compareLists : List String → List String → Ordering
    | [], [] => .eq
    | [], _ :: _ => .lt
    | _ :: _, [] => .gt
    | a :: as, b :: bs => if a < b then .lt else if b < a then .gt else compareLists as bs

@[simp] theorem segments_child (p : Path) (name : String) :
    (p.child name).segments = p.segments ++ [name] := rfl

@[simp] theorem segments_join (p q : Path) : (p.join q).segments = p.segments ++ q.segments := rfl

@[simp] theorem root_join (p : Path) : root.join p = p := rfl

theorem join_assoc (p q r : Path) : (p.join q).join r = p.join (q.join r) := by
  simp [join]

theorem join_child (p q : Path) (name : String) : p.join (q.child name) = (p.join q).child name := by
  simp [join, child]

end Path

end SelectiveMerge
