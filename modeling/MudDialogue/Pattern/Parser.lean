import MudDialogue.Pattern.Room
import MudDialogue.Pattern.Token

/-!
# Patterns from text

The second pass over a pattern puts its tokens together. It keeps the groups that are open on a
stack. A pattern is refused if its parentheses do not pair up, if a repetition has nothing to
repeat, if two groups have one name, if it is nested too deeply or if it takes too much room.
-/

namespace MudDialogue.Pattern

/-- A pattern and how deep its spelling is nested. -/
structure Piece where
  /-- What it matches. -/
  form : Form
  /-- How deep it is nested. -/
  depth : Nat

/-- The deepest nesting of a pattern. -/
def maxDepth : Nat := 250

namespace Piece

/-- The part that matches nothing at all. -/
def empty : Piece := ⟨.empty, 0⟩

/-- The depth of pieces that stand together. Two or more count as a level of nesting. -/
def jointDepth (ps : List Piece) : Nat :=
  (ps.map depth).foldl max 0 + if ps.length < 2 then 0 else 1

/-- All parts in order. -/
def concat (ps : List Piece) : Piece := ⟨.concat (ps.map form), jointDepth ps⟩

/-- The first part that matches. -/
def choice (ps : List Piece) : Piece :=
  ⟨match ps with
    | [p] => p.form
    | ps => .choice (ps.map form), jointDepth ps⟩

/-- A part repeated. -/
def times (p : Piece) (n : Rounds) : Piece :=
  ⟨p.form.times n.least n.most? n.greedy, p.depth + 1⟩

end Piece

/-- A group that is open. -/
structure OpenGroup where
  /-- Its number, if it counts. -/
  number? : Option Nat
  /-- Its name, if it has one. -/
  name? : Option String
  /-- The alternatives that are complete, last first. -/
  alternatives : List Piece
  /-- The items of the last alternative, last first; changes of flags match nothing. -/
  items : List (Option Piece)

namespace OpenGroup

/-- Nothing read yet. -/
def start (number? : Option Nat) (name? : Option String) : OpenGroup := ⟨number?, name?, [], []⟩

/-- The last alternative as a part. -/
def alternative (g : OpenGroup) : Piece :=
  .concat (g.items.reverse.map (·.getD .empty))

/-- A bar completes an alternative. -/
def bar (g : OpenGroup) : OpenGroup :=
  { g with alternatives := g.alternative :: g.alternatives, items := [] }

/-- All alternatives as a part. -/
def body (g : OpenGroup) : Piece := .choice (g.alternative :: g.alternatives).reverse

/-- The whole group as a part. -/
def close (g : OpenGroup) : Piece :=
  let body := g.body
  ⟨match g.number? with
    | some number => .group number g.name? body.form
    | none => body.form, body.depth + 1⟩

/-- Adds a part at the end. -/
def push (g : OpenGroup) (p : Piece) : OpenGroup := { g with items := some p :: g.items }

end OpenGroup

/-- What has been read of a pattern. -/
structure Reading where
  /-- The innermost group that is open, or the whole pattern. -/
  inner : OpenGroup
  /-- The groups around it, the innermost first. -/
  outer : List OpenGroup
  /-- How many groups that count there are so far. -/
  count : Nat
  /-- The names of groups so far. -/
  names : List String

namespace Reading

/-- Nothing read yet. -/
def start : Reading := ⟨.start none none, [], 0, []⟩

/-- Takes up a token. -/
def step? (s : Reading) : Token → Option Reading
  | .part f depth => some { s with inner := s.inner.push ⟨f, depth⟩ }
  | .setting => some { s with inner := { s.inner with items := none :: s.inner.items } }
  | .bar => some { s with inner := s.inner.bar }
  | .opening counts name? =>
    if name?.any (· ∈ s.names) then none
    else if counts then
      some ⟨.start (some (s.count + 1)) name?, s.inner :: s.outer, s.count + 1,
        name?.toList ++ s.names⟩
    else some { s with inner := .start none none, outer := s.inner :: s.outer }
  | .closing =>
    match s.outer with
    | [] => none
    | g :: outer => some { s with inner := g.push s.inner.close, outer }
  | .rounds n =>
    match s.inner.items with
    | some p :: items =>
      some { s with inner := { s.inner with items := some (p.times n) :: items } }
    | none :: _ | [] => none

/-- The pattern, if all groups are closed and it is neither too deep nor too large. -/
def finish? (s : Reading) : Option Regex :=
  let whole := s.inner.body
  if s.outer.isEmpty && whole.depth ≤ maxDepth && whole.form.fits then some whole.form.toRegex
  else none

end Reading

/-- The regular expression that a text spells. -/
def Regex.ofString? (s : String) : Option Regex := do
  let ts ← tokens? .start s.toList
  let reading ← ts.foldlM Reading.step? .start
  reading.finish?

end MudDialogue.Pattern
