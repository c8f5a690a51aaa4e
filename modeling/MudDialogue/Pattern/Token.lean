import MudDialogue.Pattern.Bracket
import MudDialogue.Pattern.Form
import MudDialogue.Text.Alphabetic
import MudDialogue.Text.Numeric

/-!
# The pieces of a pattern

A pattern is read in two passes. The first one, here, turns its text into tokens: parts that match
something, marks of repetition, and the parentheses and bars that hold them together. Flags belong
to this pass: a token already means what the flags in force at its place make of it, and the flags
of a group end with it.
-/

namespace MudDialogue.Pattern

open Text

/-- A piece of a pattern. -/
inductive Token where
  /-- A part that matches something; `depth` measures its spelling. -/
  | part (f : Form) (depth : Nat)
  /-- A change of flags. -/
  | setting
  /-- The start of a group, with its name if it has one. Groups that do not count only hold their
  parts together. -/
  | opening (counts : Bool) (name? : Option String)
  /-- The end of a group. -/
  | closing
  /-- The bar between alternatives. -/
  | bar
  /-- A repetition of the part before. -/
  | rounds (n : Rounds)

/-- The flags in force, and those to return to at the end of each open group. -/
structure Scope where
  /-- In force now. -/
  flags : Flags
  /-- Around the open groups, the innermost first. -/
  outer : List Flags

/-- A character that may stand in the name of a group; numbers, dots and brackets not at its start.
-/
def isNameChar (atStart : Bool) (c : Char) : Bool :=
  c == '_' || isAlphabetic c ||
    (!atStart && (isNumeric c || c == '.' || c == '[' || c == ']'))

/-- Reads the name of a group from behind the angle bracket. -/
def groupName? (cs : List Char) : Option (String × List Char) :=
  match cs.takeWhile (· != '>'), cs.dropWhile (· != '>') with
  | c :: name, '>' :: rest =>
    if isNameChar true c && name.all (isNameChar false) then some (String.ofList (c :: name), rest)
    else none
  | _, _ => none

namespace Scope

/-- The flags of a pattern before anything is said about them. -/
def start : Scope := ⟨{}, []⟩

/-- A group with flags of its own starts. -/
def enter (s : Scope) (flags : Flags) : Scope := ⟨flags, s.flags :: s.outer⟩

/-- A group ends. -/
def leave (s : Scope) : Scope :=
  match s.outer with
  | [] => s
  | flags :: outer => ⟨flags, outer⟩

/-- Reads the start of a group from behind the parenthesis. Groups that look around are not known.
-/
def opening? (s : Scope) (cs : List Char) : Option (Token × Scope × List Char) :=
  let named (cs : List Char) : Option (Token × Scope × List Char) := do
    let (name, rest) ← groupName? cs
    some (.opening true (some name), s.enter s.flags, rest)
  match s.flags.skip cs with
  | '?' :: '=' :: _ | '?' :: '!' :: _ | '?' :: '<' :: '=' :: _ | '?' :: '<' :: '!' :: _ => none
  | '?' :: 'P' :: '<' :: cs => named cs
  | '?' :: '<' :: cs => named cs
  | '?' :: ')' :: _ => none
  | '?' :: cs =>
    match s.flags.read? [] true cs with
    | none => none
    | some (flags, ')', rest) => some (.setting, { s with flags }, rest)
    | some (flags, _, rest) => some (.opening false none, s.enter flags, rest)
  | cs => some (.opening true none, s.enter s.flags, cs)

/-- A class as a part. -/
def classForm (s : Scope) (set : CodeSet) : Form :=
  if s.flags.unicode then .ofScalars set else .ofBytes set

/-- The part that a primitive stands for. Where case is folded over all scripts there are no
characters. -/
def part? (s : Scope) : Primitive → Option Form
  | .literal c raw =>
    if s.flags.unicode && s.flags.foldCase then none
    else if !s.flags.unicode && raw && 0x80 ≤ c.toNat then some (.literal [UInt8.ofNat c.toNat])
    else if s.flags.foldCase && c.isAlpha then
      some (.ofBytes (CodeSet.foldAsciiCase (.single c.toNat)))
    else some (.literal (String.utf8EncodeChar c))
  | .shorthand k negated => some (s.classForm (s.flags.shorthandClass k negated))
  | .look l => some (.look l)

/-- Reads the next token. -/
def token? (s : Scope) : List Char → Option (Token × Scope × List Char)
  | [] => none
  | '(' :: cs => s.opening? cs
  | ')' :: cs => some (.closing, s.leave, cs)
  | '|' :: cs => some (.bar, s, cs)
  | '[' :: cs => do
    let (b, rest) ← s.flags.bracket? cs
    some (.part (s.classForm b.set.members) b.depth, s, rest)
  | '?' :: cs => let (greedy, cs) := s.flags.greed cs; some (.rounds ⟨0, some 1, greedy⟩, s, cs)
  | '*' :: cs => let (greedy, cs) := s.flags.greed cs; some (.rounds ⟨0, none, greedy⟩, s, cs)
  | '+' :: cs => let (greedy, cs) := s.flags.greed cs; some (.rounds ⟨1, none, greedy⟩, s, cs)
  | '{' :: cs => do
    let (n, rest) ← s.flags.braces? cs
    some (.rounds n, s, rest)
  | '.' :: cs => some (.part (s.classForm s.flags.dot) 0, s, cs)
  | '^' :: cs => some (.part (.look s.flags.caret) 0, s, cs)
  | '$' :: cs => some (.part (.look s.flags.dollar) 0, s, cs)
  | '\\' :: cs => do
    let (p, rest) ← s.flags.escape? cs
    some (.part (← s.part? p) 0, s, rest)
  | c :: cs => do some (.part (← s.part? (.literal c false)) 0, s, cs)

end Scope

/-- The tokens of a pattern, if there are fewer than `bound` and every piece of it is well spelled.
-/
def tokensBelow? : Nat → Scope → List Char → Option (List Token)
  | 0, _, _ => none
  | bound + 1, s, cs =>
    match s.flags.skip cs with
    | [] => some []
    | c :: rest =>
      match s.token? (c :: rest) with
      | none => none
      | some (t, s, rest) => (tokensBelow? bound s rest).map (t :: ·)

/-- All tokens of a pattern, if every piece of it is well spelled. Each takes up a character at
least. -/
def tokens? (s : Scope) (cs : List Char) : Option (List Token) := tokensBelow? (cs.length + 1) s cs

end MudDialogue.Pattern
