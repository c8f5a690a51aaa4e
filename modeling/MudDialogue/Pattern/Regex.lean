import MudDialogue.Pattern.Cursor

/-!
# Regular expressions

A regular expression is built from atoms and looks. There are three kinds of loops. What `plus` and
`star` repeat always takes something up, so their rounds get on by themselves; a `loose` loop
repeats what may also take up nothing, and the meaning of a match has to see to it that it ends.

## Main definitions

* `Regex` — a regular expression.
* `Regex.times` — a repetition between two bounds.
-/

namespace MudDialogue.Pattern

open Text

/-- A regular expression. -/
inductive Regex where
  /-- Matches nothing at all, everywhere. -/
  | empty
  /-- One character or byte. -/
  | atom (a : Atom)
  /-- A condition on the place. -/
  | look (l : Look)
  /-- A part whose last match is remembered under a name. -/
  | group (name : String) (r : Regex)
  /-- One part after the other. -/
  | cat (r s : Regex)
  /-- The first part or, failing that, the second. -/
  | alt (r s : Regex)
  /-- One or more rounds of what takes something up: as many as possible if greedy, else as few as
  possible. -/
  | plus (greedy : Bool) (r : Regex)
  /-- Any number of rounds of what takes something up. -/
  | star (greedy : Bool) (r : Regex)
  /-- One or more rounds of what may take up nothing. -/
  | loose (greedy : Bool) (r : Regex)
deriving DecidableEq, Repr

namespace Regex

/-- All parts in order. -/
def concat : List Regex → Regex
  | [] => empty
  | r :: rs => rs.foldl cat r

/-- The given bytes. -/
def bytes (bs : List UInt8) : Regex := concat (bs.map fun b => atom (.byte (.single b.toNat)))

/-- One given character. -/
def char (c : Char) : Regex := bytes (String.utf8EncodeChar c)

/-- A text. -/
def literal (s : String) : Regex := bytes (Utf8.bytes s)

/-- `r` or nothing. -/
def optional (greedy : Bool) (r : Regex) : Regex := if greedy then alt r empty else alt empty r

/-- Exactly `n` rounds. -/
def copies (r : Regex) (n : Nat) : Regex :=
  if n = 0 then empty
  else if n = 1 then r
  else cat (copies r (n / 2)) (copies r (n - n / 2))
termination_by n

/-- Up to `n` rounds, each of them only after the one before. -/
def atMost (greedy : Bool) (r : Regex) : Nat → Regex
  | 0 => empty
  | 1 => optional greedy r
  | n + 1 => optional greedy (cat r (atMost greedy r n))

/-- One or more rounds; `solid` says that `r` always takes something up. -/
def oneOrMore (solid greedy : Bool) (r : Regex) : Regex :=
  if solid then plus greedy r else loose greedy r

/-- Any number of rounds; `solid` says that `r` always takes something up. -/
def zeroOrMore (solid greedy : Bool) (r : Regex) : Regex :=
  if solid then star greedy r else optional greedy (loose greedy r)

/-- At least `least` rounds and, if there is a bound, no more than it. -/
def times (r : Regex) (solid : Bool) (least : Nat) (most? : Option Nat) (greedy : Bool) : Regex :=
  match most?, least with
  | none, 0 => zeroOrMore solid greedy r
  | none, 1 => oneOrMore solid greedy r
  | none, n + 1 => cat (copies r n) (oneOrMore solid greedy r)
  | some most, 0 => atMost greedy r most
  | some most, least =>
    if least < most then cat (copies r least) (atMost greedy r (most - least)) else copies r least

/-- The names of the groups, in order. -/
def groupNames : Regex → List String
  | empty | atom _ | look _ => []
  | group name r => name :: r.groupNames
  | cat r s | alt r s => r.groupNames ++ s.groupNames
  | plus _ r | star _ r | loose _ r => r.groupNames

end Regex

end MudDialogue.Pattern
