import MudDialogue.Text.CodeSet

/-!
# Sets that know whether case makes a difference

Where case is folded, a class holds both cases of each of its letters. Both cases of an ASCII letter
are known, those of other scripts are not; so a class of characters can be folded only if it is
known to be closed already. A set keeps this knowledge through the operations that combine sets.
-/

namespace MudDialogue.Pattern

open Text

/-- A set of code points or bytes. -/
structure ClassSet where
  /-- What is in it. -/
  members : CodeSet
  /-- It is known to hold both cases of each letter in it. -/
  closed : Bool
deriving DecidableEq, Repr

namespace ClassSet

/-- Nothing. -/
def empty : ClassSet := ⟨[], true⟩

/-- A set of which nothing is known, unless it is empty. -/
def ofCodes (s : CodeSet) : ClassSet := ⟨s, s.isEmpty⟩

/-- Adds a range, of which nothing is known. -/
def insert (low high : Nat) (s : ClassSet) : ClassSet := ⟨s.members.insert low high, false⟩

/-- The members of either set. -/
def union (s t : ClassSet) : ClassSet :=
  if t.members = [] ∨ s.members = t.members then s
  else ⟨s.members.union t.members, s.closed && t.closed⟩

/-- The members of both sets. -/
def inter (s t : ClassSet) : ClassSet :=
  if s.members = [] then s
  else if t.members = [] then empty
  else ⟨s.members.inter t.members, s.closed && t.closed⟩

/-- The members of the first set that are not in the second. -/
def diff (s t : ClassSet) : ClassSet :=
  if s.members = [] ∨ t.members = [] then s
  else ⟨s.members.diff t.members, s.closed && t.closed⟩

/-- The members of exactly one of two sets. -/
def symmDiff (s t : ClassSet) : ClassSet := (s.union t).diff (s.inter t)

/-- Everything up to `last` that is outside a set. -/
def compl (last : Nat) (s : ClassSet) : ClassSet :=
  ⟨s.members.compl last, s.closed || s.members.isEmpty⟩

/-- The set with both cases of each letter in it; of characters in all scripts the other case is not
known. -/
def fold? (unicode : Bool) (s : ClassSet) : Option ClassSet :=
  if s.closed then some s
  else if unicode && !s.members.isEmpty then none
  else some ⟨s.members.foldAsciiCase, true⟩

end ClassSet

end MudDialogue.Pattern
