import MudDialogue.Pattern.Regex

/-!
# Patterns in normal form

A pattern is simplified while it is put together: neighbouring texts become one, alternatives that
are single characters become a class, and what all alternatives start with is taken out of them. The
order in which a pattern tries its ways to match follows its simplified form, and so does the room
that it takes. Repetitions stay as they are until the pattern becomes a regular expression.

## Main definitions

* `Form` — a pattern.
* `Form.concat`, `Form.choice`, `Form.times` — parts put together and simplified.
* `Form.minWidth?`, `Form.maxWidth?` — bounds on how many bytes a match takes up.
* `Form.toRegex` — the regular expression with all repetitions written out.
-/

namespace MudDialogue.Pattern

open Text

/-- A pattern. -/
inductive Form where
  /-- Takes up nothing. -/
  | empty
  /-- A text that is not empty, or other bytes. -/
  | literal (bytes : List UInt8)
  /-- A character of a set. -/
  | scalars (set : CodeSet)
  /-- A byte of a set. -/
  | bytes (set : CodeSet)
  /-- A condition on the place. -/
  | look (l : Look)
  /-- A part repeated. -/
  | rounds (least : Nat) (most? : Option Nat) (greedy : Bool) (f : Form)
  /-- A part in parentheses that count, with its number and its name if it has one. -/
  | group (number : Nat) (name? : Option String) (f : Form)
  /-- One part and those after it. -/
  | cat (f g : Form)
  /-- One alternative and those after it. -/
  | alt (f g : Form)
deriving DecidableEq, Repr

namespace Form

/-- What never matches. -/
def never : Form := bytes .empty

/-- A character of a set; of a single one if there is only one in the set. -/
def ofScalars (set : CodeSet) : Form :=
  match set with
  | [] => never
  | [(low, high)] =>
    if low = high then literal (String.utf8EncodeChar (Char.ofNat low)) else scalars set
  | set => scalars set

/-- A byte of a set; a single one if there is only one in the set. -/
def ofBytes (set : CodeSet) : Form :=
  match set with
  | [] => never
  | [(low, high)] => if low = high then literal [UInt8.ofNat low] else bytes set
  | set => bytes set

/-! ### Widths -/

/-- How many bytes encode a code point. -/
def codeWidth (code : Nat) : Nat :=
  if code < 0x80 then 1 else if code < 0x800 then 2 else if code < 0x10000 then 3 else 4

/-- The least number of bytes that a match takes up, unless nothing can match. -/
def minWidth? : Form → Option Nat
  | empty | look _ => some 0
  | literal bs => some bs.length
  | scalars set => set.head?.map fun (low, _) => codeWidth low
  | bytes set => if set.isEmpty then none else some 1
  | rounds least _ _ f => f.minWidth?.map (least * ·)
  | group _ _ f => f.minWidth?
  | cat f g => do return (← f.minWidth?) + (← g.minWidth?)
  | alt f g => do return min (← f.minWidth?) (← g.minWidth?)

/-- The greatest number of bytes that a match takes up, unless there is no bound or nothing can
match. -/
def maxWidth? : Form → Option Nat
  | empty | look _ => some 0
  | literal bs => some bs.length
  | scalars set => set.getLast?.map fun (_, high) => codeWidth high
  | bytes set => if set.isEmpty then none else some 1
  | rounds _ most? _ f => do return (← most?) * (← f.maxWidth?)
  | group _ _ f => f.maxWidth?
  | cat f g => do return (← f.maxWidth?) + (← g.maxWidth?)
  | alt f g => do return max (← f.maxWidth?) (← g.maxWidth?)

/-- Every match is known to take something up. -/
def isSolid (f : Form) : Bool := f.minWidth?.any (0 < ·)

/-- No match takes anything up. -/
def isWeightless (f : Form) : Bool := f.maxWidth? == some 0

/-- Every match is known to start at the start of the text. -/
def isBoundLeft : Form → Bool
  | look l => l = .textStart
  | rounds least _ _ f => 0 < least && f.isBoundLeft
  | group _ _ f => f.isBoundLeft
  | cat f g => f.isBoundLeft || (f.isWeightless && g.isBoundLeft)
  | alt f g => f.isBoundLeft && g.isBoundLeft
  | _ => false

/-- Every match is known to end at the end of the text. -/
def isBoundRight : Form → Bool
  | look l => l = .textEnd
  | rounds least _ _ f => 0 < least && f.isBoundRight
  | group _ _ f => f.isBoundRight
  | cat f g => g.isBoundRight || (g.isWeightless && f.isBoundRight)
  | alt f g => f.isBoundRight && g.isBoundRight
  | _ => false

/-! ### Parts in a row -/

/-- The parts that stand in a row; nothing has none. -/
def parts : Form → List Form
  | empty => []
  | cat f g => f :: g.parts
  | f => [f]

/-- Neighbouring texts become one. -/
def joinLiterals : List Form → List Form
  | [] => []
  | literal bs :: rest =>
    match joinLiterals rest with
    | literal cs :: rest => literal (bs ++ cs) :: rest
    | rest => literal bs :: rest
  | f :: rest => f :: joinLiterals rest

/-- Parts put in a row as they are. -/
def row : List Form → Form
  | [] => empty
  | [f] => f
  | f :: fs => cat f (row fs)

/-- All parts in order. -/
def concat (fs : List Form) : Form := row (joinLiterals (fs.flatMap parts))

/-! ### Alternatives -/

/-- The alternatives of a part. -/
def branches : Form → List Form
  | alt f g => f :: g.branches
  | f => [f]

/-- Alternatives as they are. -/
def oneOf : List Form → Form
  | [] => never
  | [f] => f
  | f :: fs => alt f (oneOf fs)

/-- The only character of a text. -/
def onlyChar? : Form → Option Nat
  | literal (b :: rest) =>
    match Utf8.front b rest with
    | .scalar c width => if width = rest.length + 1 then some c.toNat else none
    | .invalid _ | .cut => none
  | _ => none

/-- The only byte of a text. -/
def onlyByte? : Form → Option Nat
  | literal [b] => some b.toNat
  | _ => none

/-- The characters of a class. A class of bytes counts if all of them are ASCII. -/
def scalarClass? : Form → Option CodeSet
  | scalars set => some set
  | bytes set => if set.isAscii then some set else none
  | _ => none

/-- The bytes of a class. A class of characters counts if all of them are ASCII. -/
def byteClass? : Form → Option CodeSet
  | bytes set => some set
  | scalars set => if set.isAscii then some set else none
  | _ => none

/-- The class that alternatives amount to which are all single characters, or bytes, or classes. -/
def asClass? (fs : List Form) : Option Form :=
  let codes (one? : Form → Option Nat) : Option CodeSet :=
    (fs.mapM one?).map fun codes => codes.foldl (fun s code => s.insert code code) .empty
  let sets (one? : Form → Option CodeSet) : Option CodeSet :=
    (fs.mapM one?).map fun sets => sets.foldl CodeSet.union .empty
  (((codes onlyChar?).map ofScalars).or ((codes onlyByte?).map ofBytes)).or
    (((sets scalarClass?).map ofScalars).or ((sets byteClass?).map ofBytes))

/-- What two lists start with alike. -/
def commonStart : List Form → List Form → List Form
  | f :: fs, g :: gs => if f = g then f :: commonStart fs gs else []
  | _, _ => []

/-- The parts of each alternative, if each of them has at least two. -/
def rows? (fs : List Form) : Option (List (List Form)) :=
  fs.mapM fun f => match f with
    | cat f g => some (f :: g.parts)
    | _ => none

/-- How many nodes a form has. -/
def weight : Form → Nat
  | rounds _ _ _ f | group _ _ f => f.weight + 1
  | cat f g | alt f g => f.weight + g.weight + 1
  | _ => 1

/-- How many nodes some forms have together. -/
def totalWeight (fs : List Form) : Nat := fs.foldl (fun n f => n + f.weight) 0

/-- The first alternative that matches. What all alternatives start with is taken out of them. -/
def choice (fs : List Form) : Form :=
  match fs.flatMap branches with
  | [] => never
  | [f] => f
  | fs' =>
    match asClass? fs' with
    | some f => f
    | none =>
      match rows? fs' with
      | some (first :: rest) =>
        let start := rest.foldl commonStart first
        let ends := (first :: rest).map fun row => concat (row.drop start.length)
        if start.isEmpty then oneOf fs'
        else if totalWeight ends < totalWeight fs then
          concat (start ++ [choice ends])
        else oneOf fs'
      | _ => oneOf fs'
termination_by totalWeight fs

/-! ### Repetition -/

/-- A part repeated. What takes up nothing is repeated once at most. -/
def times (f : Form) (least : Nat) (most? : Option Nat) (greedy : Bool) : Form :=
  let (least, most?) :=
    if f.isWeightless then (min least 1, some (min (most?.getD 1) 1)) else (least, most?)
  if least = 0 ∧ most? = some 0 then empty
  else if least = 1 ∧ most? = some 1 then f
  else rounds least most? greedy f

/-! ### Regular expressions -/

/-- The regular expression of a pattern, with all repetitions written out. -/
def toRegex : Form → Regex
  | empty => .empty
  | literal bs => .bytes bs
  | scalars set => .atom (.scalar set)
  | bytes set => .atom (.byte set)
  | look l => .look l
  | rounds least most? greedy f => f.toRegex.times f.isSolid least most? greedy
  | group _ (some name) f => .group name f.toRegex
  | group _ none f => f.toRegex
  | cat f g => .cat f.toRegex g.toRegex
  | alt f g => .alt f.toRegex g.toRegex

end Form

end MudDialogue.Pattern
