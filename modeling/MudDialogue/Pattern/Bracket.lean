import MudDialogue.Pattern.ClassSet
import MudDialogue.Pattern.Spelling

/-!
# Classes in brackets

A class in brackets lists characters, ranges, shorthands, named ASCII classes and further classes in
brackets. Lists can be combined by intersection, difference and symmetric difference, all of one
rank and read from left to right. A caret in front negates the whole class.

`Bracket.read?` reads a class from behind its opening bracket. It keeps the brackets that are open
on a stack, innermost first.
-/

namespace MudDialogue.Pattern

open Text

/-- A class, or a list of items of one. -/
structure Bracket where
  /-- The members. -/
  set : ClassSet
  /-- How deep brackets, lists and operators are nested. -/
  depth : Nat

namespace Bracket

/-- A class on which no bracket stands. -/
def leaf (s : CodeSet) : Bracket := ⟨.ofCodes s, 0⟩

/-- Adds the other case of each letter where case is folded. -/
def fold? (flags : Flags) (b : Bracket) : Option Bracket :=
  if flags.foldCase then (b.set.fold? flags.unicode).map fun set => { b with set } else some b

end Bracket

/-- A list of items that is being read. -/
structure ItemList where
  /-- How many items there are. -/
  count : Nat
  /-- All of them together; the depth is that of the deepest. -/
  items : Bracket

/-- An item of a class. -/
inductive Item where
  /-- All between two members, both included. -/
  | span (low high : Nat)
  /-- A class of its own. -/
  | inner (b : Bracket)

namespace ItemList

/-- No items yet. -/
def empty : ItemList := ⟨0, .leaf .empty⟩

/-- Adds an item at the end. -/
def push (l : ItemList) : Item → ItemList
  | .span low high => ⟨l.count + 1, { l.items with set := l.items.set.insert low high }⟩
  | .inner b => ⟨l.count + 1, ⟨l.items.set.union b.set, max l.items.depth b.depth⟩⟩

/-- Adds a single member at the end. -/
def pushChar (l : ItemList) (c : Char) : ItemList := l.push (.span c.toNat c.toNat)

/-- The whole list. Two items or more count as a level of nesting. -/
def close (l : ItemList) : Bracket :=
  if l.count < 2 then l.items else { l.items with depth := l.items.depth + 1 }

end ItemList

/-- How two lists in one bracket are combined. -/
inductive SetOperator where
  /-- `&&` -/
  | intersection
  /-- `--` -/
  | difference
  /-- `~~` -/
  | symmetricDifference
deriving DecidableEq, Repr

/-- The combination of two sets. -/
def SetOperator.apply : SetOperator → ClassSet → ClassSet → ClassSet
  | intersection => .inter
  | difference => .diff
  | symmetricDifference => .symmDiff

/-- A bracket that is open. -/
structure OpenBracket where
  /-- The items of the bracket around it, so far. -/
  outer : ItemList
  /-- A caret stands in front. -/
  negated : Bool
  /-- What was read up to the last operator, and the operator. -/
  left? : Option (Bracket × SetOperator)

namespace OpenBracket

/-- Combines what was read up to the last operator with what follows it. -/
def operand? (b : OpenBracket) (flags : Flags) (l : ItemList) : Option Bracket :=
  match b.left? with
  | none => some l.close
  | some (left, op) => do
    let left ← left.fold? flags
    let right ← l.close.fold? flags
    some ⟨ClassSet.empty.union (op.apply left.set right.set), max left.depth right.depth + 1⟩

/-- The class that a closing bracket completes. -/
def close? (b : OpenBracket) (flags : Flags) (l : ItemList) : Option Bracket := do
  let whole ← (← b.operand? flags l).fold? flags
  some ⟨if b.negated then whole.set.compl flags.last else whole.set, whole.depth + 1⟩

end OpenBracket

/-- The members of a named ASCII class. -/
def asciiClass? (name : String) : Option CodeSet :=
  match name with
  | "alnum" => some [(0x30, 0x39), (0x41, 0x5A), (0x61, 0x7A)]
  | "alpha" => some [(0x41, 0x5A), (0x61, 0x7A)]
  | "ascii" => some [(0, 0x7F)]
  | "blank" => some [(0x09, 0x09), (0x20, 0x20)]
  | "cntrl" => some [(0, 0x1F), (0x7F, 0x7F)]
  | "digit" => some [(0x30, 0x39)]
  | "graph" => some [(0x21, 0x7E)]
  | "lower" => some [(0x61, 0x7A)]
  | "print" => some [(0x20, 0x7E)]
  | "punct" => some [(0x21, 0x2F), (0x3A, 0x40), (0x5B, 0x60), (0x7B, 0x7E)]
  | "space" => some [(0x09, 0x0D), (0x20, 0x20)]
  | "upper" => some [(0x41, 0x5A)]
  | "word" => some [(0x30, 0x39), (0x41, 0x5A), (0x5F, 0x5F), (0x61, 0x7A)]
  | "xdigit" => some [(0x30, 0x39), (0x41, 0x46), (0x61, 0x66)]
  | _ => none

/-- Reads a named ASCII class from behind the opening bracket of `[:name:]`; a caret in front of the
name negates the class. -/
def namedClass? (cs : List Char) : Option (CodeSet × Bool × List Char) :=
  match cs with
  | ':' :: cs =>
    let (negated, cs) := match cs with
      | '^' :: cs => (true, cs)
      | cs => (false, cs)
    match cs.dropWhile (· != ':') with
    | ':' :: ']' :: rest =>
      (asciiClass? (String.ofList (cs.takeWhile (· != ':')))).map fun s => (s, negated, rest)
    | _ => none
  | _ => none

/-- A named ASCII class as an item. Case is folded before the class is negated. -/
def Flags.namedItem? (f : Flags) (s : CodeSet) (negated : Bool) : Option Bracket := do
  let b ← (Bracket.leaf s).fold? f
  some (if negated then { b with set := b.set.compl f.last } else b)

/-- The number that a character stands for in a class. A class of bytes holds no character that
takes up more than one byte. -/
def Flags.member? (f : Flags) (c : Char) (raw : Bool) : Option Nat :=
  if f.unicode || raw || c.toNat < 0x80 then some c.toNat else none

/-- A primitive as an item of a class; conditions on the place are none. -/
def Flags.item? (f : Flags) : Primitive → Option Item
  | .literal c raw => (f.member? c raw).map fun code => .span code code
  | .shorthand s negated => some (.inner (.leaf (f.shorthandClass s negated)))
  | .look _ => none

/-- Reads one character or escape of a class. -/
def Flags.classPrimitive? (f : Flags) : List Char → Option (Primitive × List Char)
  | [] => none
  | '\\' :: cs => f.escape? cs
  | c :: cs => some (.literal c false, cs)

/-- The first character in front of which stand only blanks and at most one `#`. -/
def firstVisible? (hashSeen : Bool) : List Char → Option Char
  | [] => none
  | c :: rest =>
    if isBlank c then firstVisible? hashSeen rest
    else if c = '#' ∧ ¬ hashSeen then firstVisible? true rest
    else some c

/-- The character that tells whether a dash in front makes a range. Where blanks and comments have
no meaning it is the first one behind blanks, and even the text of a comment is taken for it; if
there is none, it is the next one after all. -/
def Flags.peek? (f : Flags) (cs : List Char) : Option Char :=
  if f.verbose then (firstVisible? false cs).or cs.head? else cs.head?

/-- The dash at the front makes a range: neither the end of the class nor a further dash is seen
behind it. -/
def Flags.makesRange (f : Flags) : List Char → Option (List Char)
  | '-' :: cs =>
    match f.peek? cs with
    | some ']' | some '-' => none
    | _ => some (f.skip cs)
  | _ => none

/-- Reads an item: a single character or escape, or a range between two characters. -/
def Flags.rangeItem? (f : Flags) (cs : List Char) : Option (Item × List Char) := do
  let (low, cs) ← f.classPrimitive? cs
  let cs := f.skip cs
  if cs.isEmpty then none
  else match f.makesRange cs with
    | none => some (← f.item? low, cs)
    | some cs => do
      let (high, cs) ← f.classPrimitive? cs
      match low, high with
      | .literal a rawA, .literal b rawB =>
        if a ≤ b then some (.span (← f.member? a rawA) (← f.member? b rawB), cs)
        else none
      | _, _ => none

/-- Reads the dashes at the start of a class, which stand for themselves. -/
def Flags.leadingDashes (f : Flags) (l : ItemList) (cs : List Char) : ItemList × List Char :=
  match cs with
  | '-' :: rest => f.leadingDashes (l.pushChar '-') (f.skip rest)
  | cs => (l, cs)
termination_by cs.length
decreasing_by
  have := f.length_skip_le rest
  simp only [List.length_cons]; omega

/-- Reads the start of a class from behind the bracket: a caret, then dashes or a closing bracket,
which stand for themselves here. -/
def Flags.openBracket (f : Flags) (outer : ItemList) (cs : List Char) :
    OpenBracket × ItemList × List Char :=
  let (negated, cs) := match f.skip cs with
    | '^' :: cs => (true, f.skip cs)
    | cs => (false, cs)
  let (l, cs) := f.leadingDashes .empty cs
  let (l, cs) := match cs with
    | ']' :: rest =>
      if l.count = 0 then (l.pushChar ']', f.skip rest) else (l, cs)
    | cs => (l, cs)
  (⟨outer, negated, none⟩, l, cs)

/-- The operator at the front. -/
def setOperator? : List Char → Option (SetOperator × List Char)
  | '&' :: '&' :: cs => some (.intersection, cs)
  | '-' :: '-' :: cs => some (.difference, cs)
  | '~' :: '~' :: cs => some (.symmetricDifference, cs)
  | _ => none

/-- What the reading of a class has come to: either the class is complete, or brackets are open. -/
inductive BracketProgress where
  /-- The outermost bracket is closed. -/
  | done (b : Bracket) (rest : List Char)
  /-- Brackets are open, the innermost first, with the items of the innermost so far. -/
  | reading (inner : OpenBracket) (others : List OpenBracket) (l : ItemList) (rest : List Char)

/-- Reads the next piece of a class. -/
def Flags.bracketStep? (f : Flags) (inner : OpenBracket) (others : List OpenBracket) (l : ItemList)
    (cs : List Char) : Option BracketProgress :=
  match f.skip cs with
  | [] => none
  | '[' :: cs =>
    match namedClass? cs with
    | some (s, negated, rest) => do
      some (.reading inner others (l.push (.inner (← f.namedItem? s negated))) rest)
    | none =>
      let (b, items, rest) := f.openBracket l cs
      some (.reading b (inner :: others) items rest)
  | ']' :: cs => do
    let whole ← inner.close? f l
    match others with
    | [] => some (.done whole cs)
    | outer :: others => some (.reading outer others (inner.outer.push (.inner whole)) cs)
  | c :: cs =>
    match setOperator? (c :: cs) with
    | some (op, rest) => do
      let left ← inner.operand? f l
      some (.reading { inner with left? := some (left, op) } others .empty rest)
    | none => do
      let (item, rest) ← f.rangeItem? (c :: cs)
      some (.reading inner others (l.push item) rest)

/-- Reads pieces, at most as many as given, until the outermost bracket is closed. -/
def Flags.bracketRest? (f : Flags) :
    Nat → OpenBracket → List OpenBracket → ItemList → List Char → Option (Bracket × List Char)
  | 0, _, _, _, _ => none
  | bound + 1, inner, others, l, cs =>
    match f.bracketStep? inner others l cs with
    | none => none
    | some (.done b rest) => some (b, rest)
    | some (.reading inner others l rest) => f.bracketRest? bound inner others l rest

/-- Reads a class from behind its opening bracket. Each piece takes up a character at least. -/
def Flags.bracket? (f : Flags) (cs : List Char) : Option (Bracket × List Char) :=
  let (b, l, rest) := f.openBracket .empty cs
  f.bracketRest? rest.length b [] l rest

end MudDialogue.Pattern
