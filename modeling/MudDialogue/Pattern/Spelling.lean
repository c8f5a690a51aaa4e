import MudDialogue.Pattern.Cursor
import MudDialogue.Text.Blank
import MudDialogue.Text.DecimalDigit

/-!
# How the parts of a pattern are spelled

Flags that change what a spelling means, blanks and comments between parts, numbers, and the escapes
that stand for a character, a class of characters or a condition on the place. Whatever is
misspelled reads as `none`; a pattern with such a part is not a pattern.
-/

namespace MudDialogue.Pattern

open Text

/-- The settings of a part of a pattern. -/
structure Flags where
  /-- `i`: letters match in either case. -/
  foldCase : Bool := false
  /-- `m`: the anchors match at every line. -/
  lines : Bool := false
  /-- `s`: the dot matches the end of a line too. -/
  dotAll : Bool := false
  /-- `U`: repetitions take as little as possible unless marked otherwise. -/
  swapGreed : Bool := false
  /-- `u`: classes are of characters and not of bytes. -/
  unicode : Bool := true
  /-- `R`: CR ends a line as well. -/
  loose : Bool := false
  /-- `x`: blanks and comments may stand between parts. -/
  verbose : Bool := false
deriving DecidableEq, Repr

namespace Flags

/-- Switches the flag with the given letter. -/
def set? (f : Flags) (letter : Char) (on : Bool) : Option Flags :=
  match letter with
  | 'i' => some { f with foldCase := on }
  | 'm' => some { f with lines := on }
  | 's' => some { f with dotAll := on }
  | 'U' => some { f with swapGreed := on }
  | 'u' => some { f with unicode := on }
  | 'R' => some { f with loose := on }
  | 'x' => some { f with verbose := on }
  | _ => none

/-- Reads letters up to `)` or `:`, each at most once and all those after a minus sign switched off.
The result tells which of the two ended them and what follows it. -/
def read? (f : Flags) (seen : List Char) (on : Bool) : List Char → Option (Flags × Char × List Char)
  | [] => none
  | c :: rest =>
    if c = ')' ∨ c = ':' then
      if seen.head? = some '-' then none else some (f, c, rest)
    else if c ∈ seen then none
    else if c = '-' then f.read? (c :: seen) false rest
    else match f.set? c on with
      | some f => f.read? (c :: seen) on rest
      | none => none

/-- The alphabet of `\b` and its kin. -/
def alphabet (f : Flags) : Alphabet := if f.unicode then .unicode else .ascii

/-- What `^` asks for. -/
def caret (f : Flags) : Look :=
  if !f.lines then .textStart else if f.loose then .looseLineStart else .lineStart

/-- What `$` asks for. -/
def dollar (f : Flags) : Look :=
  if !f.lines then .textEnd else if f.loose then .looseLineEnd else .lineEnd

/-- The last member that a class can have: classes are of characters or of bytes. -/
def last (f : Flags) : Nat := if f.unicode then CodeSet.lastScalar else CodeSet.lastByte

/-- What the dot matches. -/
def dot (f : Flags) : CodeSet :=
  .compl f.last (if f.dotAll then .empty else if f.loose then .ofChars ['\n', '\r']
    else .ofChars ['\n'])

end Flags

/-! ### Blanks -/

/-- Drops blanks and comments in front, which only the `x` flag makes meaningless. A comment goes
from `#` to the end of the line. -/
def skipBlank (verbose : Bool) (inComment : Bool) : List Char → List Char
  | [] => []
  | c :: rest =>
    if !verbose then c :: rest
    else if inComment then skipBlank verbose (c != '\n') rest
    else if isBlank c then skipBlank verbose false rest
    else if c = '#' then skipBlank verbose true rest
    else c :: rest

theorem length_skipBlank_le (verbose inComment : Bool) (cs : List Char) :
    (skipBlank verbose inComment cs).length ≤ cs.length := by
  induction cs generalizing inComment with
  | nil => simp [skipBlank]
  | cons c cs ih =>
    have := ih (c != '\n')
    have := ih false
    have := ih true
    unfold skipBlank
    repeat' split
    all_goals simp only [List.length_cons]; omega

/-- Drops blanks and comments in front of a part. -/
def Flags.skip (f : Flags) (cs : List Char) : List Char := skipBlank f.verbose false cs

theorem Flags.length_skip_le (f : Flags) (cs : List Char) : (f.skip cs).length ≤ cs.length :=
  length_skipBlank_le _ _ _

/-! ### Numbers -/

/-- The value of a hexadecimal digit. -/
def hexValue? (c : Char) : Option Nat :=
  if '0' ≤ c ∧ c ≤ '9' then some (c.toNat - '0'.toNat)
  else if 'a' ≤ c ∧ c ≤ 'f' then some (c.toNat - 'a'.toNat + 10)
  else if 'A' ≤ c ∧ c ≤ 'F' then some (c.toNat - 'A'.toNat + 10)
  else none

/-- The character with a given number. -/
def scalar? (n : Nat) : Option Char := if n.isValidChar then some (Char.ofNat n) else none

/-- Reads the decimal digits in front; the first part of the result is how many there are, the
second their value. -/
def Flags.digits (f : Flags) (count value : Nat) (cs : List Char) : Nat × Nat × List Char :=
  match cs with
  | [] => (count, value, [])
  | c :: rest =>
    if c.isDigit then
      f.digits (count + 1) (10 * value + (c.toNat - '0'.toNat)) (f.skip rest)
    else (count, value, c :: rest)
termination_by cs.length
decreasing_by
  have := f.length_skip_le rest
  simp only [List.length_cons]; omega

/-- The greatest number of rounds that can be asked for. -/
def maxRounds : Nat := UInt32.size - 1

/-- A number of rounds, with blanks around it. -/
def Flags.rounds? (f : Flags) (cs : List Char) : Option (Nat × List Char) :=
  match f.digits 0 0 (cs.dropWhile isBlank) with
  | (count, value, rest) =>
    if count = 0 ∨ maxRounds < value then none
    else some (value, (f.skip rest).dropWhile isBlank)

/-- How often a part is repeated. -/
structure Rounds where
  /-- The least number of rounds. -/
  least : Nat
  /-- The greatest, if there is one. -/
  most? : Option Nat
  /-- More rounds are better than fewer. -/
  greedy : Bool
deriving DecidableEq, Repr

/-- Reads a repetition in braces from behind the opening one. -/
def Flags.braces? (f : Flags) (cs : List Char) : Option (Rounds × List Char) := do
  let (least, cs) ← f.rounds? (f.skip cs)
  let (most?, cs) ← match cs with
    | ',' :: cs =>
      match f.skip cs with
      | '}' :: cs => some (none, '}' :: cs)
      | cs => do
        let (most, cs) ← f.rounds? cs
        some (some most, cs)
    | cs => some (some least, cs)
  if most?.any (· < least) then none
  else match cs with
    | '}' :: cs =>
      match f.skip cs with
      | '?' :: cs => some (⟨least, most?, f.swapGreed⟩, cs)
      | cs => some (⟨least, most?, !f.swapGreed⟩, cs)
    | _ => none

/-- The greed of a repetition mark, from what stands behind it. -/
def Flags.greed (f : Flags) : List Char → Bool × List Char
  | '?' :: cs => (f.swapGreed, cs)
  | cs => (!f.swapGreed, cs)

/-- Reads a given number of hexadecimal digits. -/
def Flags.fixedHex? (f : Flags) : Nat → Nat → List Char → Option (Nat × List Char)
  | 0, value, cs => some (value, cs)
  | _ + 1, _, [] => none
  | n + 1, value, c :: cs => do f.fixedHex? n (16 * value + (← hexValue? c)) (f.skip cs)

/-- Reads hexadecimal digits up to a closing brace; at least one is needed. -/
def Flags.bracedHex? (f : Flags) (count value : Nat) (cs : List Char) : Option (Nat × List Char) :=
  match _h : f.skip cs with
  | [] => none
  | c :: rest =>
    if c = '}' then if count = 0 then none else some (value, f.skip rest)
    else match hexValue? c with
      | some digit => f.bracedHex? (count + 1) (16 * value + digit) rest
      | none => none
termination_by cs.length
decreasing_by
  have := f.length_skip_le cs
  simp only [_h, List.length_cons] at this; omega

/-! ### Shorthands -/

/-- The classes that a letter stands for. -/
inductive Shorthand where
  /-- `\d`: decimal digits. -/
  | digit
  /-- `\s`: blanks. -/
  | blank
  /-- `\w`: characters of words. -/
  | word
deriving DecidableEq, Repr

namespace Shorthand

/-- The members of the class. -/
def members (unicode : Bool) : Shorthand → CodeSet
  | digit => if unicode then decimalDigitTable else [(0x30, 0x39)]
  | blank => if unicode then blankTable else [(0x09, 0x0D), (0x20, 0x20)]
  | word => if unicode then wordTable else [(0x30, 0x39), (0x41, 0x5A), (0x5F, 0x5F), (0x61, 0x7A)]

end Shorthand

/-- What a part of a pattern that is no bracket stands for. -/
inductive Primitive where
  /-- A character; `raw` if it is spelled as the number of a byte. -/
  | literal (c : Char) (raw : Bool)
  /-- A class, or everything outside it. -/
  | shorthand (s : Shorthand) (negated : Bool)
  /-- A condition on the place. -/
  | look (l : Look)

/-! ### Properties -/

/-- Reads text up to a closing brace, after the characters `taken` of it. -/
def Flags.braced? (f : Flags) (taken : List Char) (cs : List Char) :
    Option (List Char × List Char) :=
  match _h : f.skip cs with
  | [] => none
  | c :: rest => if c = '}' then some (taken.reverse, rest) else f.braced? (c :: taken) rest
termination_by cs.length
decreasing_by
  have := f.length_skip_le cs
  simp only [_h, List.length_cons] at this; omega

/-- A name as names are compared: without `is` in front, blanks, dashes, underscores and characters
that are not ASCII, and in lower case. -/
def looseName (name : List Char) : String :=
  let body := match name with
    | i :: s :: rest => if (i = 'i' ∨ i = 'I') ∧ (s = 's' ∨ s = 'S') then rest else name
    | _ => name
  String.ofList ((body.filter fun c => c.toNat < 0x80 && c != ' ' && c != '_' && c != '-').map
    Char.toLower)

/-- Cuts a text in two at the first place where `mark` stands, which is left out. -/
def cutAt? (mark : List Char) : List Char → Option (List Char × List Char)
  | [] => none
  | c :: rest =>
    if mark.isPrefixOf (c :: rest) then some ([], (c :: rest).drop mark.length)
    else (cutAt? mark rest).map fun (key, value) => (c :: key, value)

/-- The class that the name of a general category stands for. Decimal digits are the only category
that is known. -/
def categoryClass? (name : List Char) : Option Shorthand :=
  if looseName name ∈ ["nd", "decimalnumber", "digit"] then some .digit else none

/-- The class that a property stands for. What stands between key and value makes no difference. -/
def propertyClass? (text : List Char) : Option Shorthand :=
  match ((cutAt? ['!', '='] text).or (cutAt? [':'] text)).or (cutAt? ['='] text) with
  | some (key, value) =>
    if looseName key ∈ ["gc", "category", "generalcategory"] then categoryClass? value else none
  | none =>
    if looseName text ∈ ["space", "whitespace", "wspace"] then some .blank else categoryClass? text

/-- Reads a property from behind `p`. Only classes of characters know properties, and their case
cannot be folded. -/
def Flags.property? (f : Flags) (negated : Bool) (cs : List Char) :
    Option (Primitive × List Char) :=
  match f.skip cs with
  | '{' :: cs => do
    let (text, rest) ← f.braced? [] cs
    let s ← propertyClass? text
    if f.unicode && !f.foldCase then some (.shorthand s negated, rest) else none
  | _ => none

/-! ### Escapes -/

/-- Every ASCII character but letters, digits and angle brackets may be escaped to stand for
itself. -/
def isEscapable (c : Char) : Bool :=
  c.toNat < 0x80 && !c.isAlphanum && c != '<' && c != '>'

/-- The condition that `\b` and a word in braces stand for. -/
def boundaryLook? (a : Alphabet) : List Char → Option Look
  | ['s', 't', 'a', 'r', 't'] => some (.wordStart a)
  | ['e', 'n', 'd'] => some (.wordEnd a)
  | ['s', 't', 'a', 'r', 't', '-', 'h', 'a', 'l', 'f'] => some (.noWordBefore a)
  | ['e', 'n', 'd', '-', 'h', 'a', 'l', 'f'] => some (.noWordAfter a)
  | _ => none

/-- A character of the words that may follow `\b` in braces. -/
def isBoundaryChar (c : Char) : Bool := c.isAlpha || c = '-'

/-- Reads a word in braces from behind the first brace, after the characters `taken` of it. -/
def Flags.boundaryName? (f : Flags) (taken : List Char) (cs : List Char) :
    Option (List Char × List Char) :=
  match cs with
  | [] => none
  | c :: rest =>
    if isBoundaryChar c then f.boundaryName? (c :: taken) (f.skip rest)
    else if c = '}' then some (taken.reverse, rest)
    else none
termination_by cs.length
decreasing_by
  have := f.length_skip_le rest
  simp only [List.length_cons]; omega

/-- The condition that `\b` stands for. Braces behind it hold the name of a special condition, or a
number of rounds. -/
def Flags.boundary? (f : Flags) (cs : List Char) : Option (Look × List Char) :=
  match cs with
  | '{' :: inner =>
    match f.skip inner with
    | [] => none
    | c :: rest =>
      if isBoundaryChar c then do
        let (name, rest) ← f.boundaryName? [] (c :: rest)
        some (← boundaryLook? f.alphabet name, rest)
      else some (.boundary f.alphabet, cs)
  | cs => some (.boundary f.alphabet, cs)

/-- Reads the number of a character from behind `x`, `u` or `U`. Only two digits after `x`, without
braces, are the number of a byte. -/
def Flags.hex? (f : Flags) (width : Nat) (cs : List Char) : Option (Primitive × List Char) :=
  match f.skip cs with
  | '{' :: cs => do
    let (value, cs) ← f.bracedHex? 0 0 cs
    some (.literal (← scalar? value) false, cs)
  | cs => do
    let (value, cs) ← f.fixedHex? width 0 cs
    some (.literal (← scalar? value) (width = 2), cs)

/-- Reads an escape from behind the backslash. -/
def Flags.escape? (f : Flags) : List Char → Option (Primitive × List Char)
  | [] => none
  | c :: cs =>
    let self (c : Char) := some (Primitive.literal c false, cs)
    let look (l : Look) := some (Primitive.look l, cs)
    match c with
    | 'x' => f.hex? 2 cs
    | 'u' => f.hex? 4 cs
    | 'U' => f.hex? 8 cs
    | 'd' => some (.shorthand .digit false, cs)
    | 's' => some (.shorthand .blank false, cs)
    | 'w' => some (.shorthand .word false, cs)
    | 'D' => some (.shorthand .digit true, cs)
    | 'S' => some (.shorthand .blank true, cs)
    | 'W' => some (.shorthand .word true, cs)
    | 'p' => f.property? false cs
    | 'P' => f.property? true cs
    | 'a' => self '\x07'
    | 'f' => self '\x0C'
    | 't' => self '\t'
    | 'n' => self '\n'
    | 'r' => self '\r'
    | 'v' => self '\x0B'
    | 'A' => look .textStart
    | 'z' => look .textEnd
    | 'B' => look (.noBoundary f.alphabet)
    | '<' => look (.wordStart f.alphabet)
    | '>' => look (.wordEnd f.alphabet)
    | 'b' => do
      let (l, cs) ← f.boundary? cs
      some (.look l, cs)
    | c => if isEscapable c then self c else none

/-- The set that a shorthand stands for. -/
def Flags.shorthandClass (f : Flags) (s : Shorthand) (negated : Bool) : CodeSet :=
  if negated then .compl f.last (s.members f.unicode) else s.members f.unicode

end MudDialogue.Pattern
