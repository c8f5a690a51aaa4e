import MudDialogue.Text.Utf8
import MudDialogue.Text.WordCharacter

/-!
# Places in a byte string and what they ask for

A pattern is matched against bytes that are mostly text. Its smallest parts either take up one whole
character or one byte (`Atom`), or take up nothing and only look at what surrounds a place (`Look`).
-/

namespace MudDialogue.Pattern

open Text

/-- A place in a byte string: what stands before it, nearest byte first, and what stands after. -/
structure Cursor where
  /-- The bytes before, read backwards. -/
  before : List UInt8
  /-- The bytes after. -/
  after : List UInt8
deriving DecidableEq, Repr

namespace Cursor

/-- The place `n` bytes further on. -/
def forward (c : Cursor) (n : Nat) : Cursor :=
  ⟨(c.after.take n).reverse ++ c.before, c.after.drop n⟩

/-- The character that starts here, if one does. -/
def charAfter? (c : Cursor) : Option Char :=
  match c.after with
  | [] => none
  | b :: rest =>
    match Utf8.front b rest with
    | .scalar c _ => some c
    | .invalid _ | .cut => none

/-- A byte that continues a character. -/
def isContinuation (b : UInt8) : Bool := 0x80 ≤ b && b < 0xC0

/-- The bytes before, from the start of the last character on: at most four, the first of them the
nearest that continues no character. -/
def lastCharacter (c : Cursor) : List UInt8 :=
  let tail := (c.before.take 3).takeWhile isContinuation
  (c.before.take (tail.length + 1)).reverse

/-- The character at the start of the bytes that `lastCharacter` gives. -/
def charBefore? (c : Cursor) : Option Char :=
  charAfter? ⟨[], c.lastCharacter⟩

end Cursor

/-- A part of a regular expression that takes up one whole character or one byte. -/
inductive Atom where
  /-- A character of a set. It never matches bytes that encode nothing. -/
  | scalar (accepts : CodeSet)
  /-- A byte of a set. -/
  | byte (accepts : CodeSet)
deriving DecidableEq, Repr

/-- How many bytes an atom takes up at the front of a byte string, if it matches there. -/
def Atom.width? : Atom → List UInt8 → Option Nat
  | _, [] => none
  | scalar accepts, b :: rest =>
    match Utf8.front b rest with
    | .scalar c width => if accepts.contains c.toNat then some width else none
    | .invalid _ | .cut => none
  | byte accepts, b :: _ => if accepts.contains b.toNat then some 1 else none

/-- Which characters make up words: those of all scripts, or of ASCII alone. -/
inductive Alphabet where
  /-- Words in any script. -/
  | unicode
  /-- Words of ASCII letters, digits and underscores. -/
  | ascii
deriving DecidableEq, Repr

/-- A part of a regular expression that takes up nothing. -/
inductive Look where
  /-- The start of the whole text. -/
  | textStart
  /-- The end of the whole text. -/
  | textEnd
  /-- The start of a line that LF ends. -/
  | lineStart
  /-- The end of a line that LF ends. -/
  | lineEnd
  /-- The start of a line that CR, LF or both end. -/
  | looseLineStart
  /-- The end of a line that CR, LF or both end. -/
  | looseLineEnd
  /-- A word starts or ends here. -/
  | boundary (alphabet : Alphabet)
  /-- No word starts or ends here. -/
  | noBoundary (alphabet : Alphabet)
  /-- A word starts here. -/
  | wordStart (alphabet : Alphabet)
  /-- A word ends here. -/
  | wordEnd (alphabet : Alphabet)
  /-- No word reaches up to here. -/
  | noWordBefore (alphabet : Alphabet)
  /-- No word goes on from here. -/
  | noWordAfter (alphabet : Alphabet)
deriving DecidableEq, Repr

/-- A word reaches up to the cursor. -/
def Alphabet.wordBefore (a : Alphabet) (c : Cursor) : Bool :=
  match a with
  | unicode => c.charBefore?.any (isWord ·.toNat)
  | ascii => c.before.head?.any (isAsciiWord ·.toNat)

/-- A word goes on from the cursor. -/
def Alphabet.wordAfter (a : Alphabet) (c : Cursor) : Bool :=
  match a with
  | unicode => c.charAfter?.any (isWord ·.toNat)
  | ascii => c.after.head?.any (isAsciiWord ·.toNat)

/-- What stands before the cursor can be read: in the wide alphabet only a whole character can. -/
def Alphabet.readableBefore (a : Alphabet) (c : Cursor) : Bool :=
  match a with
  | unicode => c.before.isEmpty || c.charBefore?.isSome
  | ascii => true

/-- What stands after the cursor can be read. -/
def Alphabet.readableAfter (a : Alphabet) (c : Cursor) : Bool :=
  match a with
  | unicode => c.after.isEmpty || c.charAfter?.isSome
  | ascii => true

/-- Whether a place is as a `Look` asks. The looks that hold where there is no word need readable
text on the sides they ask about. -/
def Look.holds : Look → Cursor → Bool
  | textStart, c => c.before.isEmpty
  | textEnd, c => c.after.isEmpty
  | lineStart, c => c.before.head?.all (· == 0x0A)
  | lineEnd, c => c.after.head?.all (· == 0x0A)
  | looseLineStart, c =>
    c.before.head?.all fun b => b == 0x0A || (b == 0x0D && c.after.head? != some 0x0A)
  | looseLineEnd, c =>
    c.after.head?.all fun b => b == 0x0D || (b == 0x0A && c.before.head? != some 0x0D)
  | boundary a, c => a.wordBefore c != a.wordAfter c
  | noBoundary a, c =>
    a.readableBefore c && a.readableAfter c && a.wordBefore c == a.wordAfter c
  | wordStart a, c => !a.wordBefore c && a.wordAfter c
  | wordEnd a, c => a.wordBefore c && !a.wordAfter c
  | noWordBefore a, c => a.readableBefore c && !a.wordBefore c
  | noWordAfter a, c => a.readableAfter c && !a.wordAfter c

end MudDialogue.Pattern
