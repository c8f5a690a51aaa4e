import MudDialogue.Terminal

/-!
# Text for an output that is no terminal

What a program prints about itself is styled with control sequences of a terminal. Where the output
is no terminal they are left out, and with them everything in a program's name that reads as one.

The text is gone over in two manners that alternate. While it *skips*, the automaton of control
sequences decides, up to the first byte that shows. While it *prints*, every byte counts as plain
text, up to the first one that does not show; the mode of the automaton waits meanwhile.
-/

namespace MudDialogue.CommandLine

open Terminal

/-- The control characters that show: they are blank. -/
def isShownControl (b : UInt8) : Bool := b == 0x09 || b == 0x0A || b == 0x0C || b == 0x0D

/-- How many bytes of a character follow its first one. -/
def tailLength (b : UInt8) : Nat :=
  if b < 0xC2 then 0 else if b < 0xE0 then 1 else if b < 0xF0 then 2 else if b < 0xF5 then 3 else 0

/-- The byte shows in plain text: as itself or as the first byte of a character. -/
def showsInText (b : UInt8) : Bool :=
  isShownControl b || (0x20 ≤ b && b < 0x7F) || tailLength b != 0

/-- The byte shows in a mode of the automaton of control sequences. -/
def showsIn (mode : Mode) (b : UInt8) : Bool :=
  match mode with
  | .ground _ => showsInText b
  | mode => mode.executesControls && isShownControl b

/-- The mode after a byte. Strings of all kinds but commands to the operating system end at 0x9C. -/
def modeAfter (mode : Mode) (b : UInt8) : Mode :=
  match interrupt? b with
  | some mode => mode
  | none =>
    match mode with
    | .deviceIgnored | .characterString => if b = 0x9C then .start else mode
    | mode => mode.next b

/-- How far the text has been gone over. -/
structure Unstyling where
  /-- The mode of the automaton. -/
  mode : Mode := .start
  /-- Bytes are being printed. -/
  printing : Bool := false
  /-- How many bytes of the character at hand are to come. -/
  owed : Nat := 0

namespace Unstyling

/-- Prints a byte of plain text. The automaton returns to plain text at characters beyond ASCII. -/
def print (mode : Mode) (b : UInt8) : Unstyling × List UInt8 :=
  (⟨if tailLength b = 0 then mode else .start, true, tailLength b⟩, [b])

/-- A byte that is not known to show. -/
def look (mode : Mode) (b : UInt8) : Unstyling × List UInt8 :=
  if showsIn mode b then print mode b else (⟨modeAfter mode b, false, 0⟩, [])

/-- Takes up one byte. -/
def step (s : Unstyling) (b : UInt8) : Unstyling × List UInt8 :=
  match s.owed with
  | owed + 1 => ({ s with owed }, [b])
  | 0 =>
    if !s.printing then look s.mode b
    else if showsInText b then print s.mode b
    else look ((interrupt? b).getD s.mode) b

end Unstyling

/-- The text without what only a terminal understands. -/
def unstyled (text : List UInt8) : List UInt8 := (Transducer.run Unstyling.step {} text).2

end MudDialogue.CommandLine
