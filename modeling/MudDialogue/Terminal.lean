import MudDialogue.Text.Utf8
import MudDialogue.Transducer

/-!
# Terminal control sequences in server output

A server colours its output with control sequences for a terminal. This file removes them and keeps
what a reader would see: printed characters and the three control characters that shape lines.

`step` is the automaton, one byte at a time. Printable text is decoded as UTF-8 on the way, so its
ground mode carries the bytes of a character that is not complete yet. When a read ends inside a
character, the next one takes it up in its own way (`resume`): the first four bytes of the character
and of the new read are looked at together, and only one character is taken from them.
-/

namespace MudDialogue.Terminal

open Text

/-- Where the output stands between two bytes. -/
inductive Mode where
  /-- In plain text. The pending bytes are the start of a character. -/
  | ground (pending : List UInt8)
  /-- After ESC. -/
  | escape
  /-- After ESC and an intermediate byte; the final byte is to come. -/
  | escapeIntermediate
  /-- In a control sequence, `ESC [` and on; its final byte is to come. -/
  | controlSequence
  /-- At the start of a device control string, `ESC P`. -/
  | deviceEntry
  /-- In the parameters of a device control string. -/
  | deviceParameter
  /-- In the intermediate bytes of a device control string. -/
  | deviceIntermediate
  /-- In a malformed device control string. -/
  | deviceIgnored
  /-- In the data of a device control string. -/
  | deviceData
  /-- In an operating system command, `ESC ]` and on. -/
  | systemCommand
  /-- In a start-of-string, privacy or application string, whose end only ESC brings. -/
  | characterString
deriving DecidableEq, Repr

/-- Plain text between characters. -/
def Mode.start : Mode := .ground []

/-- The control characters that belong to the text: TAB, LF and CR. -/
def shapesLines (b : UInt8) : Bool := b == 0x09 || b == 0x0A || b == 0x0D

/-- What remains of a control character that takes effect: itself, if it shapes lines. -/
def execute (b : UInt8) : List UInt8 := if shapesLines b then [b] else []

/-- What remains of a whole character in plain text: itself, unless it is a control character that
does not shape lines. -/
def shown (c : Char) (encoded : List UInt8) : List UInt8 :=
  if c.val < 0x20 then execute c.val.toUInt8
  else if 0x80 ≤ c.val ∧ c.val < 0xA0 then []
  else encoded

/-- What remains of bytes that encode nothing: a replacement character, except that a single byte
between 0x80 and 0x9F is taken for a control character. -/
def shownInvalid (bytes : List UInt8) : List UInt8 :=
  match bytes with
  | [b] => if 0x80 ≤ b ∧ b < 0xA0 then [] else Utf8.replacementBytes
  | _ => Utf8.replacementBytes

/-- A byte of plain text between characters. -/
def groundStep (b : UInt8) : Mode × List UInt8 :=
  if b = 0x1B then (.escape, [])
  else match Utf8.front b [] with
    | .scalar c _ => (.start, shown c [b])
    | .invalid _ => (.start, shownInvalid [b])
    | .cut => (.ground [b], [])

/-- A byte of plain text after the start of a character. -/
def pendingStep (p : UInt8) (ps : List UInt8) (b : UInt8) : Mode × List UInt8 :=
  match Utf8.front p (ps ++ [b]) with
  | .scalar c _ => (.start, shown c (p :: ps ++ [b]))
  | .cut => (.ground (p :: ps ++ [b]), [])
  | .invalid _ =>
    let (mode, out) := groundStep b
    (mode, shownInvalid (p :: ps) ++ out)

/-- The bytes that end any sequence at once: CAN and SUB return to plain text, ESC starts the next
sequence. -/
def interrupt? (b : UInt8) : Option Mode :=
  if b = 0x18 ∨ b = 0x1A then some .start
  else if b = 0x1B then some .escape
  else none

/-- The mode after a byte that neither interrupts the sequence nor is a control character. -/
def Mode.next (mode : Mode) (b : UInt8) : Mode :=
  let intermediate := 0x20 ≤ b && b ≤ 0x2F
  let parameter := 0x30 ≤ b && b ≤ 0x3F
  let final := 0x40 ≤ b && b ≤ 0x7E
  match mode with
  | .ground pending => .ground pending
  | .escape =>
    if intermediate then .escapeIntermediate
    else if b = '['.toUInt8 then .controlSequence
    else if b = ']'.toUInt8 then .systemCommand
    else if b = 'P'.toUInt8 then .deviceEntry
    else if b = 'X'.toUInt8 ∨ b = '^'.toUInt8 ∨ b = '_'.toUInt8 then .characterString
    else if parameter || final then .start
    else .escape
  | .escapeIntermediate => if parameter || final then .start else .escapeIntermediate
  | .controlSequence => if final then .start else .controlSequence
  | .deviceEntry =>
    if intermediate then .deviceIntermediate
    else if parameter then .deviceParameter
    else if final then .deviceData
    else .deviceEntry
  | .deviceParameter =>
    if intermediate then .deviceIntermediate
    else if 0x3C ≤ b ∧ b ≤ 0x3F then .deviceIgnored
    else if final then .deviceData
    else .deviceParameter
  | .deviceIntermediate =>
    if parameter then .deviceIgnored
    else if final then .deviceData
    else .deviceIntermediate
  | .deviceIgnored => .deviceIgnored
  | .deviceData => if b = 0x9C then .start else .deviceData
  | .systemCommand => if b = 0x07 then .start else .systemCommand
  | .characterString => .characterString

/-- Control characters take effect inside the sequences that start with ESC and `ESC [`. -/
def Mode.executesControls : Mode → Bool
  | .escape | .escapeIntermediate | .controlSequence => true
  | _ => false

/-- The automaton: what one byte does to the mode, and what remains of it. -/
def step (mode : Mode) (b : UInt8) : Mode × List UInt8 :=
  match mode with
  | .ground [] => groundStep b
  | .ground (p :: ps) => pendingStep p ps b
  | mode =>
    match interrupt? b with
    | some mode => (mode, [])
    | none => (mode.next b, if mode.executesControls && b < 0x20 then execute b else [])

/-- Takes up, at the start of a read, a character that the read before was cut in. The character's
first bytes and the next ones, four in all, are looked at together. If they are all sound, the first
character is taken and the rest of the read remains; if only a part is sound, the first character is
taken and the whole part dropped. A character finished here is shown whatever it is. -/
def resume (mode : Mode) (read : List UInt8) : Mode × List UInt8 × List UInt8 :=
  match mode with
  | .ground (p :: ps) =>
    let pending := ps.length + 1
    let window := ps ++ read.take (4 - pending)
    match Utf8.front p window with
    | .scalar _ width =>
      let taken := if Utf8.IsSound (p :: window) then width else Utf8.soundLength (p :: window)
      (.start, (p :: window).take width, read.drop (taken - pending))
    | .invalid width => (.start, Utf8.replacementBytes, read.drop (width - pending))
    | .cut => (.ground (p :: window), [], read.drop (4 - pending))
  | mode => (mode, [], read)

/-- Cleans the bytes of one read, which continue output that stands in `mode`. -/
def clean (mode : Mode) (read : List UInt8) : Mode × List UInt8 :=
  let (mode, taken, rest) := resume mode read
  let (mode, out) := Transducer.run step mode rest
  (mode, taken ++ out)

end MudDialogue.Terminal
