import MudDialogue.Transducer

/-!
# Telnet commands in the incoming stream

A telnet server mixes commands into the bytes it sends. A command starts with byte 255; it is a
negotiation of an option (a verb and an option byte), a subnegotiation block, or a single byte. This
file removes the commands from a stream and refuses every option that the server offers or demands,
so that both ends stay plain text lines.

## Main definitions

* `Telnet.Verb`, `Telnet.Mode` — the verbs of a negotiation, and where a stream stands.
* `Telnet.step` — the automaton, one byte at a time.
* `Telnet.part` — the text and the refusals that bytes are parted into by the automaton.
* `Telnet.partRead` — the same for a read, which need not go through the automaton if it holds no
  command.
-/

namespace MudDialogue.Telnet

/-- The byte that starts a command, and that stands for itself when written twice. -/
@[match_pattern] abbrev interpret : UInt8 := 255

/-- The byte that opens a subnegotiation block. -/
@[match_pattern] abbrev blockStart : UInt8 := 250

/-- The byte that, after `interpret`, closes a subnegotiation block. -/
@[match_pattern] abbrev blockEnd : UInt8 := 240

/-- What a negotiation says about an option. -/
inductive Verb where
  /-- The sender offers to use the option itself (WILL). -/
  | offer
  /-- The sender will not use the option (WONT). -/
  | decline
  /-- The sender demands that the receiver use the option (DO). -/
  | demand
  /-- The sender does not want the receiver to use the option (DONT). -/
  | forbid
deriving DecidableEq, Repr

namespace Verb

/-- The byte of a verb. -/
def byte : Verb → UInt8
  | offer => 251
  | decline => 252
  | demand => 253
  | forbid => 254

/-- The verb of a byte, if it is one. -/
def ofByte? (b : UInt8) : Option Verb :=
  if b = 251 then some offer
  else if b = 252 then some decline
  else if b = 253 then some demand
  else if b = 254 then some forbid
  else none

@[simp] theorem ofByte?_byte (v : Verb) : ofByte? v.byte = some v := by
  cases v <;> rfl

/-- The verb that turns a request down: an offer is forbidden and a demand declined. The other two
ask for nothing. -/
def refusal? : Verb → Option Verb
  | offer => some forbid
  | demand => some decline
  | decline | forbid => none

end Verb

/-- Where a stream stands between two bytes. -/
inductive Mode where
  /-- Between commands. -/
  | data
  /-- After the byte that starts a command. -/
  | command
  /-- After the verb of a negotiation; the option is to come. -/
  | negotiation (verb : Verb)
  /-- Inside a subnegotiation block. -/
  | block
  /-- Inside a subnegotiation block, after byte 255. -/
  | blockCommand
deriving DecidableEq, Repr

/-- What a byte brings out of the stream. -/
inductive Emission where
  /-- A byte meant for the application. -/
  | text (b : UInt8)
  /-- A negotiation to write back to the server. -/
  | refusal (verb : Verb) (option : UInt8)
deriving DecidableEq, Repr

namespace Emission

/-- The application's byte, if this is one. -/
def text? : Emission → Option UInt8
  | text b => some b
  | refusal _ _ => none

/-- What goes back to the server. -/
def wire : Emission → List UInt8
  | text _ => []
  | refusal verb option => [interpret, verb.byte, option]

end Emission

/-- The automaton: what one byte does to the mode, and what it brings out. -/
def step : Mode → UInt8 → Mode × List Emission
  | .data, b => if b = interpret then (.command, []) else (.data, [.text b])
  | .command, b =>
    if b = interpret then (.data, [.text b])
    else if b = blockStart then (.block, [])
    else match Verb.ofByte? b with
      | some verb => (.negotiation verb, [])
      | none => (.data, [])
  | .negotiation verb, option =>
    (.data, (verb.refusal?.map (Emission.refusal · option)).toList)
  | .block, b => (if b = interpret then .blockCommand else .block, [])
  | .blockCommand, b => (if b = blockEnd then .data else .block, [])

/-- The two streams that the bytes of one read are parted into. -/
structure Parted where
  /-- The bytes for the application. -/
  text : List UInt8
  /-- The refusals to write back, in order. -/
  refusals : List UInt8
deriving DecidableEq, Repr

/-- Sorts what was brought out by its receiver. -/
def Parted.ofEmissions (es : List Emission) : Parted where
  text := es.filterMap Emission.text?
  refusals := es.flatMap Emission.wire

/-- Takes the commands out of `bytes`, which continue a stream that stands in `mode`. -/
def part (mode : Mode) (bytes : List UInt8) : Mode × Parted :=
  let (after, es) := Transducer.run step mode bytes
  (after, .ofEmissions es)

/-- Takes the commands out of the bytes of one read. Between commands, a read without byte 255 is
text as a whole, and the automaton is not needed for it. -/
def partRead (mode : Mode) (bytes : List UInt8) : Mode × Parted :=
  if mode = .data ∧ interpret ∉ bytes then (mode, ⟨bytes, []⟩) else part mode bytes

/-- Between commands, bytes other than 255 are text. -/
theorem part_of_notMem {bytes : List UInt8} (h : interpret ∉ bytes) :
    part .data bytes = (.data, ⟨bytes, []⟩) := by
  have hrun : Transducer.run step .data bytes = (.data, bytes.map .text) := by
    induction bytes with
    | nil => rfl
    | cons b bytes ih =>
      rw [List.mem_cons, not_or] at h
      have hstep : step .data b = (.data, [.text b]) := if_neg (Ne.symm h.1)
      rw [Transducer.run_cons, hstep, ih h.2]
      rfl
  have htext : (bytes.map Emission.text).filterMap Emission.text? = bytes := by
    simp [List.filterMap_map, Function.comp_def, Emission.text?]
  have hwire : (bytes.map Emission.text).flatMap Emission.wire = [] := by
    simp [List.flatMap_map, Emission.wire]
  simp only [part, hrun, Parted.ofEmissions, htext, hwire]

/-- **The automaton can be left out.** It makes nothing else of a read that holds no command. -/
theorem partRead_eq (mode : Mode) (bytes : List UInt8) : partRead mode bytes = part mode bytes := by
  by_cases h : mode = .data ∧ interpret ∉ bytes
  · obtain ⟨rfl, hbytes⟩ := h
    rw [partRead, if_pos ⟨rfl, hbytes⟩, part_of_notMem hbytes]
  · rw [partRead, if_neg h]

end MudDialogue.Telnet
