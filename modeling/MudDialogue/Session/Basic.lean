import MudDialogue.Backlog
import MudDialogue.Failure
import MudDialogue.Session.Settings
import MudDialogue.Session.Peer
import MudDialogue.Telnet

/-!
# Dialogue sessions

A session sends lines and waits for prompts. Waiting looks through the backlog first and then reads,
one read after the other, until a prompt is recognised, the time is up, or the stream ends or fails.
Telnet commands are taken out of each read and refused before the rest of it goes to the backlog.

`SessionM` is the monad of these operations. A failure keeps the session as it is at that point, so
that it can be looked at, and even be used further.

## Main definitions

* `Session`, `SessionM` — a session, and an operation on it that may fail.
* `Session.say`, `Session.whisper` — a line is sent, and shown in the log or not.
* `Session.listenUntil`, `Session.listen` — a prompt is waited for.
-/

namespace MudDialogue

open Text Pattern

/-- How much a log message matters. -/
inductive Level where
  | error
  | warn
  | info
  | debug
  | trace
deriving DecidableEq, Repr

namespace Level

/-- How far down the list of levels one stands. -/
def rank : Level → Nat
  | error => 1
  | warn => 2
  | info => 3
  | debug => 4
  | trace => 5

/-- The name of a level. -/
def name : Level → String
  | error => "ERROR"
  | warn => "WARN"
  | info => "INFO"
  | debug => "DEBUG"
  | trace => "TRACE"

end Level

/-- A stream to a server, with what was received over it and not consumed. -/
structure Session where
  /-- The server's end. -/
  peer : Peer
  /-- Received output that no prompt has consumed. -/
  backlog : Backlog
  /-- Where the incoming stream stands between telnet commands. -/
  telnet : Telnet.Mode
  /-- The settings. -/
  settings : Settings
  /-- What was logged, the latest first. -/
  past : List (Level × String)

/-- An operation on a session, which may fail. -/
abbrev SessionM := EStateM Failure Session

namespace Session

/-- A session at its start. -/
def start (peer : Peer) (settings : Settings) : Session where
  peer
  backlog := .empty settings.searchDepth
  telnet := .data
  settings
  past := []

/-- What was logged, in order. -/
def log (s : Session) : List (Level × String) := s.past.reverse

/-- Output that was received and not consumed. -/
def pending (s : Session) : String := s.backlog.text

/-- Logs a message. -/
def note (level : Level) (message : String) : SessionM Unit :=
  modify fun s => { s with past := (level, message) :: s.past }

/-- Changes the server's end. -/
def onPeer (f : Peer → Peer) : SessionM Unit := modify fun s => { s with peer := f s.peer }

/-- Why writing fails: the server takes nothing any more. -/
def peerGone : Failure := .stream "peer gone"

/-- Writes bytes to the server. -/
def write (bytes : List UInt8) : SessionM Unit := do
  let s ← get
  let (complete, peer) := s.peer.write bytes
  set { s with peer }
  unless complete do throw peerGone

/-- Writes a text and the end of a line. -/
def writeLine (line : String) : SessionM Unit := do
  write (Utf8.bytes line ++ Utf8.bytes (← get).settings.lineEnding)

/-- Sends a line. -/
def say (line : String) : SessionM Unit := do
  note .debug ("sending " ++ Quoted.quote line)
  writeLine line

/-- Sends a line that must not be logged. -/
def whisper (line : String) : SessionM Unit := do
  note .debug "sending <hidden>"
  writeLine line

/-- Shuts down the sending direction. -/
def close : SessionM Unit := do
  let s ← get
  let (complete, peer) := s.peer.shutdown
  set { s with peer }
  unless complete do throw peerGone

variable {τ : Type} [ToString τ]

/-- Looks for a prompt in what was received. -/
def recognise (prompts : Prompts τ) : SessionM (Option (Match τ)) := do
  let s ← get
  match s.backlog.search prompts with
  | none => return none
  | some (found, backlog) =>
    set { s with backlog }
    note .debug ("matched " ++ toString found.tag ++ ": " ++ Quoted.quote found.matched)
    return some found

/-- Takes up the bytes of a read: refuses telnet options and keeps the rest. -/
def receive (bytes : List UInt8) : SessionM Unit := do
  note .trace ("read " ++ toString bytes.length ++ " bytes: " ++ Quoted.quote (Utf8.text bytes))
  let (telnet, parted) := Telnet.partRead (← get).telnet bytes
  modify fun s => { s with telnet }
  unless parted.refusals.isEmpty do
    note .trace ("refusing telnet options: [" ++
      String.intercalate ", " (parted.refusals.map toString) ++ "]")
    write parted.refusals
  modify fun s => { s with backlog := s.backlog.extend parted.text }

/-- Reads what has arrived; `later` is what will arrive after it. -/
def read (a : Arrival) (later : List Arrival) : SessionM Unit := do
  onPeer fun p => { p with arrivals := later }.waitUntil a.time
  match a.delivery with
  | .bytes bytes =>
    onPeer (·.record (.read bytes.length))
    receive bytes
  | .fault reason =>
    onPeer (·.record .readFailed)
    throw (.stream reason)

/-- Reads the end of the stream. -/
def readEnd : SessionM Unit := do
  onPeer fun p => (p.waitUntil p.closesAt).record .ended
  note .debug "stream closed by remote"
  throw .closed

/-- Gives up waiting. -/
def giveUp (wait deadline : Nat) : SessionM Unit := do
  onPeer (·.waitUntil deadline)
  note .debug ("no pattern matched within " ++ (Duration.ofMilliseconds wait).text ++
    "; buffered: " ++ Quoted.quote (← get).pending)

/-- Waits for a prompt until a deadline. What arrives at the deadline itself is in time. -/
def listenUntil (prompts : Prompts τ) (wait deadline : Nat) :
    List Arrival → SessionM (Option (Match τ))
  | [] => do
    if let some found ← recognise prompts then return some found
    if (← get).peer.closesAt ≤ deadline then readEnd else giveUp wait deadline
    return none
  | a :: later => do
    if let some found ← recognise prompts then return some found
    if a.time ≤ deadline then
      read a later
      listenUntil prompts wait deadline later
    else
      giveUp wait deadline
      return none

/-- Waits for one of several prompts for some milliseconds, and consumes everything through its end.
The result is empty if no prompt came in time. -/
def listenFor (prompts : Prompts τ) (wait : Nat) : SessionM (Option (Match τ)) := do
  let peer := (← get).peer
  listenUntil prompts wait (peer.clock + wait) peer.arrivals

/-- Waits for one of several prompts for as long as the settings say. -/
def listen (prompts : Prompts τ) : SessionM (Option (Match τ)) := do
  listenFor prompts (← get).settings.timeout

end Session

end MudDialogue
