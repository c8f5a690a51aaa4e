/-!
# The other end of a stream

A session is modelled together with the server that it talks to. Of the server only a timeline
matters: what can be read, when it arrives, when the stream ends, and how many bytes the server will
still take. Time stands still except while a read is waiting.
-/

namespace MudDialogue

/-- The most bytes that one read takes. -/
def readSize : Nat := 4096

/-- What the server does, in order. -/
inductive ServerAct where
  /-- Sends bytes. -/
  | send (bytes : List UInt8)
  /-- Lets some milliseconds pass. -/
  | wait (milliseconds : Nat)
  /-- Makes a read fail. -/
  | fault (reason : String)
deriving DecidableEq, Repr

/-- What a read brings. -/
inductive Delivery where
  /-- Bytes, at least one and at most `readSize`. -/
  | bytes (bytes : List UInt8)
  /-- A failure. -/
  | fault (reason : String)
deriving DecidableEq, Repr

/-- Something to be read, and the time from which on it can be. -/
structure Arrival where
  /-- In milliseconds from the start. -/
  time : Nat
  /-- What the read brings. -/
  delivery : Delivery
deriving DecidableEq, Repr

/-- How many bytes a read brings. -/
def Delivery.size : Delivery → Nat
  | bytes bs => bs.length
  | fault _ => 0

/-- How many bytes arrive altogether. -/
def Arrival.total : List Arrival → Nat
  | [] => 0
  | a :: later => a.delivery.size + Arrival.total later

/-- Something that happened on the stream. -/
inductive Event where
  /-- A read brought some bytes. -/
  | read (count : Nat)
  /-- The server took some bytes. -/
  | write (bytes : List UInt8)
  /-- A read found the end of the stream. -/
  | ended
  /-- A read failed. -/
  | readFailed
  /-- A write failed. -/
  | writeFailed
  /-- The sending direction was shut down. -/
  | shutdown
deriving DecidableEq, Repr

/-- The server's end of a stream. -/
structure Peer where
  /-- The time, in milliseconds from the start. -/
  clock : Nat
  /-- What is still to be read, in order. -/
  arrivals : List Arrival
  /-- The time at which the stream ends for a reader. -/
  closesAt : Nat
  /-- How many bytes the server will still take, if there is a limit. -/
  room? : Option Nat
  /-- What happened and when, the latest first. -/
  past : List (Nat × Event)
deriving DecidableEq, Repr

namespace Peer

/-- The reads that a stretch of bytes takes, each but the last as long as it can be. -/
def reads (bytes : List UInt8) : List (List UInt8) :=
  (List.range ((bytes.length + readSize - 1) / readSize)).map fun i =>
    (bytes.drop (i * readSize)).take readSize

/-- When everything that the server does can be read, from a given time on, and when it is done. -/
def timeline : Nat → List ServerAct → List Arrival × Nat
  | now, [] => ([], now)
  | now, .send bytes :: acts =>
    let (arrivals, stop) := timeline now acts
    ((reads bytes).map (fun r => ⟨now, .bytes r⟩) ++ arrivals, stop)
  | now, .wait n :: acts => timeline (now + n) acts
  | now, .fault reason :: acts =>
    let (arrivals, stop) := timeline now acts
    (⟨now, .fault reason⟩ :: arrivals, stop)

/-- A server that acts as a script says and then closes the stream. -/
def ofScript (acts : List ServerAct) (room? : Option Nat) : Peer :=
  let (arrivals, closesAt) := timeline 0 acts
  { clock := 0, arrivals, closesAt, room?, past := [] }

/-- What happened and when, in order. -/
def events (p : Peer) : List (Nat × Event) := p.past.reverse

/-- Adds to what happened. -/
def record (p : Peer) (e : Event) : Peer := { p with past := (p.clock, e) :: p.past }

/-- Lets time pass. -/
def waitUntil (p : Peer) (time : Nat) : Peer := { p with clock := max p.clock time }

/-- Offers bytes to the server. It takes what it has room for; the result tells whether that was
everything. -/
def write (p : Peer) (bytes : List UInt8) : Bool × Peer :=
  let take (p : Peer) (bytes : List UInt8) : Peer :=
    if bytes.isEmpty then p else p.record (.write bytes)
  match p.room? with
  | none => (true, take p bytes)
  | some room =>
    if bytes.length ≤ room then (true, { take p bytes with room? := some (room - bytes.length) })
    else (false, { take p (bytes.take room) with room? := some 0 }.record .writeFailed)

/-- Shuts down the sending direction; this fails if the server takes nothing any more. -/
def shutdown (p : Peer) : Bool × Peer := (p.room? != some 0, p.record .shutdown)

/-- All bytes that the server has taken, in order. -/
def written (p : Peer) : List UInt8 :=
  p.events.flatMap fun
    | (_, .write bytes) => bytes
    | _ => []

/-- How many bytes are still to be read. -/
def unread (p : Peer) : Nat := Arrival.total p.arrivals

/-- Joins writes that follow one another at the same time. -/
def joinWrites : List (Nat × Event) → List (Nat × Event)
  | [] => []
  | (t, .write bytes) :: rest =>
    match joinWrites rest with
    | (u, .write more) :: rest =>
      if t = u then (t, .write (bytes ++ more)) :: rest
      else (t, .write bytes) :: (u, .write more) :: rest
    | rest => (t, .write bytes) :: rest
  | e :: rest => e :: joinWrites rest

end Peer

end MudDialogue
