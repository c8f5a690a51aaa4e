import MudDialogue.Proofs.Session.Intake
import MudDialogue.Proofs.Telnet.Reads
import MudDialogue.Proofs.Text.Utf8

/-!
# What goes over the stream in a conversation

A program that talks to a server makes one call after the other on its session: it sends lines and
waits for prompts. Each call is followed here on the stream. A line is written whole, with its end.
A wait makes some reads, and the telnet options in each of them are refused before the next one is
made. Lines and refusals together are a telnet stream from which the server reads back the lines and
nothing else, and which asks it for nothing.

## Main definitions

* `Call`, `Call.perform` — a call on a session, and the session after it.
* `Call.reads` — what a call reads.
* `Call.Goes` — what a call does on the stream.
* `Session.after`, `Session.heard`, `Session.refused` — several calls, everything that they read,
  and what they write while they wait.

## Main results

* `Session.Waits.exists_passed` — how the reads of a wait go.
* `Call.goes` — how a call goes when the server takes everything.
* `Session.conversation` — what the server makes of a conversation.
-/

namespace MudDialogue

open Pattern Text Operation

/-- What a delivery brings, if it does not fail. -/
def Delivery.bytes? : Delivery → Option (List UInt8)
  | bytes bs => some bs
  | fault _ => none

/-- Everything that happened on the stream, in order but without the times. -/
def Peer.happened (p : Peer) : List Event := p.events.map Prod.snd

namespace Event

/-- Some bytes are written, if there are any. -/
def writing (bytes : List UInt8) : List Event := if bytes.isEmpty then [] else [.write bytes]

/-- Reads are made on a telnet stream, and the options in each of them are refused before the next
one is made. -/
def answering (mode : Telnet.Mode) : List (List UInt8) → List Event
  | [] => []
  | bytes :: reads =>
    let (mode, parted) := Telnet.partRead mode bytes
    .read bytes.length :: (writing parted.refusals ++ answering mode reads)

/-- What a wait may find when its reads are made: nothing, the end of the stream, or a failure. -/
def stops : List (List Event) := [[], [.ended], [.readFailed]]

@[simp] theorem flatMap_taken_writing (bytes : List UInt8) :
    (writing bytes).flatMap taken = bytes := by
  cases bytes with
  | nil => rfl
  | cons b bytes => exact List.append_nil _

theorem flatMap_taken_of_mem_stops : ∀ stop ∈ stops, stop.flatMap taken = [] := by decide

/-- What is written between the reads are their refusals. -/
theorem flatMap_taken_answering (mode : Telnet.Mode) (reads : List (List UInt8)) :
    (answering mode reads).flatMap taken = (Telnet.partReads mode reads).2.refusals := by
  induction reads generalizing mode with
  | nil => rfl
  | cons bytes reads ih =>
    simp only [answering, List.flatMap_cons, List.flatMap_append, flatMap_taken_writing, ih]
    rfl

end Event

/-- A call that a program makes on its session. -/
inductive Call : Type 1 where
  /-- A line is sent. -/
  | say (line : String)
  /-- A line is sent that must not be logged. -/
  | whisper (line : String)
  /-- A prompt is waited for. -/
  | listen {τ : Type} [ToString τ] (prompts : Prompts τ)
  /-- A prompt is waited for, for some milliseconds. -/
  | listenFor {τ : Type} [ToString τ] (prompts : Prompts τ) (wait : Nat)

namespace Call

/-- Makes a call; what a wait came to is forgotten. -/
def run : Call → SessionM Unit
  | say line => Session.say line
  | whisper line => Session.whisper line
  | listen prompts => do let _ ← Session.listen prompts
  | listenFor prompts wait => do let _ ← Session.listenFor prompts wait

/-- The session after a call, whatever the call came to. -/
def perform (c : Call) (s : Session) : Session := endState (c.run s)

/-- The line that a call sends, with its end, unless it is a wait. -/
def line? (settings : Settings) : Call → Option (List UInt8)
  | say line | whisper line => some (Utf8.bytes line ++ Utf8.bytes settings.lineEnding)
  | listen _ | listenFor _ _ => none

/-- A call waits for a prompt. -/
def isWait : Call → Bool
  | say _ | whisper _ => false
  | listen _ | listenFor _ _ => true

/-- What a call reads, read by read. -/
def reads (c : Call) (s : Session) : List (List UInt8) :=
  (s.peer.arrivals.take (s.peer.arrivals.length - (c.perform s).peer.arrivals.length)).filterMap
    (·.delivery.bytes?)

/-- What a call does on the stream. A line is written and nothing is read. A wait makes the next
reads, each of them answered before the one after it, and then it may find that the stream has ended
or that a read fails. -/
def Goes (settings : Settings) (c : Call) (s : Session) : Prop :=
  match c.line? settings with
  | some line =>
    c.run s = .ok () (c.perform s) ∧ (c.perform s).peer.arrivals = s.peer.arrivals ∧
      (c.perform s).peer.happened = s.peer.happened ++ Event.writing line
  | none =>
    (c.perform s).peer.arrivals <:+ s.peer.arrivals ∧
      ∃ stop ∈ Event.stops, (c.perform s).peer.happened =
        s.peer.happened ++ Event.answering s.telnet (c.reads s) ++ stop

end Call

namespace Session

/-- The session after several calls. -/
def after (s : Session) (calls : List Call) : Session := calls.foldl (fun s c => c.perform s) s

/-- Everything that several calls read, read by read. -/
def heard (s : Session) : List Call → List (List UInt8)
  | [] => []
  | c :: calls => c.reads s ++ (c.perform s).heard calls

/-- Everything that several calls write while they wait: what is written in the waits among them. -/
def refused (s : Session) : List Call → List UInt8
  | [] => []
  | c :: calls =>
    (if c.isWait then (c.perform s).peer.written.drop s.peer.written.length else []) ++
      (c.perform s).refused calls

end Session

/-! ### One call -/

namespace Peer

variable {p : Peer}

theorem written_eq_happened (p : Peer) : p.written = p.happened.flatMap Event.taken := by
  rw [written_eq, happened, List.flatMap_map]
  rfl

theorem happened_record (p : Peer) (e : Event) : (p.record e).happened = p.happened ++ [e] := by
  simp [happened, events, record]

/-- What happens on the stream at a write. -/
theorem happened_write_eq (p : Peer) (bytes : List UInt8) :
    (p.write bytes).2.happened = p.happened ++
      (Event.writing (p.taken bytes) ++ if p.Fits bytes.length then [] else [.writeFailed]) := by
  rw [write_eq, writeEvents]
  by_cases hfits : p.Fits bytes.length <;> by_cases htaken : p.taken bytes = [] <;>
    simp [happened, events, Event.writing, hfits, htaken]

theorem taken_of_room (h : p.room? = none) (bytes : List UInt8) : p.taken bytes = bytes :=
  taken_of_fits (fits_of_room h _)

theorem write_fst_of_room (h : p.room? = none) (bytes : List UInt8) : (p.write bytes).1 = true := by
  rw [write_fst]
  exact decide_eq_true (fits_of_room h _)

/-- A server without a limit takes all that is written at once. -/
theorem happened_write (h : p.room? = none) (bytes : List UInt8) :
    (p.write bytes).2.happened = p.happened ++ Event.writing bytes := by
  rw [happened_write_eq, if_pos (fits_of_room h _), taken_of_room h, List.append_nil]

end Peer

namespace Session

/-- From one session to a later one, arrivals are taken up, and the stream may turn out to be at its
end or to fail. The server takes whatever is written. -/
structure Passed (s : Session) (arrived : List Arrival) (stop : List Event) (t : Session) :
    Prop where
  arrivals : s.peer.arrivals = arrived ++ t.peer.arrivals
  happened : t.peer.happened = s.peer.happened ++
    Event.answering s.telnet (arrived.filterMap (·.delivery.bytes?)) ++ stop
  telnet : t.telnet = (Telnet.partReads s.telnet (arrived.filterMap (·.delivery.bytes?))).1
  room : t.peer.room? = none
  settings : t.settings = s.settings

variable {τ : Type} {prompts : Prompts τ} {s t : Session}

/-- What happens on the stream at one read. -/
theorem happened_hear_eq (s : Session) (a : Arrival) (bytes : List UInt8) (later : List Arrival) :
    (s.hear a bytes later).2.peer.happened = s.peer.happened ++ .read bytes.length ::
      (Event.writing (s.peer.taken (Telnet.part s.telnet bytes).2.refusals) ++
        if (s.hear a bytes later).1 then [] else [.writeFailed]) := by
  let reached := (s.reach a later).record (.read bytes.length)
  have hreached : reached.peer.happened = s.peer.happened ++ [.read bytes.length] :=
    Peer.happened_record _ _
  calc (s.hear a bytes later).2.peer.happened
      = (reached.peer.write (Telnet.part s.telnet bytes).2.refusals).2.happened := rfl
    _ = _ := by
      rw [Peer.happened_write_eq, hreached, List.append_assoc, hear_fst]
      simp only [decide_eq_true_eq]
      rfl

theorem hear_fst_of_room (hroom : s.peer.room? = none) (a : Arrival) (bytes : List UInt8)
    (later : List Arrival) : (s.hear a bytes later).1 = true := by
  rw [hear_fst, decide_eq_true (Peer.fits_of_room hroom _)]

theorem happened_hear (hroom : s.peer.room? = none) (a : Arrival) (bytes : List UInt8)
    (later : List Arrival) :
    (s.hear a bytes later).2.peer.happened = s.peer.happened ++
      (.read bytes.length :: Event.writing (Telnet.part s.telnet bytes).2.refusals) := by
  rw [happened_hear_eq, if_pos (hear_fst_of_room hroom ..), Peer.taken_of_room hroom,
    List.append_nil]

/-- One more read in front. -/
theorem Passed.cons {a : Arrival} {bytes : List UInt8} {later arrived : List Arrival}
    {stop : List Event} (hroom : s.peer.room? = none) (harrivals : s.peer.arrivals = a :: later)
    (ha : a.delivery = .bytes bytes) (h : (s.hear a bytes later).2.Passed arrived stop t) :
    s.Passed (a :: arrived) stop t := by
  have hbytes : (a :: arrived).filterMap (·.delivery.bytes?) =
      bytes :: arrived.filterMap (·.delivery.bytes?) := by
    rw [List.filterMap_cons, ha]
    rfl
  have hread : Telnet.partRead s.telnet bytes = Telnet.part s.telnet bytes :=
    Telnet.partRead_eq _ _
  constructor
  · rw [harrivals, List.cons_append, ← h.arrivals, arrivals_hear]
  · rw [h.happened, happened_hear hroom, hbytes, telnet_hear]
    simp only [Event.answering, hread, List.append_assoc, List.cons_append]
  · rw [h.telnet, hbytes, telnet_hear]
    simp only [Telnet.partReads, hread]
  · exact h.room
  · exact h.settings

theorem Passed.of_happened {stop : List Event} (hroom : s.peer.room? = none)
    (harrivals : t.peer.arrivals = s.peer.arrivals)
    (hhappened : t.peer.happened = s.peer.happened ++ stop) (htelnet : t.telnet = s.telnet)
    (hroom' : t.peer.room? = s.peer.room?) (hsettings : t.settings = s.settings) :
    s.Passed [] stop t where
  arrivals := harrivals.symm
  happened := by simpa [Event.answering] using hhappened
  telnet := htelnet
  room := hroom'.trans hroom
  settings := hsettings

/-- **How the reads of a wait go.** -/
theorem Waits.exists_passed {deadline : Nat} {arrivals : List Arrival}
    {r : EStateM.Result Failure Session (Option (Match τ))}
    (h : Waits prompts deadline arrivals s r) (harrivals : s.peer.arrivals = arrivals)
    (hroom : s.peer.room? = none) :
    ∃ arrived, ∃ stop ∈ Event.stops, s.Passed arrived stop (endState r) := by
  induction h with
  | found hsearch =>
    exact ⟨[], [], by decide, .of_happened hroom rfl (List.append_nil _).symm rfl rfl rfl⟩
  | silence hsearch hnext =>
    exact ⟨[], [], by decide, .of_happened hroom rfl (List.append_nil _).symm rfl rfl rfl⟩
  | ended hsearch hclose =>
    exact ⟨[], [.ended], by decide, .of_happened hroom rfl (Peer.happened_record _ _) rfl rfl rfl⟩
  | @fault a later s reason hsearch ht ha =>
    have hnone : [a].filterMap (·.delivery.bytes?) = [] := by simp [ha, Delivery.bytes?]
    refine ⟨[a], [.readFailed], by decide, ?_⟩
    constructor
    · exact harrivals
    · rw [hnone, Event.answering, List.append_nil]
      exact Peer.happened_record _ _
    · rw [hnone]
      rfl
    · exact hroom
    · rfl
  | unwritten hsearch ht ha hwrite => cases (hear_fst_of_room hroom ..).symm.trans hwrite
  | bytes hsearch ht ha hwrite hrest ih =>
    obtain ⟨arrived, stop, hstop, hpassed⟩ :=
      ih (arrivals_hear ..) (by rw [room_hear, hroom]; rfl)
    exact ⟨_, stop, hstop, hpassed.cons hroom harrivals ha⟩

end Session

namespace Call

variable {c : Call} {s : Session}

/-- What a call reads is what arrives before what has not arrived yet. -/
theorem reads_of_arrivals {arrived : List Arrival}
    (h : s.peer.arrivals = arrived ++ (c.perform s).peer.arrivals) :
    c.reads s = arrived.filterMap (·.delivery.bytes?) := by
  have hlength : s.peer.arrivals.length - (c.perform s).peer.arrivals.length = arrived.length := by
    rw [h, List.length_append]
    omega
  rw [reads, hlength, h, List.take_left]

theorem reads_eq {arrived : List Arrival} {stop : List Event}
    (h : s.Passed arrived stop (c.perform s)) :
    c.reads s = arrived.filterMap (·.delivery.bytes?) :=
  reads_of_arrivals h.arrivals

theorem perform_listenFor {τ : Type} [ToString τ] (prompts : Prompts τ) (wait : Nat) (s : Session) :
    (listenFor prompts wait).perform s = endState (Session.listenFor prompts wait s) := by
  rw [perform, run, bind_apply]
  cases Session.listenFor prompts wait s <;> rfl

theorem perform_listen {τ : Type} [ToString τ] (prompts : Prompts τ) (s : Session) :
    (listen prompts).perform s = (listenFor prompts s.settings.timeout).perform s := by
  rw [perform_listenFor, perform, run, bind_apply, Session.listen_eq]
  cases Session.listenFor prompts s.settings.timeout s <;> rfl

theorem exists_passed_listenFor {τ : Type} [ToString τ] (prompts : Prompts τ) (wait : Nat)
    (hroom : s.peer.room? = none) : ∃ arrived, ∃ stop ∈ Event.stops,
      s.Passed arrived stop ((listenFor prompts wait).perform s) := by
  obtain ⟨arrived, stop, hstop, h⟩ :=
    (Session.waits_listenFor prompts wait s).exists_passed rfl hroom
  have hend : endState (Session.unloggedResult (Session.listenFor prompts wait s)) =
      ((listenFor prompts wait).perform s).unlogged := by
    rw [perform_listenFor]
    cases Session.listenFor prompts wait s <;> rfl
  rw [hend] at h
  exact ⟨arrived, stop, hstop, { h with }⟩

/-- A wait passes over some arrivals. -/
theorem exists_passed (hroom : s.peer.room? = none) (h : c.isWait = true) :
    ∃ arrived, ∃ stop ∈ Event.stops, s.Passed arrived stop (c.perform s) := by
  cases c with
  | say line => cases h
  | whisper line => cases h
  | listen prompts =>
    rw [perform_listen]
    exact exists_passed_listenFor prompts s.settings.timeout hroom
  | listenFor prompts wait => exact exists_passed_listenFor prompts wait hroom

/-- A line changes nothing but the log and what the server has taken. -/
structure Sent (line : List UInt8) (s t : Session) : Prop where
  peer : t.peer = (s.peer.write line).2
  telnet : t.telnet = s.telnet
  settings : t.settings = s.settings

theorem sent_writeLine (line : String) (hroom : s.peer.room? = none) :
    ∃ t, Session.writeLine line s = .ok () t ∧
      Sent (Utf8.bytes line ++ Utf8.bytes s.settings.lineEnding) s t := by
  have hwrite : (s.peer.write (Utf8.bytes line ++ Utf8.bytes s.settings.lineEnding)).1 = true :=
    Peer.write_fst_of_room hroom _
  refine ⟨{ s with peer := (s.peer.write _).2 }, ?_, rfl, rfl, rfl⟩
  simp only [Session.writeLine, bind_apply, get_apply, Session.write_eq, hwrite, if_true]

/-- A line is sent, whether it is logged or not. -/
theorem exists_sent (hroom : s.peer.room? = none) (h : c.isWait = false) :
    ∃ line, c.line? s.settings = some line ∧ c.run s = .ok () (c.perform s) ∧
      Sent line s (c.perform s) := by
  have send {text message : String} (hrun : c.run s =
      Session.writeLine text { s with past := (.debug, message) :: s.past }) :
      c.run s = .ok () (c.perform s) ∧
        Sent (Utf8.bytes text ++ Utf8.bytes s.settings.lineEnding) s (c.perform s) := by
    obtain ⟨t, hwrite, hsent⟩ := sent_writeLine text
      (s := { s with past := (.debug, message) :: s.past }) hroom
    rw [perform, hrun, hwrite]
    exact ⟨rfl, hsent.peer, hsent.telnet, hsent.settings⟩
  cases c with
  | say text => exact ⟨_, rfl, send rfl⟩
  | whisper text => exact ⟨_, rfl, send rfl⟩
  | listen prompts => cases h
  | listenFor prompts wait => cases h

theorem line?_of_isWait (settings : Settings) (h : c.isWait = true) : c.line? settings = none := by
  cases c <;> first | rfl | cases h

theorem Sent.arrivals {line : List UInt8} {t : Session} (h : Sent line s t) :
    t.peer.arrivals = s.peer.arrivals := by
  rw [h.peer, Peer.write_eq]

theorem Sent.reads {line : List UInt8} (h : Sent line s (c.perform s)) : c.reads s = [] := by
  rw [Call.reads, h.arrivals, Nat.sub_self]
  rfl

theorem Sent.room {line : List UInt8} {t : Session} (h : Sent line s t)
    (hroom : s.peer.room? = none) : t.peer.room? = none := by
  rw [h.peer, Peer.write_eq, hroom]
  rfl

/-- **How a call goes** when the server takes everything. -/
theorem goes (c : Call) (hroom : s.peer.room? = none) : c.Goes s.settings s := by
  unfold Goes
  cases hwait : c.isWait with
  | false =>
    obtain ⟨line, hline, hrun, hsent⟩ := exists_sent hroom hwait
    rw [hline]
    refine ⟨hrun, hsent.arrivals, ?_⟩
    rw [hsent.peer, Peer.happened_write hroom]
  | true =>
    obtain ⟨arrived, stop, hstop, h⟩ := exists_passed hroom hwait
    rw [line?_of_isWait _ hwait]
    refine ⟨⟨arrived, h.arrivals.symm⟩, stop, hstop, ?_⟩
    rw [reads_eq h, h.happened]

/-- What a call writes: the line that it sends, or the refusals of the options in what it reads. -/
def wire (c : Call) (s : Session) : List UInt8 :=
  (c.line? s.settings).getD (Telnet.partReads s.telnet (c.reads s)).2.refusals

/-- What is kept in every call: the server takes everything, the settings stay, and between telnet
commands the stream goes on from where the reads leave it. -/
structure Keeps (c : Call) (s : Session) : Prop where
  room : (c.perform s).peer.room? = none
  settings : (c.perform s).settings = s.settings
  telnet : (c.perform s).telnet = (Telnet.partReads s.telnet (c.reads s)).1
  written : (c.perform s).peer.written = s.peer.written ++ c.wire s

theorem keeps (c : Call) (hroom : s.peer.room? = none) : c.Keeps s := by
  cases hwait : c.isWait with
  | false =>
    obtain ⟨line, hline, -, hsent⟩ := exists_sent hroom hwait
    refine ⟨hsent.room hroom, hsent.settings, by rw [hsent.reads]; exact hsent.telnet, ?_⟩
    rw [wire, hline, hsent.peer, Peer.written_write, Peer.taken_of_room hroom]
    rfl
  | true =>
    obtain ⟨arrived, stop, hstop, h⟩ := exists_passed hroom hwait
    refine ⟨h.room, h.settings, by rw [reads_eq h]; exact h.telnet, ?_⟩
    have hnothing : stop.flatMap Event.taken = [] := Event.flatMap_taken_of_mem_stops stop hstop
    rw [wire, line?_of_isWait _ hwait, Peer.written_eq_happened, h.happened, List.flatMap_append,
      List.flatMap_append, Event.flatMap_taken_answering, hnothing, List.append_nil, reads_eq h,
      Peer.written_eq_happened]
    rfl

/-- What is written in a wait, and nothing in other calls, are the refusals of what is read. -/
theorem refusals_eq (c : Call) (hroom : s.peer.room? = none) :
    (if c.isWait then (c.perform s).peer.written.drop s.peer.written.length else []) =
      (Telnet.partReads s.telnet (c.reads s)).2.refusals := by
  cases hwait : c.isWait with
  | false =>
    obtain ⟨line, -, -, hsent⟩ := exists_sent hroom hwait
    rw [hsent.reads]
    rfl
  | true =>
    rw [if_pos rfl, (c.keeps hroom).written, List.drop_left, wire, line?_of_isWait _ hwait,
      Option.getD_none]

end Call

/-! ### Several calls -/

theorem Telnet.partReads_append (mode : Mode) (first rest : List (List UInt8)) :
    partReads mode (first ++ rest) = ((partReads (partReads mode first).1 rest).1,
      (partReads mode first).2 ++ (partReads (partReads mode first).1 rest).2) := by
  simp only [partReads_eq, List.flatten_append, part_append]

/-- A line holds no byte 255, so that it says itself. -/
theorem Call.says_of_line? {c : Call} {settings : Settings} {line : List UInt8}
    (h : c.line? settings = some line) : Telnet.Says line line := by
  have hsays (text : String) : Telnet.Says (Utf8.bytes text ++ Utf8.bytes settings.lineEnding)
      (Utf8.bytes text ++ Utf8.bytes settings.lineEnding) := by
    refine Telnet.part_of_notMem fun hmem => ?_
    rcases List.mem_append.mp hmem with hmem | hmem <;>
      exact absurd (Utf8.lt_of_mem_bytes hmem) (by decide)
  cases c with
  | say text =>
    cases h
    exact hsays text
  | whisper text =>
    cases h
    exact hsays text
  | listen prompts => cases h
  | listenFor prompts wait => cases h

/-- What a call writes says the line that is sent, if one is. -/
theorem Call.says_wire (c : Call) (s : Session) :
    Telnet.Says (c.wire s) ((c.line? s.settings).getD []) := by
  unfold wire
  cases hline : c.line? s.settings with
  | some line => exact says_of_line? hline
  | none =>
    rw [Option.getD_none, Option.getD_none, Telnet.partReads_eq]
    exact Telnet.says_refusals _ _

namespace Session

variable {s : Session}

/-- What is kept in several calls. Everything that they wrote is a telnet stream that says the lines
among them and asks for nothing. -/
structure Conversed (s : Session) (calls : List Call) : Prop where
  room : (s.after calls).peer.room? = none
  settings : (s.after calls).settings = s.settings
  refused : s.refused calls = (Telnet.partReads s.telnet (s.heard calls)).2.refusals
  spoken : ∃ out, (s.after calls).peer.written = s.peer.written ++ out ∧
    Telnet.Says out (calls.flatMap fun c => (c.line? s.settings).getD [])

theorem conversed (calls : List Call) (hroom : s.peer.room? = none) : s.Conversed calls := by
  induction calls generalizing s with
  | nil => exact ⟨hroom, rfl, rfl, [], (List.append_nil _).symm, Telnet.says_nil⟩
  | cons c calls ih =>
    have hcall : c.Keeps s := c.keeps hroom
    have hcalls : (c.perform s).Conversed calls := ih hcall.room
    refine ⟨hcalls.room, hcalls.settings.trans hcall.settings, ?_, ?_⟩
    · rw [refused, heard, c.refusals_eq hroom, hcalls.refused, Telnet.partReads_append,
        hcall.telnet]
      rfl
    · obtain ⟨out, hout, hsays⟩ := hcalls.spoken
      refine ⟨c.wire s ++ out, ?_, ?_⟩
      · rw [← List.append_assoc, ← hcall.written]
        exact hout
      · rw [hcall.settings] at hsays
        exact (c.says_wire s).append hsays

/-- **What the server makes of a conversation.** A new session talks to a server that acts as any
script says and takes everything. Every call, whatever calls were made before it, writes its line or
answers its reads one by one. The refusals of all waits together are those of everything read as one
stream. And everything written, read as one stream, is exactly the lines that were sent, with
nothing to answer and no command that is not complete. -/
theorem conversation (script : List ServerAct) (settings : Settings) (calls : List Call) :
    let s := start (.ofScript script none) settings
    (∀ c : Call, c.Goes settings (s.after calls)) ∧
      s.refused calls = (Telnet.partRead .data (s.heard calls).flatten).2.refusals ∧
      Telnet.partRead .data (s.after calls).peer.written =
        (.data, ⟨calls.flatMap fun c => (c.line? settings).getD [], []⟩) := by
  intro s
  have h : s.Conversed calls := s.conversed calls rfl
  refine ⟨fun c => ?_, ?_, ?_⟩
  · rw [show settings = (s.after calls).settings from h.settings.symm]
    exact c.goes h.room
  · rw [h.refused, (Telnet.partReads_flatten _ _).1]
    rfl
  · obtain ⟨out, hout, hsays⟩ := h.spoken
    rw [hout, Telnet.partRead_eq]
    exact hsays

/-- A demand is cut in two by a wait that times out, and a line is sent in between. -/
example :
    let word : Prompts String := ⟨[("word", .literal "go")]⟩
    let s := start (.ofScript [.send [255, 253], .wait 10, .send [1, 103, 111]] none) {}
    (s.after [.listenFor word 5, .say "l", .listenFor word 20]).peer.events =
      [(0, .read 2), (5, .write [108, 13, 10]), (10, .read 3), (10, .write [255, 252, 1])] := by
  decide +kernel

end Session

end MudDialogue
