import MudDialogue.Client.Rounds
import MudDialogue.Proofs.Session.Conversation

/-!
# What a client says between two waits

Between two waits a client only sends lines, logs and remembers. As long as the server takes
everything, nothing of this fails, and all that it does to the session is that the lines are
written, one write for each of them. The lines of a sequence are those of its parts, in order.

## Main definitions

* `Settings.wire` — a line as it is written.
* `Peer.writes`, `Event.saying` — everything that was written, and what lines make of it.
* `Session.Spoke` — between two sessions some lines were sent, and nothing else happened.
* `ClientM.Speaks` — an operation has a result, remembers something and says some lines.

## Main results

* `ClientM.Speaks.bind` — what a sequence says.
-/

namespace MudDialogue

open Text Operation

/-- A line as it is written, with its end. -/
def Settings.wire (c : Settings) (line : String) : List UInt8 :=
  Utf8.bytes line ++ Utf8.bytes c.lineEnding

namespace Event

/-- Something was written. -/
def isWrite : Event → Bool
  | write _ => true
  | _ => false

/-- Some lines are written, each of them by itself. A line is only seen if it has a byte. -/
def saying (c : Settings) (lines : List String) : List Event :=
  lines.flatMap fun line => writing (c.wire line)

@[simp] theorem saying_nil (c : Settings) : saying c [] = [] := rfl

theorem saying_append (c : Settings) (lines more : List String) :
    saying c (lines ++ more) = saying c lines ++ saying c more :=
  List.flatMap_append

theorem filter_isWrite_writing (bytes : List UInt8) :
    (writing bytes).filter isWrite = writing bytes := by
  cases bytes <;> rfl

end Event

/-- Everything that was written, write by write. -/
def Peer.writes (p : Peer) : List Event := p.happened.filter Event.isWrite

namespace Session

variable {s t u : Session}

theorem writes_hear (hroom : s.peer.room? = none) (a : Arrival) (bytes : List UInt8)
    (later : List Arrival) : (s.hear a bytes later).2.peer.writes =
      s.peer.writes ++ Event.writing (Telnet.part s.telnet bytes).2.refusals := by
  rw [Peer.writes, happened_hear hroom, List.filter_append,
    List.filter_cons_of_neg Bool.false_ne_true, Event.filter_isWrite_writing]
  rfl

/-- Some lines were sent, one after the other, to a server that takes everything. Apart from that
only the log may have changed. -/
structure Spoke (lines : List String) (s t : Session) : Prop where
  backlog : t.backlog = s.backlog
  telnet : t.telnet = s.telnet
  settings : t.settings = s.settings
  clock : t.peer.clock = s.peer.clock
  arrivals : t.peer.arrivals = s.peer.arrivals
  closesAt : t.peer.closesAt = s.peer.closesAt
  room : t.peer.room? = none
  writes : t.peer.writes = s.peer.writes ++ Event.saying s.settings lines

theorem Spoke.of_unlogged (hroom : s.peer.room? = none) (h : t.unlogged = s.unlogged) :
    Spoke [] s t := by
  obtain ⟨peer, backlog, telnet, settings, past⟩ := t
  cases h
  exact ⟨rfl, rfl, rfl, rfl, rfl, rfl, hroom, (List.append_nil _).symm⟩

theorem Spoke.trans {lines more : List String} (h : Spoke lines s t) (h' : Spoke more t u) :
    Spoke (lines ++ more) s u where
  backlog := h'.backlog.trans h.backlog
  telnet := h'.telnet.trans h.telnet
  settings := h'.settings.trans h.settings
  clock := h'.clock.trans h.clock
  arrivals := h'.arrivals.trans h.arrivals
  closesAt := h'.closesAt.trans h.closesAt
  room := h'.room
  writes := by
    rw [h'.writes, h.writes, h.settings, Event.saying_append, List.append_assoc]

/-- A line is sent, whether it is logged or not. -/
theorem exists_spoke_line (hroom : s.peer.room? = none) (message line : String) :
    ∃ t, (do note .debug message; writeLine line : SessionM Unit) s = .ok () t ∧
      Spoke [line] s t := by
  rw [line_eq, write_eq, if_pos (Peer.write_fst_of_room hroom _)]
  refine ⟨_, rfl, rfl, rfl, rfl, ?_, ?_, ?_, ?_, ?_⟩
  · rw [Peer.write_eq]
  · rw [Peer.write_eq]
  · rw [Peer.write_eq]
  · rw [Peer.write_eq]
    exact congrArg (Option.map _) hroom
  · have hsaying : Event.saying s.settings [line] = Event.writing (s.settings.wire line) :=
      List.append_nil _
    rw [hsaying, Peer.writes, Peer.happened_write hroom, List.filter_append,
      Event.filter_isWrite_writing]
    rfl

end Session

namespace ClientM

variable {σ α β : Type}

/-- An operation has a result, leaves something to remember, and says some lines. -/
def Speaks (x : ClientM σ α) (c : Client σ) (a : α) (m : σ) (lines : List String) : Prop :=
  ∃ t, x c = .ok a ⟨m, t⟩ ∧ c.session.Spoke lines t

/-- **What a sequence says.** -/
theorem Speaks.bind {x : ClientM σ α} {f : α → ClientM σ β} {c : Client σ} {a : α} {b : β}
    {m m' : σ} {lines more : List String} (hx : Speaks x c a m lines)
    (hf : ∀ t, c.session.Spoke lines t → Speaks (f a) ⟨m, t⟩ b m' more) :
    Speaks (x >>= f) c b m' (lines ++ more) := by
  obtain ⟨t, hx, ht⟩ := hx
  obtain ⟨u, hf, hu⟩ := hf t ht
  exact ⟨u, (bind_of_ok hx).trans hf, ht.trans hu⟩

section Parts

variable {c : Client σ} (hroom : c.session.peer.room? = none)
include hroom

theorem speaks_pure (a : α) : Speaks (pure a) c a c.memory [] :=
  ⟨c.session, rfl, .of_unlogged hroom rfl⟩

theorem speaks_remembered : Speaks remembered c c.memory c.memory [] :=
  ⟨c.session, rfl, .of_unlogged hroom rfl⟩

theorem speaks_remember (m : σ) : Speaks (remember m) c () m [] :=
  ⟨c.session, rfl, .of_unlogged hroom rfl⟩

theorem speaks_note (level : Level) (message : String) :
    Speaks (note level message) c () c.memory [] :=
  ⟨{ c.session with past := (level, message) :: c.session.past }, rfl, .of_unlogged hroom rfl⟩

theorem speaks_say (line : String) : Speaks (say line) c () c.memory [line] := by
  obtain ⟨t, hsay, ht⟩ := Session.exists_spoke_line hroom ("sending " ++ Quoted.quote line) line
  refine ⟨t, ?_, ht⟩
  rw [say, talk, Session.say, hsay]

theorem speaks_whisper (line : String) : Speaks (whisper line) c () c.memory [line] := by
  obtain ⟨t, hsay, ht⟩ := Session.exists_spoke_line hroom "sending <hidden>" line
  refine ⟨t, ?_, ht⟩
  rw [whisper, talk, Session.whisper, hsay]

end Parts

end ClientM

end MudDialogue
