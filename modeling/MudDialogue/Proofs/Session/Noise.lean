import MudDialogue.Proofs.Client.Bisimulation
import MudDialogue.Proofs.Session.Conversation
import MudDialogue.Proofs.Telnet.Noise

/-!
# Dialogues with a server that adds telnet commands

A server that mixes more telnet commands into what it sends is talked to as if it did not. Whatever
calls are made, each of them comes to the same at the same time, and the same output is pending
after it; the commands are only seen in their refusals, which stand among the other bytes that are
written. A command may be added in the middle of a character, a control sequence or a prompt, as
long as it does not make two reads of one.

## Main definitions

* `NoisyScript` — commands are added to what a script says.
* `Session.Undisturbed` — two sessions differ by commands that were added, and by no more.
* `Session.Indistinct` — whatever is called next comes to the same on two such sessions.

## Main results

* `Session.Waits.undisturbed` — a wait comes to the same with added commands.
* `Session.indistinct_of_noisyScript` — so does every call after any other calls.
-/

namespace MudDialogue

open Pattern Operation

/-- Whole telnet commands are added to what a server sends, between other commands. Nothing is added
where nothing is sent, and no more than a read takes is sent at once. -/
inductive NoisyScript : Telnet.Mode → List ServerAct → List Telnet.Token → List ServerAct → Prop where
  | nil {mode} : NoisyScript mode [] [] []
  | wait {mode n acts added noisy} (h : NoisyScript mode acts added noisy) :
      NoisyScript mode (.wait n :: acts) added (.wait n :: noisy)
  | fault {mode reason acts added noisy} (h : NoisyScript mode acts added noisy) :
      NoisyScript mode (.fault reason :: acts) added (.fault reason :: noisy)
  | nothing {mode acts added noisy} (h : NoisyScript mode acts added noisy) :
      NoisyScript mode (.send [] :: acts) added (.send [] :: noisy)
  | send {mode bytes added mixed acts later noisy} (hne : bytes ≠ [])
      (hbytes : Telnet.Noised mode bytes added mixed) (hsize : mixed.length ≤ readSize)
      (h : NoisyScript (Telnet.part mode bytes).1 acts later noisy) :
      NoisyScript mode (.send bytes :: acts) (added ++ later) (.send mixed :: noisy)

/-- Whole telnet commands are added to what arrives, between other commands. -/
inductive NoisyArrivals : Telnet.Mode → List Arrival → List Telnet.Token → List Arrival → Prop where
  | nil {mode} : NoisyArrivals mode [] [] []
  | fault {mode time reason arrivals added noisy} (h : NoisyArrivals mode arrivals added noisy) :
      NoisyArrivals mode (⟨time, .fault reason⟩ :: arrivals) added (⟨time, .fault reason⟩ :: noisy)
  | bytes {mode time bytes added mixed arrivals later noisy}
      (hbytes : Telnet.Noised mode bytes added mixed)
      (h : NoisyArrivals (Telnet.part mode bytes).1 arrivals later noisy) :
      NoisyArrivals mode (⟨time, .bytes bytes⟩ :: arrivals) (added ++ later)
        (⟨time, .bytes mixed⟩ :: noisy)

/-- What is sent at once and is not too long arrives in one read. -/
theorem Peer.reads_of_le {bytes : List UInt8} (hne : bytes ≠ []) (hsize : bytes.length ≤ readSize) :
    Peer.reads bytes = [bytes] := by
  have hpos : 0 < bytes.length := List.length_pos_iff.mpr hne
  have hone : (bytes.length + readSize - 1) / readSize = 1 := by
    unfold readSize at *
    omega
  simp [Peer.reads, hone, List.take_of_length_le hsize]

/-- Added commands change nothing in when something arrives. -/
theorem NoisyScript.timeline {mode : Telnet.Mode} {script noisy : List ServerAct}
    {added : List Telnet.Token} (h : NoisyScript mode script added noisy) (now : Nat) :
    NoisyArrivals mode (Peer.timeline now script).1 added (Peer.timeline now noisy).1 ∧
      (Peer.timeline now noisy).2 = (Peer.timeline now script).2 := by
  induction h generalizing now with
  | nil => exact ⟨.nil, rfl⟩
  | @wait mode n acts added noisy h ih => exact ih (now + n)
  | fault h ih => exact ⟨.fault (ih now).1, (ih now).2⟩
  | nothing h ih => exact ih now
  | @send mode bytes added mixed acts later noisy hne hbytes hsize h ih =>
    have hle := hbytes.length_le
    have hne' : mixed ≠ [] := by
      rintro rfl
      exact hne (List.eq_nil_of_length_eq_zero (Nat.le_zero.mp hle))
    simp only [Peer.timeline, Peer.reads_of_le hne (Nat.le_trans hle hsize),
      Peer.reads_of_le hne' hsize]
    exact ⟨.bytes hbytes (ih now).1, (ih now).2⟩

namespace NoisyArrivals

variable {mode : Telnet.Mode} {a : Arrival} {arrivals noisy : List Arrival}
  {added : List Telnet.Token}

theorem nextTime_eq (h : NoisyArrivals mode arrivals added noisy) (closesAt : Nat) :
    Session.nextTime closesAt noisy = Session.nextTime closesAt arrivals := by
  cases h <;> rfl

theorem eq_nil (h : NoisyArrivals mode [] added noisy) : noisy = [] := by
  cases h
  rfl

theorem exists_of_fault (h : NoisyArrivals mode (a :: arrivals) added noisy) {reason : String}
    (ha : a.delivery = .fault reason) :
    ∃ more, noisy = a :: more ∧ NoisyArrivals mode arrivals added more := by
  cases h with
  | fault h => exact ⟨_, rfl, h⟩
  | bytes hbytes h => cases ha

theorem exists_of_bytes (h : NoisyArrivals mode (a :: arrivals) added noisy) {bytes : List UInt8}
    (ha : a.delivery = .bytes bytes) :
    ∃ here later mixed more, added = here ++ later ∧ noisy = ⟨a.time, .bytes mixed⟩ :: more ∧
      Telnet.Noised mode bytes here mixed ∧
      NoisyArrivals (Telnet.part mode bytes).1 arrivals later more := by
  cases h with
  | fault h => cases ha
  | bytes hbytes h =>
    cases ha
    exact ⟨_, _, _, _, rfl, rfl, hbytes, h⟩

end NoisyArrivals

namespace Session

/-- Two sessions differ in that telnet commands were added to what the second one receives, and by
no more than that. The commands that were received have been refused, and the others are among what
is still to arrive. -/
structure Undisturbed (added : List Telnet.Token) (s t : Session) : Prop where
  settings : t.settings = s.settings
  backlog : t.backlog = s.backlog
  telnet : t.telnet = s.telnet
  clock : t.peer.clock = s.peer.clock
  closesAt : t.peer.closesAt = s.peer.closesAt
  room : s.peer.room? = none
  room' : t.peer.room? = none
  noise : ∃ received later, added = received ++ later ∧
    NoisyArrivals s.telnet s.peer.arrivals later t.peer.arrivals ∧
    Telnet.Interspersed s.peer.written (received.map Telnet.Token.replies) t.peer.written

variable {added : List Telnet.Token} {s t : Session}

/-- Two sessions at their start, over scripts that differ by added commands. -/
theorem Undisturbed.start {script noisy : List ServerAct} (h : NoisyScript .data script added noisy)
    (settings : Settings) :
    Undisturbed added (start (.ofScript script none) settings)
      (start (.ofScript noisy none) settings) where
  settings := rfl
  backlog := rfl
  telnet := rfl
  clock := rfl
  closesAt := (h.timeline 0).2
  room := rfl
  room' := rfl
  noise := ⟨[], added, rfl, (h.timeline 0).1, .nil⟩

namespace Undisturbed

theorem search (h : Undisturbed added s t) {τ : Type} (prompts : Prompts τ) :
    t.backlog.search prompts = s.backlog.search prompts := by
  rw [h.backlog]

theorem waitUntil (h : Undisturbed added s t) (time : Nat) :
    Undisturbed added (s.waitUntil time) (t.waitUntil time) :=
  { h with clock := congrArg (max · time) h.clock }

/-- Something happens to both of them that is no write. -/
theorem record (h : Undisturbed added s t) {e : Event} (he : e.taken = []) :
    Undisturbed added (s.record e) (t.record e) := by
  obtain ⟨received, later, hadded, hnoise, hwritten⟩ := h.noise
  have hsame (u : Session) : (u.record e).peer.written = u.peer.written := by
    rw [Session.record, Peer.written_record, he, List.append_nil]
  refine { h with noise := ⟨received, later, hadded, hnoise, ?_⟩ }
  rw [hsame, hsame]
  exact hwritten

/-- The same bytes are written to both of them. -/
theorem write (h : Undisturbed added s t) (bytes : List UInt8) :
    Undisturbed added { s with peer := (s.peer.write bytes).2 }
      { t with peer := (t.peer.write bytes).2 } := by
  obtain ⟨received, later, hadded, hnoise, hwritten⟩ := h.noise
  have hkeeps (u : Session) : (u.peer.write bytes).2.clock = u.peer.clock ∧
      (u.peer.write bytes).2.closesAt = u.peer.closesAt ∧
      (u.peer.write bytes).2.arrivals = u.peer.arrivals ∧
      (u.peer.write bytes).2.room? = u.peer.room?.map (· - bytes.length) := by
    rw [Peer.write_eq]
    exact ⟨rfl, rfl, rfl, rfl⟩
  obtain ⟨hclock, hcloses, harrivals, hroom⟩ := hkeeps s
  obtain ⟨hclock', hcloses', harrivals', hroom'⟩ := hkeeps t
  refine ⟨h.settings, h.backlog, h.telnet, ?_, ?_, ?_, ?_, received, later, hadded, ?_, ?_⟩
  · rw [hclock, hclock', h.clock]
  · rw [hcloses, hcloses', h.closesAt]
  · rw [hroom, h.room]
    rfl
  · rw [hroom', h.room']
    rfl
  · rw [harrivals, harrivals']
    exact hnoise
  · rw [Peer.written_write, Peer.written_write, Peer.taken_of_room h.room,
      Peer.taken_of_room h.room', ← List.append_nil (received.map _)]
    exact hwritten.append (.refl bytes)

/-- A read brings the same, but for the refusals of the commands that were added to it. -/
theorem hear {a b : Arrival} {bytes mixed : List UInt8}
    {received here later : List Telnet.Token} {arrivals noisy : List Arrival}
    (h : Undisturbed added s t) (hadded : added = received ++ (here ++ later))
    (hwritten : Telnet.Interspersed s.peer.written (received.map Telnet.Token.replies)
      t.peer.written)
    (htime : b.time = a.time) (hbytes : Telnet.Noised s.telnet bytes here mixed)
    (hrest : NoisyArrivals (Telnet.part s.telnet bytes).1 arrivals later noisy) :
    Undisturbed added (s.hear a bytes arrivals).2 (t.hear b mixed noisy).2 := by
  obtain ⟨hmode, htext, hrefusals⟩ := hbytes.part
  refine ⟨h.settings, ?_, ?_, ?_, ?_, ?_, ?_, received ++ here, later, ?_, ?_, ?_⟩
  · rw [backlog_hear _ _ _ _ (hear_fst_of_room h.room' ..),
      backlog_hear _ _ _ _ (hear_fst_of_room h.room ..), h.backlog, h.telnet, htext]
  · rw [telnet_hear, telnet_hear, h.telnet, hmode]
  · rw [clock_hear, clock_hear, h.clock, htime]
  · rw [closesAt_hear, closesAt_hear, h.closesAt]
  · rw [room_hear, h.room]
    rfl
  · rw [room_hear, h.room']
    rfl
  · rw [hadded, List.append_assoc]
  · rw [telnet_hear, arrivals_hear, arrivals_hear]
    exact hrest
  · rw [written_hear, written_hear, Peer.taken_of_room h.room, Peer.taken_of_room h.room',
      h.telnet, List.map_append]
    exact hwritten.append hrefusals

/-- The logs of the sessions may be any. -/
theorem of_unlogged {u v : Session} (h : Undisturbed added s t) (hs : u.unlogged = s.unlogged)
    (ht : v.unlogged = t.unlogged) : Undisturbed added u v := by
  cases u
  cases s
  cases v
  cases t
  cases hs
  cases ht
  exact { h with }

end Undisturbed

/-! ### One call -/

/-- Two results are the same, with sessions that differ by added commands. -/
abbrev SameResult {α : Type} (added : List Telnet.Token) :
    EStateM.Result Failure Session α → EStateM.Result Failure Session α → Prop :=
  Agree (Undisturbed added) fun _ => Undisturbed added

/-- **A wait comes to the same with added commands.** -/
theorem Waits.undisturbed {τ : Type} {prompts : Prompts τ} {deadline : Nat}
    {arrivals : List Arrival} {r : EStateM.Result Failure Session (Option (Match τ))}
    (h : Waits prompts deadline arrivals s r) (harrivals : s.peer.arrivals = arrivals)
    (hst : Undisturbed added s t) :
    ∃ q, Waits prompts deadline t.peer.arrivals t q ∧ SameResult added r q := by
  induction h generalizing t with
  | found hsearch =>
    exact ⟨_, .found ((hst.search prompts).trans hsearch), .ok { hst with backlog := rfl }⟩
  | silence hsearch hnext =>
    obtain ⟨received, later, -, hnoise, -⟩ := hst.noise
    refine ⟨_, .silence ((hst.search prompts).trans hsearch) ?_, .ok (hst.waitUntil deadline)⟩
    rw [hnoise.nextTime_eq, hst.closesAt, harrivals]
    exact hnext
  | ended hsearch hclose =>
    obtain ⟨received, later, -, hnoise, -⟩ := hst.noise
    rw [harrivals] at hnoise
    rw [hnoise.eq_nil]
    refine ⟨_, .ended ((hst.search prompts).trans hsearch) (hst.closesAt ▸ hclose), .error ?_⟩
    rw [hst.closesAt]
    exact (hst.waitUntil _).record rfl
  | @fault a later s reason hsearch ht ha =>
    obtain ⟨received, rest, hadded, hnoise, hwritten⟩ := hst.noise
    rw [harrivals] at hnoise
    obtain ⟨more, hmore, hrest⟩ := hnoise.exists_of_fault ha
    rw [hmore]
    refine ⟨_, .fault ((hst.search prompts).trans hsearch) ht ha, .error ?_⟩
    have hreach : Undisturbed added (s.reach a later) (t.reach a more) :=
      { hst with
        clock := congrArg (max · a.time) hst.clock
        noise := ⟨received, rest, hadded, hrest, hwritten⟩ }
    exact hreach.record rfl
  | unwritten hsearch ht ha hwrite => cases (hear_fst_of_room hst.room ..).symm.trans hwrite
  | @bytes a later s bytes result hsearch ht ha hwrite hrest ih =>
    obtain ⟨received, rest, hadded, hnoise, hwritten⟩ := hst.noise
    rw [harrivals] at hnoise
    obtain ⟨here, rest, mixed, more, rfl, hmore, hbytes, hnoise⟩ := hnoise.exists_of_bytes ha
    have hheard := hst.hear (a := a) (b := ⟨a.time, .bytes mixed⟩) hadded hwritten rfl hbytes hnoise
    obtain ⟨q, hq, hsame⟩ := ih (arrivals_hear ..) hheard
    refine ⟨q, ?_, hsame⟩
    rw [arrivals_hear] at hq
    rw [hmore]
    exact .bytes ((hst.search prompts).trans hsearch) ht rfl (hear_fst_of_room hst.room' ..) hq

theorem undisturbed_listenFor {τ : Type} [ToString τ] (prompts : Prompts τ) (wait : Nat)
    (h : Undisturbed added s t) :
    SameResult added (listenFor prompts wait s) (listenFor prompts wait t) := by
  have hunlogged : Undisturbed added s.unlogged t.unlogged := h.of_unlogged rfl rfl
  obtain ⟨q, hq, hsame⟩ := (waits_listenFor prompts wait s).undisturbed rfl hunlogged
  have ht := waits_listenFor prompts wait t
  rw [h.clock] at ht
  obtain rfl := hq.unique ht
  generalize listenFor prompts wait s = r, listenFor prompts wait t = r' at hsame
  cases r <;> cases r' <;> cases hsame
  case ok.ok.ok hafter => exact .ok (hafter.of_unlogged rfl rfl)
  case error.error.error hafter => exact .error (hafter.of_unlogged rfl rfl)

theorem undisturbed_listen {τ : Type} [ToString τ] (prompts : Prompts τ)
    (h : Undisturbed added s t) : SameResult added (listen prompts s) (listen prompts t) := by
  rw [listen_eq, listen_eq, h.settings]
  exact undisturbed_listenFor prompts _ h

/-- A line is sent, whether it is logged or not. -/
theorem undisturbed_line (message line : String) (h : Undisturbed added s t) :
    SameResult added ((do note .debug message; writeLine line) s)
      ((do note .debug message; writeLine line) t) := by
  have hwrite {u v : Session} (h : Undisturbed added u v) (bytes : List UInt8) :
      SameResult added (Session.write bytes u) (Session.write bytes v) := by
    rw [write_eq, write_eq, if_pos (Peer.write_fst_of_room h.room bytes),
      if_pos (Peer.write_fst_of_room h.room' bytes)]
    exact .ok (h.write bytes)
  have hnote : Undisturbed added { s with past := (.debug, message) :: s.past }
      { t with past := (.debug, message) :: t.past } := h.of_unlogged rfl rfl
  have hline := hwrite hnote (Text.Utf8.bytes line ++ Text.Utf8.bytes s.settings.lineEnding)
  have hsettings : t.settings.lineEnding = s.settings.lineEnding := by rw [h.settings]
  rw [line_eq, line_eq, hsettings]
  exact hline

/-! ### Several calls -/

theorem Undisturbed.perform (h : Undisturbed added s t) (c : Call) :
    Undisturbed added (c.perform s) (c.perform t) := by
  have hend {α : Type} {r q : EStateM.Result Failure Session α} (h : SameResult added r q) :
      Undisturbed added (endState r) (endState q) := by
    cases h with
    | ok h => exact h
    | error h => exact h
  cases c with
  | say line => exact hend (undisturbed_line _ line h)
  | whisper line => exact hend (undisturbed_line _ line h)
  | listenFor prompts wait =>
    rw [Call.perform_listenFor, Call.perform_listenFor]
    exact hend (undisturbed_listenFor prompts wait h)
  | listen prompts =>
    rw [Call.perform_listen, Call.perform_listen, Call.perform_listenFor, Call.perform_listenFor,
      h.settings]
    exact hend (undisturbed_listenFor prompts _ h)

theorem Undisturbed.after (h : Undisturbed added s t) (calls : List Call) :
    Undisturbed added (s.after calls) (t.after calls) := by
  induction calls generalizing s t with
  | nil => exact h
  | cons c calls ih => exact ih (h.perform c)

/-- The sessions differ by added commands, and whatever is called next comes to the same on both of
them: it has the same result or the same failure, takes the same time and leaves the same output
pending. -/
structure Indistinct (added : List Telnet.Token) (s t : Session) : Prop where
  undisturbed : Undisturbed added s t
  say (line : String) : SameResult added (Session.say line s) (Session.say line t)
  whisper (line : String) : SameResult added (Session.whisper line s) (Session.whisper line t)
  listen {τ : Type} [ToString τ] (prompts : Prompts τ) :
    SameResult added (Session.listen prompts s) (Session.listen prompts t)
  listenFor {τ : Type} [ToString τ] (prompts : Prompts τ) (wait : Nat) :
    SameResult added (Session.listenFor prompts wait s) (Session.listenFor prompts wait t)

/-- **Added commands change no dialogue.** A server takes everything that is written, and another one
sends the same with telnet commands added to it. Whatever calls are made on a new session with
either of them, every next call comes to the same on both sessions, and what was written differs by
the refusals of the added commands that were received. -/
theorem indistinct_of_noisyScript {script noisy : List ServerAct} {added : List Telnet.Token}
    (h : NoisyScript .data script added noisy) (settings : Settings) (calls : List Call) :
    Indistinct added ((start (.ofScript script none) settings).after calls)
      ((start (.ofScript noisy none) settings).after calls) := by
  have hafter := (Undisturbed.start h settings).after calls
  constructor
  · exact hafter
  · exact fun line => undisturbed_line _ line hafter
  · exact fun line => undisturbed_line _ line hafter
  · exact fun prompts => undisturbed_listen prompts hafter
  · exact fun prompts wait => undisturbed_listenFor prompts wait hafter

/-- A demand stands in the middle of a letter, and a command in the middle of a prompt. -/
theorem indistinct_of_noisyScript_in_letter :
    let script := [.send [0xC3], .wait 5, .send [0xA9, 62, 32]]
    let added := [.negotiation .demand 1, .command 241 (by decide)]
    let noisy := [.send [0xC3, 255, 253, 1], .wait 5, .send [0xA9, 62, 255, 241, 32]]
    let word : Prompts String := ⟨[("menu", menu)]⟩
    let calls := [.say "l", .listenFor word 20]
    NoisyScript .data script added noisy ∧
      Indistinct added ((start (.ofScript script none) {}).after calls)
        ((start (.ofScript noisy none) {}).after calls) := by
  intro script added noisy word calls
  have hnoisy : NoisyScript .data script added noisy := by
    have hfirst : Telnet.Noised .data [0xC3] [.negotiation .demand 1] [0xC3, 255, 253, 1] :=
      .byte (.command (t := .negotiation .demand 1) trivial .nil)
    have hsecond : Telnet.Noised .data [0xA9, 62, 32] [.command 241 (by decide)]
        [0xA9, 62, 255, 241, 32] :=
      .byte (.byte (.command (t := .command 241 (by decide)) trivial (.byte .nil)))
    exact .send (by decide) hfirst (by decide) (.wait (.send (by decide) hsecond (by decide) .nil))
  exact ⟨hnoisy, indistinct_of_noisyScript hnoisy {} calls⟩

end Session

end MudDialogue
