import MudDialogue.Proofs.Session.Calls

/-!
# What the log tells of sending

Each line that is said is logged, and for each secret that is whispered it is logged that there was
one. Nothing else that a session logs looks like either, whatever the server sends: not what is
logged of a read, a refusal, a prompt, the end of the stream, or a wait that was in vain. So in the
log of a client that says only certain lines, no other line is shown as sent.

## Main definitions

* `Session.Logged` — all messages logged since some time are of one kind.
* `Session.TellsOf` — a message shows nothing as sent but some lines.

## Main results

* `Session.MadeBy.logged` — whatever calls were made for some lines and a secret, the log shows
  nothing else as sent.
-/

namespace MudDialogue.Session

open Pattern Operation

/-- Since the first session, messages of one kind were logged and nothing was taken back. -/
def Logged (kind : String → Prop) (s t : Session) : Prop :=
  ∃ new, t.past = new ++ s.past ∧ ∀ entry ∈ new, kind entry.2

/-- A message says that a secret was sent, or one of the lines, or it says nothing of sending. -/
def TellsOf (lines : List String) (message : String) : Prop :=
  IsOwnMessage message ∨ message = "sending <hidden>" ∨
    ∃ line ∈ lines, message = "sending " ++ Text.Quoted.quote line

/-- An operation logs messages of one kind. -/
def Logging (kind : String → Prop) {α : Type} (x : SessionM α) : Prop :=
  ∀ s, Logged kind s (endState (x s))

variable {kind : String → Prop} {α β : Type} {s t u : Session}

namespace Logged

theorem of_past (h : t.past = s.past) : Logged kind s t := ⟨[], h, by simp⟩

theorem trans (hst : Logged kind s t) (htu : Logged kind t u) : Logged kind s u := by
  obtain ⟨new, hnew, hkind⟩ := hst
  obtain ⟨newer, hnewer, hkind'⟩ := htu
  refine ⟨newer ++ new, by rw [hnewer, hnew, List.append_assoc], fun entry hentry => ?_⟩
  rcases List.mem_append.mp hentry with h | h
  · exact hkind' entry h
  · exact hkind entry h

end Logged

namespace Logging

variable {x : SessionM α} {f : α → SessionM β}

theorem of_past (h : ∀ s, (endState (x s)).past = s.past) : Logging kind x :=
  fun s => .of_past (h s)

theorem bind (hx : Logging kind x) (hf : ∀ a, Logging kind (f a)) : Logging kind (x >>= f) := by
  intro s
  have hfirst := hx s
  rw [bind_apply]
  cases h : x s with
  | ok a t =>
    rw [h] at hfirst
    exact hfirst.trans (hf a t)
  | error e t =>
    rw [h] at hfirst
    exact hfirst

theorem note (level : Level) {message : String} (h : kind message) :
    Logging kind (Session.note level message) :=
  fun _ => ⟨[(level, message)], rfl, by simpa using h⟩

theorem write (bytes : List UInt8) : Logging kind (Session.write bytes) := by
  refine .of_past fun s => ?_
  rw [write_eq]
  split <;> rfl

/-- A line is logged in some way and written. -/
theorem line {message : String} (h : kind message) (line : String) :
    Logging kind (do Session.note .debug message; writeLine line) :=
  .bind (.note .debug h) fun _ => .bind (.of_past fun _ => rfl) fun _ => .write _

end Logging

/-! ### What is logged while waiting -/

section Waiting

variable (hown : ∀ {message}, IsOwnMessage message → kind message)
include hown

theorem logging_receive (bytes : List UInt8) : Logging kind (receive bytes) := by
  refine .bind (.note .trace (hown (.of_head? (by simp)))) fun _ => ?_
  refine .bind (.of_past fun _ => rfl) fun s => ?_
  rcases Telnet.partRead s.telnet bytes with ⟨telnet, parted⟩
  have hbacklog : Logging kind
      (modify fun s : Session => { s with backlog := s.backlog.extend parted.text }) :=
    .of_past fun _ => rfl
  refine .bind (.of_past fun _ => rfl) fun _ => ?_
  cases parted.refusals.isEmpty with
  | true => exact hbacklog
  | false =>
    refine .bind (.note .trace (hown (.closing _ (by decide)))) fun _ => ?_
    exact .bind (.write _) fun _ => hbacklog

theorem logging_read (a : Arrival) (later : List Arrival) :
    Logging kind (Session.read a later) := by
  refine .bind (.of_past fun _ => rfl) fun _ => ?_
  cases a.delivery with
  | bytes bytes => exact .bind (.of_past fun _ => rfl) fun _ => logging_receive hown bytes
  | fault reason => exact .bind (.of_past fun _ => rfl) fun _ => .of_past fun _ => rfl

theorem logging_readEnd : Logging kind readEnd := by
  refine .bind (.of_past fun _ => rfl) fun _ => ?_
  exact .bind (.note .debug (hown (.of_getLast? (by decide)))) fun _ => .of_past fun _ => rfl

theorem logging_giveUp (wait deadline : Nat) : Logging kind (giveUp wait deadline) := by
  refine .bind (.of_past fun _ => rfl) fun _ => .bind (.of_past fun _ => rfl) fun s => ?_
  rw [String.append_assoc, String.append_assoc]
  exact .note .debug (hown (.opening (by simp) _))

variable {τ : Type} [ToString τ] (prompts : Prompts τ)

theorem logging_recognise : Logging kind (recognise prompts) := by
  intro s
  cases hsearch : s.backlog.search prompts with
  | none =>
    rw [recognise_of_none hsearch]
    exact .of_past rfl
  | some found =>
    rw [recognise_of_some hsearch]
    exact ⟨[_], rfl, by simpa using hown (.of_head? (by simp))⟩

theorem logging_listenUntil (wait deadline : Nat) (arrivals : List Arrival) :
    Logging kind (listenUntil prompts wait deadline arrivals) := by
  induction arrivals with
  | nil =>
    refine .bind (logging_recognise hown prompts) fun found? => ?_
    cases found? with
    | some found => exact .of_past fun _ => rfl
    | none =>
      refine .bind (.of_past fun _ => rfl) fun s => ?_
      by_cases hclose : s.peer.closesAt ≤ deadline
      · simp only [hclose, ↓reduceIte]
        exact .bind (logging_readEnd hown) fun _ => .of_past fun _ => rfl
      · simp only [hclose, ↓reduceIte]
        exact .bind (logging_giveUp hown wait deadline) fun _ => .of_past fun _ => rfl
  | cons a later ih =>
    refine .bind (logging_recognise hown prompts) fun found? => ?_
    cases found? with
    | some found => exact .of_past fun _ => rfl
    | none =>
      by_cases htime : a.time ≤ deadline
      · simp only [htime, ↓reduceIte]
        exact .bind (logging_read hown a later) fun _ => ih
      · simp only [htime, ↓reduceIte]
        exact .bind (logging_giveUp hown wait deadline) fun _ => .of_past fun _ => rfl

theorem logging_listen : Logging kind (listen prompts) :=
  .bind (.of_past fun _ => rfl) fun _ => .bind (.of_past fun _ => rfl) fun _ =>
    logging_listenUntil hown prompts _ _ _

end Waiting

/-- **The log shows nothing as sent but certain lines**, if only calls for these were made. -/
theorem MadeBy.logged {lines : List String} {secret : String} (h : MadeBy lines secret s t) :
    Logged (TellsOf lines) s t := by
  induction h with
  | refl => exact .of_past rfl
  | say h hline ih => exact ih.trans (Logging.line (.inr (.inr ⟨_, hline, rfl⟩)) _ _)
  | whisper h ih => exact ih.trans (Logging.line (.inr (.inl rfl)) _ _)
  | listen h prompts ih => exact ih.trans (logging_listen .inl prompts _)
  | note h level hown ih => exact ih.trans (Logging.note level (.inl hown) _)

end MudDialogue.Session
