import Mathlib.Data.List.Forall2
import MudDialogue.Proofs.Client.Speaking
import MudDialogue.Proofs.Session.Keeping

/-!
# What a client does, deed by deed

Over its session a client waits for prompts and sends lines. Each of these is a deed if it has a
result; a client that fails has done some deeds and missed one. Deeds can be followed on the stream:
a wait shows as reads and their refusals, a line as one write, and of a line that is missed the
server has taken the beginning. The log is left out, as no deed depends on it.

## Main definitions

* `Deed`, `Attempt` — something that was done, and something to be tried.
* `Session.Did`, `Session.Misses` — some deeds were done, and then one was missed.
* `ClientM.Performs` — an operation does some deeds, all or up to one that it misses.

## Main results

* `Session.Went.exists_shown` — what is seen of it on the stream.
* `ClientM.Performs.bind` — what a sequence does.
-/

namespace MudDialogue

open Pattern Operation

/-- Something that a client tries over its session. -/
inductive Attempt where
  /-- To hear a prompt. -/
  | wait
  /-- To send a line. -/
  | say (line : String)
  /-- To send a line that must not be logged. -/
  | whisper (line : String)
deriving DecidableEq, Repr

/-- Something that a client has done over its session. -/
inductive Deed (τ : Type) where
  /-- A wait came to a prompt, or to none. -/
  | waited (found? : Option (Match τ))
  /-- A line was sent. -/
  | said (line : String)
  /-- A line was sent that must not be logged. -/
  | whispered (line : String)

/-- A line was sent. -/
def Deed.isSent {τ : Type} : Deed τ → Bool
  | waited _ => false
  | said _ | whispered _ => true

/-- What was tried in a deed. -/
def Deed.attempt {τ : Type} : Deed τ → Attempt
  | waited _ => .wait
  | said line => .say line
  | whispered line => .whisper line

variable {σ τ α β : Type}

namespace Session

variable [ToString τ]

/-- A deed leads from one session to another. -/
def Does (set : Prompts τ) (s : Session) : Deed τ → Session → Prop
  | .waited found?, t => listen set s = .ok found? t
  | .said line, t => say line s = .ok () t
  | .whispered line, t => whisper line s = .ok () t

/-- Something that is tried fails and leaves another session. -/
def FailsIn (set : Prompts τ) (s : Session) : Attempt → Failure → Session → Prop
  | .wait, f, t => listen set s = .error f t
  | .say line, f, t => say line s = .error f t
  | .whisper line, f, t => whisper line s = .error f t

/-- Between two sessions some deeds were done, one after the other, and nothing else but that
something was logged. -/
inductive Did (set : Prompts τ) : Session → List (Deed τ) → Session → Prop where
  | done {s t} (hlog : t.unlogged = s.unlogged) : Did set s [] t
  | next {s s' t u : Session} {deed deeds} (hlog : s'.unlogged = s.unlogged)
      (hdeed : s'.Does set deed t) (hrest : Did set t deeds u) :
      Did set s (deed :: deeds) u

/-- Some deeds were done, and then something failed that was tried. -/
def Misses (set : Prompts τ) (s : Session) (deeds : List (Deed τ)) (attempt : Attempt)
    (f : Failure) (t : Session) : Prop :=
  ∃ u, s.Did set deeds u ∧ u.FailsIn set attempt f t

/-- Some deeds were done, and then, if it is given, something failed that was tried. -/
def Went (set : Prompts τ) (s : Session) (deeds : List (Deed τ)) :
    Option (Attempt × Failure) → Session → Prop
  | none, t => s.Did set deeds t
  | some (attempt, f), t => s.Misses set deeds attempt f t

variable {set : Prompts τ} {s t u : Session} {deeds more : List (Deed τ)} {attempt : Attempt}
  {f : Failure}

theorem Did.of_unlogged (hlog : t.unlogged = s.unlogged) (h : t.Did set deeds u) :
    s.Did set deeds u := by
  cases h with
  | done hlog' => exact .done (hlog'.trans hlog)
  | next hlog' hdeed hrest => exact .next (hlog'.trans hlog) hdeed hrest

theorem Did.trans (h : s.Did set deeds t) (h' : t.Did set more u) :
    s.Did set (deeds ++ more) u := by
  induction h with
  | done hlog => exact .of_unlogged hlog h'
  | next hlog hdeed hrest ih => exact .next hlog hdeed (ih h')

theorem Did.single {deed : Deed τ} (h : s.Does set deed t) :
    s.Did set [deed] t :=
  .next rfl h (.done rfl)

theorem Did.misses (h : s.Did set deeds t) (h' : t.Misses set more attempt f u) :
    s.Misses set (deeds ++ more) attempt f u := by
  obtain ⟨v, hdid, hmissed⟩ := h'
  exact ⟨v, h.trans hdid, hmissed⟩

theorem Does.misses (deed : Deed τ) (h : s.Does set deed t)
    (h' : t.Misses set more attempt f u) : s.Misses set (deed :: more) attempt f u :=
  (Did.single h).misses h'

end Session

/-! ### What is seen of a deed -/

/-- What is seen on the stream of a deed: the reads of a wait and their refusals, or a line. -/
def Deed.Shows (settings : Settings) : Deed τ → List Event → Prop
  | waited _, events => ∃ mode reads, events = Event.answering mode reads
  | said line, events | whispered line, events => events = Event.writing (settings.wire line)

/-- What is seen on the stream of something that fails. A wait makes some reads and then finds the
end of the stream, or a read that fails, or it cannot write all refusals of one last read. Of a line
the server takes a part, and it is not the whole line. -/
def Attempt.Shows (settings : Settings) : Attempt → Failure → List Event → Prop
  | wait, f, events => ∃ mode reads stop, events = Event.answering mode reads ++ stop ∧
      (f = .closed ∧ stop = [.ended] ∨ f.isClosed = false ∧ (stop = [.readFailed] ∨
        ∃ bytes part, part <+: (Telnet.part (Telnet.partReads mode reads).1 bytes).2.refusals ∧
          stop = .read bytes.length :: (Event.writing part ++ [.writeFailed])))
  | say line, f, events | whisper line, f, events => f.isClosed = false ∧
      ∃ part, part <+: settings.wire line ∧ part ≠ settings.wire line ∧
        events = Event.writing part ++ [.writeFailed]

namespace Session

variable [ToString τ] {set : Prompts τ} {s t : Session} {f : Failure} {message line : String}

/-- What a line comes to, whether it is logged or not. -/
theorem line_apply (message line : String) (s : Session) :
    (do note .debug message; writeLine line : SessionM Unit) s =
      let t := { s with
        past := (.debug, message) :: s.past
        peer := (s.peer.write (s.settings.wire line)).2 }
      if s.peer.Fits (s.settings.wire line).length then .ok () t else .error peerGone t := by
  rw [line_eq, write_eq]
  simp only [Peer.write_fst, decide_eq_true_eq]
  rfl

theorem happened_of_line_ok
    (h : (do note .debug message; writeLine line : SessionM Unit) s = .ok () t) :
    t.peer.happened = s.peer.happened ++ Event.writing (s.settings.wire line) ∧
      t.settings = s.settings := by
  rw [line_apply] at h
  dsimp only at h
  split at h
  · next hfits =>
    obtain ⟨-, rfl⟩ := EStateM.Result.ok.inj h
    refine ⟨?_, rfl⟩
    rw [Peer.happened_write_eq, if_pos hfits, List.append_nil, Peer.taken_of_fits hfits]
  · cases h

theorem shows_of_line_error
    (h : (do note .debug message; writeLine line : SessionM Unit) s = .error f t) :
    ∃ events, (Attempt.say line).Shows s.settings f events ∧
      t.peer.happened = s.peer.happened ++ events := by
  rw [line_apply] at h
  dsimp only at h
  split at h
  · cases h
  · next hfits =>
    obtain ⟨rfl, rfl⟩ := EStateM.Result.error.inj h
    refine ⟨_, ⟨rfl, _, s.peer.taken_isPrefix _, Peer.taken_ne hfits, rfl⟩, ?_⟩
    rw [Peer.happened_write_eq, if_neg hfits]

/-- What is seen of a wait that has a result. -/
theorem happened_of_listen_ok {found? : Option (Match τ)} (h : listen set s = .ok found? t) :
    (∃ reads, t.peer.happened = s.peer.happened ++ Event.answering s.telnet reads) ∧
      t.settings = s.settings := by
  rw [listen_eq] at h
  obtain ⟨reads, u, htakes, hend⟩ := exists_takesUp_listenFor set s.settings.timeout s
  rw [h] at hend
  obtain ⟨hhappened, hsettings⟩ := hend.of_ok
  exact ⟨⟨reads, hhappened.trans htakes.happened⟩, hsettings.trans htakes.settings⟩

/-- What is seen of a wait that fails. -/
theorem shows_of_listen_error (h : listen set s = .error f t) :
    ∃ events, Attempt.wait.Shows s.settings f events ∧
      t.peer.happened = s.peer.happened ++ events := by
  rw [listen_eq] at h
  obtain ⟨reads, lost, stop, u, htakes, hfails, -, hhappened, -⟩ := exists_fails_listenFor h
  refine ⟨_, ⟨s.telnet, reads, stop, rfl, ?_⟩, ?_⟩
  · rw [← htakes.telnet]
    cases hfails with
    | ended => exact .inl ⟨rfl, rfl⟩
    | fault => exact .inr ⟨rfl, .inl rfl⟩
    | unwritten hpart => exact .inr ⟨rfl, .inr ⟨_, _, hpart, rfl⟩⟩
  · rw [hhappened, htakes.happened, List.append_assoc]

/-- What is seen of a deed. -/
theorem Does.exists_shown {deed : Deed τ} (h : s.Does set deed t) :
    (∃ events, deed.Shows s.settings events ∧ t.peer.happened = s.peer.happened ++ events) ∧
      t.settings = s.settings := by
  cases deed with
  | waited found? =>
    obtain ⟨⟨reads, hhappened⟩, hsettings⟩ := happened_of_listen_ok h
    exact ⟨⟨_, ⟨s.telnet, reads, rfl⟩, hhappened⟩, hsettings⟩
  | said line | whispered line =>
    obtain ⟨hhappened, hsettings⟩ := happened_of_line_ok h
    exact ⟨⟨_, rfl, hhappened⟩, hsettings⟩

/-- What is seen of something that fails. -/
theorem FailsIn.exists_shown {attempt : Attempt} (h : s.FailsIn set attempt f t) :
    ∃ events, attempt.Shows s.settings f events ∧ t.peer.happened = s.peer.happened ++ events := by
  cases attempt with
  | wait => exact shows_of_listen_error h
  | say line | whisper line => exact shows_of_line_error h

/-- **Deeds are seen on the stream one after the other**, and nothing else is. -/
theorem Did.exists_shown {deeds : List (Deed τ)} (h : s.Did set deeds t) :
    (∃ parts, deeds.Forall₂ (Deed.Shows s.settings) parts ∧
      t.peer.happened = s.peer.happened ++ parts.flatten) ∧ t.settings = s.settings := by
  induction h with
  | @done s t hlog =>
    have hpeer : t.peer = s.peer := congrArg (·.peer) hlog
    refine ⟨⟨[], .nil, ?_⟩, congrArg (·.settings) hlog⟩
    rw [hpeer, List.flatten_nil, List.append_nil]
  | @next s s' t u deed deeds hlog hdeed hrest ih =>
    have hpeer : s'.peer = s.peer := congrArg (·.peer) hlog
    have hsettings : s'.settings = s.settings := congrArg (·.settings) hlog
    obtain ⟨⟨events, hshown, ht⟩, ht'⟩ := hdeed.exists_shown
    obtain ⟨⟨parts, hparts, hu⟩, hu'⟩ := ih
    rw [ht', hsettings] at hparts
    rw [hsettings] at hshown
    refine ⟨⟨events :: parts, .cons hshown hparts, ?_⟩, hu'.trans (ht'.trans hsettings)⟩
    rw [hu, ht, hpeer, List.flatten_cons, List.append_assoc]

/-- **All that is done and tried over a session is seen on its stream**, and nothing else is. -/
theorem Went.exists_shown {deeds : List (Deed τ)} {missed? : Option (Attempt × Failure)}
    (h : s.Went set deeds missed? t) :
    ∃ parts last, deeds.Forall₂ (Deed.Shows s.settings) parts ∧
      t.peer.happened = s.peer.happened ++ parts.flatten ++ last ∧
      (missed? = none → last = []) ∧
      ∀ attempt f, missed? = some (attempt, f) → attempt.Shows s.settings f last := by
  match missed? with
  | none =>
    obtain ⟨⟨parts, hparts, ht⟩, -⟩ := Did.exists_shown h
    exact ⟨parts, [], hparts, by rw [ht, List.append_nil], fun _ => rfl, fun _ _ h => by cases h⟩
  | some (attempt, f) =>
    obtain ⟨u, hdid, hfails⟩ := h
    obtain ⟨⟨parts, hparts, hu⟩, hsettings⟩ := hdid.exists_shown
    obtain ⟨last, hshown, ht⟩ := hfails.exists_shown
    rw [hsettings] at hshown
    refine ⟨parts, last, hparts, by rw [ht, hu], fun h => (by cases h), fun _ _ h => ?_⟩
    obtain ⟨rfl, rfl⟩ := Prod.mk.inj (Option.some.inj h)
    exact hshown

end Session

/-! ### Operations of clients -/

namespace ClientM

variable [ToString τ]

/-- An operation does some deeds with a result, or it fails in one of them. What the client
remembers in the one case and in the other does not depend on where it fails. -/
def Performs (set : Prompts τ) (x : ClientM σ α) (c : Client σ) (a : α) (deeds : List (Deed τ))
    (fine broken : σ) : Prop :=
  (∃ t, x c = .ok a ⟨fine, t⟩ ∧ c.session.Did set deeds t) ∨
    ∃ done missed rest f t, deeds = done ++ missed :: rest ∧ x c = .error f ⟨broken, t⟩ ∧
      c.session.Misses set done missed.attempt f t

variable {set : Prompts τ} {c : Client σ}

/-- **What a sequence does.** -/
theorem Performs.bind {x : ClientM σ α} {g : α → ClientM σ β} {a : α} {b : β} {m m' broken : σ}
    {deeds more : List (Deed τ)} (hx : Performs set x c a deeds m broken)
    (hg : ∀ t, Performs set (g a) ⟨m, t⟩ b more m' broken) :
    Performs set (x >>= g) c b (deeds ++ more) m' broken := by
  rcases hx with ⟨t, hx, hdid⟩ | ⟨done, missed, rest, f, t, rfl, hx, hmisses⟩
  · rcases hg t with ⟨u, hg, hdid'⟩ | ⟨done, missed, rest, f, u, rfl, hg, hmisses⟩
    · exact .inl ⟨u, (bind_of_ok hx).trans hg, hdid.trans hdid'⟩
    · refine .inr ⟨deeds ++ done, missed, rest, f, u, (List.append_assoc ..).symm,
        (bind_of_ok hx).trans hg, hdid.misses hmisses⟩
  · refine .inr ⟨done, missed, rest ++ more, f, t, by simp, ?_, hmisses⟩
    rw [bind_apply, hx]

section Parts

variable (set) (c) {broken : σ}

theorem performs_remembered : Performs set remembered c c.memory [] c.memory broken :=
  .inl ⟨c.session, rfl, .done rfl⟩

theorem performs_remember (m : σ) : Performs set (remember m) c () [] m broken :=
  .inl ⟨c.session, rfl, .done rfl⟩

theorem performs_note (level : Level) (message : String) :
    Performs set (note level message) c () [] c.memory broken :=
  .inl ⟨_, rfl, .done rfl⟩

theorem performs_say (line : String) :
    Performs set (say line) c () [.said line] c.memory c.memory := by
  cases h : Session.say line c.session with
  | ok _ t =>
    refine .inl ⟨t, ?_, .single h⟩
    rw [say, talk, h]
  | error f t =>
    refine .inr ⟨[], .said line, [], f, t, rfl, ?_, c.session, .done rfl, h⟩
    rw [say, talk, h]

theorem performs_whisper (line : String) :
    Performs set (whisper line) c () [.whispered line] c.memory c.memory := by
  cases h : Session.whisper line c.session with
  | ok _ t =>
    refine .inl ⟨t, ?_, .single h⟩
    rw [whisper, talk, h]
  | error f t =>
    refine .inr ⟨[], .whispered line, [], f, t, rfl, ?_, c.session, .done rfl, h⟩
    rw [whisper, talk, h]

end Parts

end ClientM

end MudDialogue
