import MudDialogue.Proofs.Client.Bisimulation
import MudDialogue.Proofs.Session.Waiting

/-!
# The calls behind a session

Whatever a client does, its session comes from the one that it started with by some calls, made one
after the other: it said a line, whispered its secret, waited for a prompt, or logged a message of
its own. The session is meant with everything that it holds, the log included. What is said stands
in the log, what is whispered does not, and no message of the client's own looks like either; so the
lines that a client may say and the only thing that it may whisper are told from its text alone,
however long it talks and whatever it hears.

## Main definitions

* `Session.MadeBy` — a session comes from another one by calls for certain lines and a secret.
* `Session.Noted` — a session comes from another one by messages for the log alone.

## Main results

* `Session.isBisimulation_madeBy` — whatever is done with a session, there are calls behind it.
-/

namespace MudDialogue.Session

open Pattern Operation

/-- The sessions that come from one by calls that say one of the lines, whisper the secret, wait for
a prompt, or log a message of the client's own. A call may fail. -/
inductive MadeBy (lines : List String) (secret : String) (start : Session) : Session → Prop where
  | refl : MadeBy lines secret start start
  | say {s : Session} {line : String} (h : MadeBy lines secret start s) (hline : line ∈ lines) :
      MadeBy lines secret start (endState (Session.say line s))
  | whisper {s : Session} (h : MadeBy lines secret start s) :
      MadeBy lines secret start (endState (Session.whisper secret s))
  | listen {s : Session} {τ : Type} [ToString τ] (h : MadeBy lines secret start s)
      (prompts : Prompts τ) : MadeBy lines secret start (endState (Session.listen prompts s))
  | note {s : Session} {message : String} (h : MadeBy lines secret start s) (level : Level)
      (hown : IsOwnMessage message) :
      MadeBy lines secret start (endState (Session.note level message s))

/-- The sessions that come from one by logging messages of the client's own. -/
inductive Noted (start : Session) : Session → Prop where
  | refl : Noted start start
  | note {s : Session} {message : String} (h : Noted start s) (level : Level)
      (hown : IsOwnMessage message) : Noted start (endState (Session.note level message s))

variable {lines : List String} {secret : String} {start s t : Session}

/-- Nothing else has changed. -/
theorem Noted.unlogged_eq (h : Noted s t) : t.unlogged = s.unlogged := by
  induction h with
  | refl => rfl
  | note h level hown ih => exact ih

theorem Noted.peer_eq (h : Noted s t) : t.peer = s.peer := by
  have hpeer : t.unlogged.peer = s.unlogged.peer := by rw [h.unlogged_eq]
  exact hpeer

theorem Noted.trans (h : Noted start s) (hst : Noted s t) : Noted start t := by
  induction hst with
  | refl => exact h
  | note hst level hown ih => exact ih.note level hown

theorem MadeBy.noted (h : MadeBy lines secret start s) (hst : Noted s t) :
    MadeBy lines secret start t := by
  induction hst with
  | refl => exact h
  | note hst level hown ih => exact ih.note level hown

/-- **Whatever is done with a session, there are calls behind it.** -/
theorem isBisimulation_madeBy (lines : List String) (secret : String) (start : Session) :
    IsBisimulation (· ∈ lines) secret secret (Itself (MadeBy lines secret start))
      fun _ => Itself (MadeBy lines secret start) where
  horizon := by
    rintro s _ ⟨rfl, -⟩
    rfl
  note level _ hown := .of_endState fun _ h => h.note level hown
  say hline := .of_endState fun _ h => h.say hline
  whisper := .of_endState fun _ h => h.whisper
  listen prompts := .of_endState fun _ h => h.listen prompts

end MudDialogue.Session
