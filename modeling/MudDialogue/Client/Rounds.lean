import MudDialogue.Session.Basic

/-!
# Programs that talk in rounds

A client talks to the server in rounds: it waits for a prompt, answers it, and starts over until it
is done. Between rounds it remembers something of its own. This file gives the monad of such
programs and their loop.

A loop need not end by itself: a client that never waits can go round for ever while the server is
silent and takes whatever it is told. But every other round that goes on has consumed some output,
waited for some time, or used up some of what the server will take, and there is only so much of
each (`Session.horizon`); a loop that has not ended after that many rounds never ends. The result of
a loop is empty in that case.
-/

namespace MudDialogue

/-- A session in the hands of a client, with what the client remembers. -/
structure Client (σ : Type) where
  /-- What the client remembers. -/
  memory : σ
  /-- The session that it talks over. -/
  session : Session

/-- An operation of a client. A failure keeps the memory and the session. -/
abbrev ClientM (σ : Type) := EStateM Failure (Client σ)

/-- A bound on the number of rounds that a client can go on with: all output that can still be
consumed, counted in bytes of cleaned text, all time that can still be waited for, and all bytes
that the server will still take, if there is a limit. A byte that is read makes at most three bytes
of text, and what is held back between reads at most four. -/
def Session.horizon (s : Session) : Nat :=
  s.backlog.content.length + 3 * s.peer.unread + 4 + (s.peer.closesAt - s.peer.clock) +
    s.peer.room?.getD 0 + 2

namespace ClientM

variable {σ τ α : Type}

/-- Does something with the session. -/
def talk (act : SessionM α) : ClientM σ α := fun client =>
  match act client.session with
  | .ok a session => .ok a { client with session }
  | .error e session => .error e { client with session }

/-- What the client remembers. -/
def remembered : ClientM σ σ := do return (← get).memory

/-- Remembers something else. -/
def remember (m : σ) : ClientM σ Unit := modify fun client => { client with memory := m }

/-- Lets another client do something over the same session; its memory is lost with it. -/
def delegate (m : τ) (act : ClientM τ α) : ClientM σ α := fun client =>
  match act ⟨m, client.session⟩ with
  | .ok a inner => .ok a { client with session := inner.session }
  | .error e inner => .error e { client with session := inner.session }

/-- Goes round at most `n` times, until a round has a result. -/
def rounds (round : ClientM σ (Option α)) : Nat → ClientM σ (Option α)
  | 0 => return none
  | n + 1 => do
    match ← round with
    | some a => return some a
    | none => rounds round n

/-- Goes round until a round has a result. -/
def untilDone (round : ClientM σ (Option α)) : ClientM σ (Option α) := do
  rounds round (← get).session.horizon

/-- Logs a message. -/
def note (level : Level) (message : String) : ClientM σ Unit := talk (Session.note level message)

/-- Sends a line. -/
def say (line : String) : ClientM σ Unit := talk (Session.say line)

/-- Sends a line that must not be logged. -/
def whisper (line : String) : ClientM σ Unit := talk (Session.whisper line)

/-- Waits for one of several prompts. -/
def listen [ToString τ] (set : Pattern.Prompts τ) : ClientM σ (Option (Pattern.Match τ)) :=
  talk (Session.listen set)

end ClientM

/-- A question of the server. It counts only at the very end of what was received. -/
def question (text : String) : Pattern.Regex := .cat (.literal text) (.look .textEnd)

/-- The question with which the server asks for a command or a choice from a menu. -/
def menu : Pattern.Regex := question "> "

end MudDialogue
