import MudDialogue.Client.Rounds
import MudDialogue.Proofs.Operation

/-!
# Clients side by side

A client deals with its session in four ways only: it logs a message of its own, sends a line, sends
a secret, and waits for a prompt. If each of these comes to the same on two sessions and keeps a
relation between them, then so does everything that is built from them, loops included. Two runs of
a client are compared in this way without following either of them, and what a single run keeps is
the case of a session beside itself.

What is sent is logged, too, but not as a message of the client's own. The two are told apart by how
a message begins or ends, so that the log of a client shows what it sent.

After a failure another relation may hold than before. A client that goes on after a failure only
logs, so programs that do so are compared where the two relations are one.

## Main definitions

* `Operation.Agree`, `Operation.Alike` — two operations come to the same from related states.
* `Operation.Itself` — a state beside itself.
* `Session.IsOwnMessage` — a message is not what is logged of a line that is sent.
* `Session.IsBisimulation` — the four dealings with a session keep a relation.
* `Client.Beside` — two clients remember the same, over related sessions.

## Main results

* `Operation.Alike.of_keeps` — what an operation keeps, as the case of a state beside itself.
* `Session.IsBisimulation.untilDone` — a loop keeps what its rounds keep.
-/

namespace MudDialogue

open Pattern

namespace Operation

variable {ε σ ρ α β : Type} {R : σ → ρ → Prop} {E : ε → σ → ρ → Prop}

/-- Two results are the same value, with related states, or the same failure, with states that are
related as far as the failure leaves them. -/
inductive Agree (R : σ → ρ → Prop) (E : ε → σ → ρ → Prop) :
    EStateM.Result ε σ α → EStateM.Result ε ρ α → Prop where
  | ok {a s t} (h : R s t) : Agree R E (.ok a s) (.ok a t)
  | error {e s t} (h : E e s t) : Agree R E (.error e s) (.error e t)

/-- From related states two operations come to the same. -/
def Alike (R : σ → ρ → Prop) (E : ε → σ → ρ → Prop) (x : EStateM ε σ α) (y : EStateM ε ρ α) :
    Prop :=
  ∀ s t, R s t → Agree R E (x s) (y t)

namespace Alike

variable {x : EStateM ε σ α} {y : EStateM ε ρ α} {f : α → EStateM ε σ β} {g : α → EStateM ε ρ β}

theorem pure (a : α) : Alike R E (Pure.pure a) (Pure.pure a) := fun _ _ h => .ok h

theorem bind (hx : Alike R E x y) (hf : ∀ a, Alike R E (f a) (g a)) :
    Alike R E (x >>= f) (y >>= g) := by
  intro s t h
  have hfirst := hx s t h
  rw [bind_apply, bind_apply]
  generalize x s = r, y t = q at hfirst
  cases hfirst with
  | ok h => exact hf _ _ _ h
  | error h => exact .error h

/-- The states themselves need not be the same. -/
theorem get_bind {f : σ → EStateM ε σ β} {g : ρ → EStateM ε ρ β}
    (h : ∀ s t, R s t → Agree R E (f s s) (g t t)) : Alike R E (get >>= f) (get >>= g) := h

theorem modify {f : σ → σ} {g : ρ → ρ} (h : ∀ s t, R s t → R (f s) (g t)) :
    Alike R E (modify f) (modify g) := fun s t hst => .ok (h s t hst)

theorem tryCatch {E' : ε → σ → ρ → Prop} {handle : ε → EStateM ε σ α} {handle' : ε → EStateM ε ρ α}
    (hx : Alike R E' x y) (hhandle : ∀ e s t, E' e s t → Agree R E (handle e s) (handle' e t)) :
    Alike R E (MonadExcept.tryCatch x handle) (MonadExcept.tryCatch y handle') := by
  intro s t h
  have hfirst := hx s t h
  rw [tryCatch_apply, tryCatch_apply]
  generalize x s = r, y t = q at hfirst
  cases hfirst with
  | ok h => exact .ok h
  | error h => exact hhandle _ _ _ h

end Alike

/-! ### A state beside itself -/

/-- Two states are one and the same, of which something holds. -/
def Itself (P : σ → Prop) (s t : σ) : Prop := s = t ∧ P s

namespace Alike

variable {P : σ → Prop} {Q : ε → σ → Prop} {x : EStateM ε σ α} {s t : σ}

/-- **What an operation keeps.** -/
theorem of_keeps (hok : ∀ {s a t}, P s → x s = .ok a t → P t)
    (herror : ∀ {s e t}, P s → x s = .error e t → Q e t) :
    Alike (Itself P) (fun e => Itself (Q e)) x x := by
  rintro s _ ⟨rfl, hs⟩
  cases hx : x s with
  | ok a t => exact .ok ⟨rfl, hok hs hx⟩
  | error e t => exact .error ⟨rfl, herror hs hx⟩

/-- An operation that keeps something whether it fails or not. -/
theorem of_endState (h : ∀ s, P s → P (endState (x s))) :
    Alike (Itself P) (fun _ : ε => Itself P) x x := by
  have hkeeps {s : σ} {r : EStateM.Result ε σ α} (hs : P s) (hx : x s = r) : P (endState r) :=
    hx ▸ h s hs
  exact of_keeps (fun hs hx => hkeeps hs hx) (fun hs hx => hkeeps hs hx)

end Alike

end Operation

open Operation

namespace Session

/-! ### Messages of a client's own -/

/-- A message is not what is logged of a line or a secret that is sent. -/
def IsOwnMessage (message : String) : Prop :=
  message ≠ "sending <hidden>" ∧ ∀ line, message ≠ "sending " ++ Text.Quoted.quote line

namespace IsOwnMessage

variable {message front back : String}

theorem of_head? (h : message.toList.head? ≠ some 's') : IsOwnMessage message := by
  refine ⟨?_, fun line => ?_⟩
  · rintro rfl
    exact h (by decide)
  · rintro rfl
    rw [String.toList_append] at h
    exact h rfl

theorem of_getLast? (h : message.toList.getLast? ∉ [some '>', some '"']) :
    IsOwnMessage message := by
  refine ⟨?_, fun line => ?_⟩
  · rintro rfl
    exact h (by decide)
  · rintro rfl
    simp only [String.toList_append, Text.Quoted.quote, String.toList_ofList, ← List.append_assoc,
      List.getLast?_concat] at h
    exact h (by decide)

/-- A message that begins in another way. -/
theorem opening (h : front.toList.head? ∉ [none, some 's']) (back : String) :
    IsOwnMessage (front ++ back) := by
  refine of_head? ?_
  rw [String.toList_append, List.head?_append]
  cases hfront : front.toList.head? with
  | none => simp [hfront] at h
  | some c => simpa [hfront] using h

/-- A message that ends in another way. -/
theorem closing (front : String) (h : back.toList.getLast? ∉ [none, some '>', some '"']) :
    IsOwnMessage (front ++ back) := by
  refine of_getLast? ?_
  rw [String.toList_append, List.getLast?_append]
  cases hback : back.toList.getLast? with
  | none => simp [hback] at h
  | some c => simpa [hback] using h

end IsOwnMessage

/-- Whatever a client does with two sessions comes to the same on both of them: it logs a message of
its own, sends one of certain lines, waits for a prompt, or sends its secret, which may be another
one on the second session. The sessions stay related as long as nothing fails. -/
structure IsBisimulation (lines : String → Prop) (secret secret' : String)
    (R : Session → Session → Prop) (E : Failure → Session → Session → Prop) : Prop where
  horizon {s t} (h : R s t) : s.horizon = t.horizon
  note (level : Level) {message : String} (h : IsOwnMessage message) :
    Alike R E (Session.note level message) (Session.note level message)
  say {line : String} (h : lines line) : Alike R E (Session.say line) (Session.say line)
  whisper : Alike R E (Session.whisper secret) (Session.whisper secret')
  listen {τ : Type} [ToString τ] (prompts : Prompts τ) :
    Alike R E (Session.listen prompts) (Session.listen prompts)

end Session

/-- Two clients remember the same, and their sessions are related. -/
structure Client.Beside {σ : Type} (R : Session → Session → Prop) (c d : Client σ) : Prop where
  memory : c.memory = d.memory
  session : R c.session d.session

namespace ClientM

variable {σ ρ α β : Type} {R : Session → Session → Prop} {E : Failure → Session → Session → Prop}

/-- Over related sessions two operations of clients come to the same. -/
abbrev AlikeOver (R : Session → Session → Prop) (E : Failure → Session → Session → Prop)
    (x y : ClientM σ α) : Prop :=
  Alike (Client.Beside R) (fun e => Client.Beside (E e)) x y

theorem alike_talk {x y : SessionM α} (h : Alike R E x y) :
    AlikeOver R E (talk x : ClientM σ α) (talk y) := by
  rintro ⟨m, s⟩ ⟨_, t⟩ ⟨rfl, hst⟩
  have hact := h s t hst
  simp only [talk]
  generalize x s = r, y t = q at hact
  cases hact with
  | ok h => exact .ok ⟨rfl, h⟩
  | error h => exact .error ⟨rfl, h⟩

theorem alike_remembered : AlikeOver R E (remembered : ClientM σ σ) remembered := by
  rintro ⟨m, s⟩ ⟨_, t⟩ ⟨rfl, hst⟩
  exact .ok ⟨rfl, hst⟩

theorem alike_remember (m : σ) : AlikeOver R E (remember m) (remember m) :=
  .modify fun _ _ h => ⟨rfl, h.session⟩

theorem alike_delegate (m : ρ) {x y : ClientM ρ α} (h : AlikeOver R E x y) :
    AlikeOver R E (delegate m x : ClientM σ α) (delegate m y) := by
  rintro ⟨n, s⟩ ⟨_, t⟩ ⟨rfl, hst⟩
  have hact := h ⟨m, s⟩ ⟨m, t⟩ ⟨rfl, hst⟩
  simp only [delegate]
  generalize x ⟨m, s⟩ = r, y ⟨m, t⟩ = q at hact
  cases hact with
  | ok h => exact .ok ⟨rfl, h.session⟩
  | error h => exact .error ⟨rfl, h.session⟩

theorem alike_rounds {x y : ClientM σ (Option α)} (h : AlikeOver R E x y) (n : Nat) :
    AlikeOver R E (rounds x n) (rounds y n) := by
  induction n with
  | zero => exact .pure none
  | succ n ih =>
    refine .bind h fun a? => ?_
    cases a? with
    | some a => exact .pure (some a)
    | none => exact ih

section Itself

variable {P : Session → Prop} {Q : Failure → Session → Prop} {x : ClientM σ α} {c d : Client σ}

/-- What a client keeps of its session. -/
theorem kept_of_ok (h : AlikeOver (Itself P) (fun e => Itself (Q e)) x x) (hc : P c.session) {a : α}
    (hx : x c = .ok a d) : P d.session := by
  have hrun := h c c ⟨rfl, rfl, hc⟩
  rw [hx] at hrun
  cases hrun with
  | ok h => exact h.session.2

theorem kept_of_error (h : AlikeOver (Itself P) (fun e => Itself (Q e)) x x) (hc : P c.session)
    {e : Failure} (hx : x c = .error e d) : Q e d.session := by
  have hrun := h c c ⟨rfl, rfl, hc⟩
  rw [hx] at hrun
  cases hrun with
  | error h => exact h.session.2

/-- What a client keeps whether it fails or not. -/
theorem kept_endState (h : AlikeOver (Itself P) (fun _ => Itself P) x x) (hc : P c.session) :
    P (endState (x c)).session := by
  cases hx : x c with
  | ok a d => exact kept_of_ok h hc hx
  | error e d => exact kept_of_error h hc hx

end Itself

end ClientM

namespace Session.IsBisimulation

open ClientM

variable {σ τ α : Type} {lines : String → Prop} {secret secret' : String}
  {R : Session → Session → Prop} {E : Failure → Session → Session → Prop}

section Dealings

variable (h : IsBisimulation lines secret secret' R E)
include h

theorem note' (level : Level) {message : String} (hmessage : IsOwnMessage message) :
    AlikeOver R E (ClientM.note level message : ClientM σ Unit) (ClientM.note level message) :=
  alike_talk (h.note level hmessage)

theorem say' {line : String} (hline : lines line) :
    AlikeOver R E (ClientM.say line : ClientM σ Unit) (ClientM.say line) :=
  alike_talk (h.say hline)

theorem whisper' :
    AlikeOver R E (ClientM.whisper secret : ClientM σ Unit) (ClientM.whisper secret') :=
  alike_talk h.whisper

theorem listen' [ToString τ] (prompts : Prompts τ) :
    AlikeOver R E (ClientM.listen prompts : ClientM σ (Option (Match τ)))
      (ClientM.listen prompts) :=
  alike_talk (h.listen prompts)

/-- **A loop keeps what its rounds keep.** -/
theorem untilDone {x y : ClientM σ (Option α)} (hround : AlikeOver R E x y) :
    AlikeOver R E (ClientM.untilDone x) (ClientM.untilDone y) := by
  refine .get_bind fun c d hcd => ?_
  rw [h.horizon hcd.session]
  exact alike_rounds hround _ c d hcd

end Dealings

end Session.IsBisimulation

end MudDialogue
