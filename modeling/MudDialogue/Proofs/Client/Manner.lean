import MudDialogue.Proofs.Client.Conforming
import MudDialogue.Proofs.Client.Deeds

/-!
# Clients that react to what they hear

Most clients here are alike: while they have not come to an end they wait, and what the wait came to
tells, with what they remember, which deeds follow and what they remember then. Such a client has a
manner. What it does in its rounds is told by what its waits come to, one after the other, and it
can break off in two places only, in a wait or in an answer.

## Main definitions

* `Manner` — how a client reacts to its waits.
* `Manner.Guides` — a client keeps to its manner.
* `Manner.Advances` — what a wait and the answer to it come to.
* `Manner.Comes` — from where a client comes to where, and what its waits told it on the way.

## Main results

* `Manner.Guides.advances` — a client that keeps to its manner advances so.
* `Manner.Comes.did` — what a client has done when it has come somewhere.
* `Manner.exists_comes` — a loop comes somewhere, and goes no further only if its round does not.
-/

namespace MudDialogue

open Pattern Operation

/-- How a client reacts to what its waits come to. -/
structure Manner (σ τ : Type) where
  /-- The client has not come to an end. -/
  going : σ → Prop
  /-- What it does when a wait is over. -/
  replies : σ → Option (Match τ) → List (Deed τ)
  /-- What it remembers when it has done that. -/
  next : σ → Option (Match τ) → σ
  /-- What it remembers if it fails on the way. -/
  broken : σ → Option (Match τ) → σ

namespace Manner

variable {σ τ α : Type} (b : Manner σ τ)

/-- What a client does in several waits and in answer to each of them. -/
def deeds : σ → List (Option (Match τ)) → List (Deed τ)
  | _, [] => []
  | m, found? :: talk => .waited found? :: (b.replies m found? ++ deeds (b.next m found?) talk)

/-- What a client remembers after several waits. -/
def after (m : σ) (talk : List (Option (Match τ))) : σ := talk.foldl b.next m

theorem after_concat (m : σ) (talk : List (Option (Match τ))) (found? : Option (Match τ)) :
    b.after m (talk ++ [found?]) = b.next (b.after m talk) found? := by
  simp [after]

theorem deeds_concat (m : σ) (talk : List (Option (Match τ))) (found? : Option (Match τ)) :
    b.deeds m (talk ++ [found?]) =
      b.deeds m talk ++ .waited found? :: b.replies (b.after m talk) found? := by
  induction talk generalizing m with
  | nil => simp [deeds, after]
  | cons first talk ih =>
    simp only [List.cons_append, deeds, ih, List.append_assoc]
    rfl

section Rounds

variable [ToString τ]

/-- Whatever a wait came to, the client does the deeds of its manner. -/
def Guides (set : Prompts τ) (react : Option (Match τ) → ClientM σ Unit) : Prop :=
  ∀ found? c, ClientM.Performs set (react found?) c () (b.replies c.memory found?)
    (b.next c.memory found?) (b.broken c.memory found?)

/-- A wait came to something, and the client has done what it does in answer to that. -/
def Answers (set : Prompts τ) (c : Client σ) (found? : Option (Match τ)) (d : Client σ) : Prop :=
  ∃ s, Session.listen set c.session = .ok found? s ∧
    s.Did set (b.replies c.memory found?) d.session ∧ d.memory = b.next c.memory found?

/-- What a wait and the answer to it come to: the answer is complete, or the wait fails, or the
answer does. -/
inductive Advances (set : Prompts τ) (c : Client σ) :
    EStateM.Result Failure (Client σ) Unit → Prop where
  | complete {found? d} (h : b.Answers set c found? d) : Advances set c (.ok () d)
  | deaf {f t} (hlisten : Session.listen set c.session = .error f t) :
      Advances set c (.error f ⟨c.memory, t⟩)
  | mute {found? s done missed rest f t} (hlisten : Session.listen set c.session = .ok found? s)
      (hreplies : b.replies c.memory found? = done ++ missed :: rest)
      (hmisses : s.Misses set done missed.attempt f t) :
      Advances set c (.error f ⟨b.broken c.memory found?, t⟩)

/-- In its rounds a client comes from one state to another; the list tells what its waits came to on
the way. -/
inductive Comes (set : Prompts τ) (x : ClientM σ (Option α)) (c : Client σ) :
    List (Option (Match τ)) → Client σ → Prop where
  | start : Comes set x c [] c
  | round {talk found? d e} (h : Comes set x c talk d) (hgoing : b.going d.memory)
      (hround : x d = .ok none e) (hanswers : b.Answers set d found? e) :
      Comes set x c (talk ++ [found?]) e

variable {b} {set : Prompts τ} {react : Option (Match τ) → ClientM σ Unit}
  {x : ClientM σ (Option α)} {talk : List (Option (Match τ))} {c d : Client σ}

theorem bind_listen_of_ok {β : Type} {found? : Option (Match τ)} {s : Session}
    (h : Session.listen set c.session = .ok found? s) (f : Option (Match τ) → ClientM σ β) :
    (ClientM.listen set >>= f) c = f found? ⟨c.memory, s⟩ := by
  rw [bind_apply, ClientM.listen, ClientM.talk, h]

/-- A client that has waited answers, or it fails in its answer. -/
theorem Guides.answers {found? : Option (Match τ)} {s : Session} (h : b.Guides set react)
    (hlisten : Session.listen set c.session = .ok found? s) :
    (∃ d, (ClientM.listen set >>= react) c = .ok () d ∧ b.Answers set c found? d) ∨
      ∃ done missed rest f t, b.replies c.memory found? = done ++ missed :: rest ∧
        (ClientM.listen set >>= react) c = .error f ⟨b.broken c.memory found?, t⟩ ∧
        s.Misses set done missed.attempt f t := by
  rw [bind_listen_of_ok hlisten]
  rcases h found? ⟨c.memory, s⟩ with ⟨t, hok, hdid⟩ | hfails
  · exact .inl ⟨_, hok, s, hlisten, hdid, rfl⟩
  · exact .inr hfails

/-- **A client that keeps to its manner advances so.** -/
theorem Guides.advances (h : b.Guides set react) (c : Client σ) :
    b.Advances set c ((ClientM.listen set >>= react) c) := by
  cases hlisten : Session.listen set c.session with
  | error f t =>
    rw [bind_apply, ClientM.listen, ClientM.talk, hlisten]
    exact .deaf hlisten
  | ok found? s =>
    rcases h.answers hlisten with ⟨d, hok, hanswers⟩ | ⟨_, _, _, f, t, hreplies, herror, hmisses⟩
    · rw [hok]
      exact .complete hanswers
    · rw [herror]
      exact .mute hlisten hreplies hmisses

/-- **What a client has done when it has come somewhere.** -/
theorem Comes.did (h : b.Comes set x c talk d) :
    c.session.Did set (b.deeds c.memory talk) d.session ∧ d.memory = b.after c.memory talk := by
  induction h with
  | start => exact ⟨.done rfl, rfl⟩
  | round h hgoing hround hanswers ih =>
    obtain ⟨hdid, hmemory⟩ := ih
    obtain ⟨s, hlisten, hreplies, hnext⟩ := hanswers
    rw [b.deeds_concat, b.after_concat, ← hmemory]
    exact ⟨hdid.trans (.next rfl hlisten hreplies), hnext⟩

theorem Comes.leads (h : b.Comes set x c talk d) : ClientM.Leads x c d := by
  induction h with
  | start => exact .refl x c
  | round h hgoing hround hanswers ih => exact ih.trans (.of_round hround)

/-- **A loop comes somewhere.** It goes no further only if the next round does not, or if it may go
round no more. -/
theorem exists_comes (hround : ∀ {d e}, x d = .ok none e →
      b.going d.memory ∧ ∃ found?, b.Answers set d found? e) (n : Nat) (c : Client σ) :
    ∃ talk d, b.Comes set x c talk d ∧ (ClientM.rounds x n c = .ok none d ∨
      ClientM.rounds x n c = x d ∧ ∀ e, x d ≠ .ok none e) := by
  have hkeeps {d e : Client σ} (h : ∃ talk, b.Comes set x c talk d) (he : x d = .ok none e) :
      ∃ talk, b.Comes set x c talk e := by
    obtain ⟨talk, h⟩ := h
    obtain ⟨hgoing, found?, hanswers⟩ := hround he
    exact ⟨_, h.round hgoing he hanswers⟩
  rcases ClientM.rounds_last hkeeps (n := n) ⟨[], .start⟩ with
    ⟨d, hnone, talk, h⟩ | ⟨d, a, e, ⟨talk, h⟩, hlast, hrounds⟩ |
      ⟨d, f, e, ⟨talk, h⟩, hlast, hrounds⟩
  · exact ⟨talk, d, h, .inl hnone⟩
  · exact ⟨talk, d, h, .inr ⟨hrounds.trans hlast.symm, fun e' he => by cases hlast.symm.trans he⟩⟩
  · exact ⟨talk, d, h, .inr ⟨hrounds.trans hlast.symm, fun e' he => by cases hlast.symm.trans he⟩⟩

end Rounds

end Manner

end MudDialogue
