import MudDialogue.Proofs.Client.Ending
import MudDialogue.Proofs.Session.Elapsing

/-!
# Walks that never end

Unlike the other dialogues a walk goes on when the server is silent, so it may never end. That
happens only if a wait takes no time, the server takes whatever it is sent, and nothing it says is
left to be heard. As long as one of these fails a round uses up output, time or room, and the bound
on the rounds of a loop is chosen so that all of them are used up before it: a walk without a result
is one that goes on for ever, and no walk is cut off by the bound.

## Main definitions

* `ClientM.Endless` — a loop goes on for ever.
* `Wander.Idle` — a walk on which nothing will ever happen.

## Main results

* `Wander.endless_of_run` — a walk without a result goes on for ever.
* `Wander.run_of_rounds` — a walk that ends after any number of rounds ends so.
-/

namespace MudDialogue

open Pattern ClientM Operation Session

namespace ClientM

variable {σ α : Type} {x : ClientM σ (Option α)} {c d : Client σ}

/-- However often a loop goes round, no round has a result. -/
def Endless (x : ClientM σ (Option α)) (c : Client σ) : Prop := ∀ n, ∃ d, rounds x n c = .ok none d

theorem Endless.of_round (h : x c = .ok none d) (hd : Endless x d) : Endless x c := by
  rintro (_ | n)
  · exact ⟨c, rfl⟩
  · obtain ⟨e, he⟩ := hd n
    exact ⟨e, (rounds_succ h n).trans he⟩

/-- A loop goes on for ever if every round leaves what makes the next one go on. -/
theorem endless_of_keeps {Q : Client σ → Prop} (hround : ∀ {c}, Q c → ∃ d, x c = .ok none d ∧ Q d)
    (hc : Q c) : Endless x c := by
  intro n
  induction n generalizing c with
  | zero => exact ⟨c, rfl⟩
  | succ n ih =>
    obtain ⟨d, hd, hkeeps⟩ := hround hc
    obtain ⟨e, he⟩ := ih hkeeps
    exact ⟨e, (rounds_succ hd n).trans he⟩

end ClientM

/-! ### What is left to a session -/

namespace Session

variable {s : Session} {n : Nat}

/-- All output, time and room that is left. -/
def left (s : Session) : Nat := s.supply + s.ahead

theorem left_lt_horizon (s : Session) : s.left < s.horizon := by
  have hheld := Terminal.held_le s.backlog.mode
  simp only [left, supply, Backlog.supply, ahead, horizon]
  omega

/-- A session of a program that has at most so much left. -/
structure Within (n : Nat) (s : Session) : Prop where
  sound : s.Sound
  left_le : s.left ≤ n

theorem Sound.within (h : s.Sound) : s.Within s.left := ⟨h, Nat.le_refl _⟩

/-- What adds nothing to the supply and leads onward adds nothing to what is left. -/
theorem alike_within {α : Type} {x : SessionM α}
    (hsupply : ∀ n, Alike (Itself (Supplied n)) (fun _ => Itself (Supplied n)) x x)
    (honward : ∀ start, Alike (Itself (Onward start)) (fun _ => Itself fun _ => True) x x)
    (n : Nat) : Alike (Itself (Within n)) (fun _ => Itself fun _ => True) x x := by
  refine .of_keeps (fun {s a t} hs hx => ?_) fun _ _ => trivial
  obtain ⟨⟨hreachable, horderly⟩, hle⟩ := hs
  have hsupplied := hsupply s.supply s s ⟨rfl, hreachable, Nat.le_refl _⟩
  have honward := honward s s s ⟨rfl, Orderly.onward horderly⟩
  rw [hx] at hsupplied honward
  cases hsupplied with
  | ok ht =>
    cases honward with
    | ok ht' =>
      refine ⟨⟨ht.2.reachable, ht'.2.orderly⟩, ?_⟩
      exact Nat.le_trans (Nat.add_le_add ht.2.supply_le ht'.2.ahead_le) hle

/-- **Nothing that is done with a session adds to what is left.** -/
theorem isBisimulation_within (n : Nat) (secret : String) :
    IsBisimulation (fun _ => True) secret secret (Itself (Within n))
      fun _ => Itself fun _ => True where
  horizon := by
    rintro s _ ⟨rfl, -⟩
    rfl
  note level _ hown := alike_within (fun n => (isBisimulation_supplied n secret).note level hown)
    (fun start => (isBisimulation_onward start secret).note level hown) n
  say hline := alike_within (fun n => (isBisimulation_supplied n secret).say hline)
    (fun start => (isBisimulation_onward start secret).say hline) n
  whisper := alike_within (fun n => (isBisimulation_supplied n secret).whisper)
    (fun start => (isBisimulation_onward start secret).whisper) n
  listen prompts := alike_within (fun n => (isBisimulation_supplied n secret).listen prompts)
    (fun start => (isBisimulation_onward start secret).listen prompts) n

end Session

namespace ClientM

variable {σ τ α : Type} {c d : Client σ}

/-- What keeps every bound on what is left adds nothing to it. -/
theorem left_of_alike {x : ClientM σ α}
    (hx : ∀ n, AlikeOver (Itself (Within n)) (fun _ => Itself fun _ => True) x x)
    (hc : c.session.Sound) {a : α} (h : x c = .ok a d) :
    d.session.Sound ∧ d.session.left ≤ c.session.left := by
  have hd : d.session.Within c.session.left := kept_of_ok (hx _) hc.within h
  exact ⟨hd.sound, hd.left_le⟩

/-- A prompt that is heard uses up some of what is left. -/
theorem left_of_heard [ToString τ] {set : Prompts τ} (hset : set.TakesUp) (hc : c.session.Sound)
    {found : Match τ} (h : listen set c = .ok (some found) d) :
    d.session.Sound ∧ d.session.left < c.session.left := by
  have honward : c.session.Onward d.session :=
    kept_of_ok ((isBisimulation_onward c.session "").listen' set) hc.orderly.onward h
  obtain ⟨hreachable, hless⟩ := supply_of_heard hset hc.reachable h
  exact ⟨⟨hreachable, honward.orderly⟩, Nat.add_lt_add_of_lt_of_le hless honward.ahead_le⟩

end ClientM

/-- A login leaves the session of a program as one. -/
theorem Login.sound_of_run {c : Credentials} {client d : Client Login.Stage}
    {stage? : Option Login.Stage} (hc : client.session.Sound) (h : run c client = .ok stage? d) :
    d.session.Sound :=
  (left_of_alike
    (fun n => alike_run (isBisimulation_within n c.password.reveal) fun _ _ => trivial) hc h).1

/-! ### Wandering about -/

namespace Wander

variable {limit? : Option Nat} {c d e : Client Walk}

theorem opensWith_prompts : prompts.OpensWith 2 := by
  refine ⟨Backlog.isPlain_prompts.2.2.2, fun p hp => ?_⟩
  obtain rfl := List.mem_singleton.mp hp
  exact ⟨"Exits:", _, by decide, rfl⟩

theorem takesUp_prompts : prompts.TakesUp := opensWith_prompts.takesUp Nat.two_pos

/-- Nothing will ever happen: a wait takes no time, nothing is left to be heard, the server takes
whatever it is sent, and the client has not gone far enough. -/
structure Idle (limit? : Option Nat) (c : Client Walk) : Prop where
  deaf : c.session.Deaf prompts
  room : c.session.peer.room? = none
  not_far : ¬ limit?.any (· ≤ c.memory.moves)

/-- A round without a result: the client advanced. -/
theorem advance_of_round (h : round limit? c = .ok none d) :
    ¬ limit?.any (· ≤ c.memory.moves) ∧ advance c = .ok () d := by
  rw [round_apply] at h
  split at h
  · cases h
  · refine ⟨‹_›, ?_⟩
    cases hadvance : advance c with
    | ok _ e =>
      rw [hadvance] at h
      obtain ⟨-, rfl⟩ := EStateM.Result.ok.inj h
      rfl
    | error f e =>
      rw [hadvance] at h
      dsimp only [afterFailure] at h
      cases hclosed : f.isClosed <;> rw [hclosed] at h <;> cases h

theorem round_of_advance (hfar : ¬ limit?.any (· ≤ c.memory.moves)) (h : advance c = .ok () d) :
    round limit? c = .ok none d := by
  rw [round_apply, if_neg hfar, h]

/-- What the client does when it looks around. -/
theorem lookAgain_apply (reason : String) (c : Client Walk) :
    lookAgain reason c = match Session.say look { c.session with
        past := (.debug, reason ++ ", looking again") :: c.session.past } with
      | .ok _ t => .ok () ⟨{ c.memory with looks := c.memory.looks + 1 }, t⟩
      | .error f t => .error f ⟨c.memory, t⟩ := by
  unfold lookAgain
  rw [bind_apply]
  change (ClientM.say look >>= _) _ = _
  rw [bind_apply]
  unfold ClientM.say talk
  dsimp only
  cases Session.say look _ <;> rfl

theorem advance_of_silence {t : Session} (h : Session.listen prompts c.session = .ok none t) :
    advance c = lookAgain "no exit list" ⟨c.memory, t⟩ := by
  rw [advance, bind_apply]
  unfold ClientM.listen talk
  rw [h]

/-- **On an idle walk nothing happens.** -/
theorem Idle.round (h : Idle limit? c) : ∃ d, round limit? c = .ok none d ∧ Idle limit? d := by
  obtain ⟨t, hlisten, hlog⟩ := h.deaf.listen
  obtain ⟨v, hsay, hroom⟩ := exists_line_of_room (s := { t with past := _ :: t.past })
    ((congrArg (·.peer.room?) hlog).trans h.room) ("sending " ++ Text.Quoted.quote look) look
  have hlook := (advance_of_silence hlisten).trans (lookAgain_apply _ _)
  rw [Session.say, hsay] at hlook
  refine ⟨_, round_of_advance h.not_far hlook, (h.deaf.of_unlogged ?_).of_line hsay, hroom, h.not_far⟩
  exact hlog

/-- Looking around leaves everything else that the client remembers as it is. -/
theorem say_of_lookAgain {reason : String} (h : lookAgain reason c = .ok () d) :
    Session.say look { c.session with
      past := (.debug, reason ++ ", looking again") :: c.session.past } = .ok () d.session ∧
      d.memory.moves = c.memory.moves := by
  rw [lookAgain_apply] at h
  split at h
  · obtain ⟨-, rfl⟩ := EStateM.Result.ok.inj h
    exact ⟨‹_›, rfl⟩
  · cases h

/-- **Every round uses up something**, or nothing will ever happen. -/
theorem left_of_round (hc : c.session.Sound) (h : round limit? c = .ok none d) :
    (d.session.Sound ∧ d.session.left < c.session.left) ∨ Idle limit? d := by
  obtain ⟨hfar, h⟩ := advance_of_round h
  obtain ⟨found?, e, hlisten, hrest⟩ := exists_of_bind_ok h
  cases found? with
  | some found =>
    obtain ⟨he, hless⟩ := left_of_heard takesUp_prompts hc hlisten
    obtain ⟨hd, hle⟩ := left_of_alike (fun n => alike_leave (isBisimulation_within n "")
      (fun _ _ => trivial) (ExitLine.read found)) he hrest
    exact .inl ⟨hd, Nat.lt_of_le_of_lt hle hless⟩
  | none =>
    obtain ⟨hsilent, hmemory⟩ := of_talk_ok hlisten
    obtain ⟨hsay, hmoves⟩ := say_of_lookAgain hrest
    obtain ⟨hd, -⟩ := left_of_alike (fun n => alike_advance (isBisimulation_within n "")
      fun _ _ => trivial) hc h
    have hsupply := (supply_of_alike (fun n => alike_advance (isBisimulation_supplied n "")
      fun _ _ => trivial) hc.reachable h).2
    rcases ahead_lt_or_deaf_of_line hc.orderly hsilent (by rfl) hsay (by decide) with
      hless | ⟨hdeaf, hroom⟩
    · exact .inl ⟨hd, Nat.add_lt_add_of_le_of_lt hsupply hless⟩
    · exact .inr ⟨hdeaf, hroom, by rwa [hmoves, hmemory]⟩

/-- **A walk without a result goes on for ever.** -/
theorem endless_of_run (hc : c.session.Sound) (h : run limit? c = .ok none d) :
    Endless (round limit?) ⟨.start c.memory.source, c.session⟩ := by
  have hround {c d : Client Walk} (hc : c.session.Sound) (h : round limit? c = .ok none d) :
      (d.session.Sound ∧ d.session.left < c.session.left) ∨ Endless (round limit?) d :=
    (left_of_round hc h).imp_right (endless_of_keeps Idle.round)
  exact of_rounds_none (c := ⟨.start c.memory.source, c.session⟩) hround .of_round hc
    (left_lt_horizon _) h

/-- **A walk is not cut off.** If it is over after any number of rounds, this is how it ends. -/
theorem run_of_rounds (hc : c.session.Sound) {n : Nat}
    (h : ∀ d, rounds (round limit?) n ⟨.start c.memory.source, c.session⟩ ≠ .ok none d) :
    run limit? c = rounds (round limit?) n ⟨.start c.memory.source, c.session⟩ := by
  have hover (d : Client Walk) : run limit? c ≠ .ok none d := fun hrun => by
    obtain ⟨e, he⟩ := endless_of_run hc hrun n
    exact h e he
  exact rounds_eq_rounds (m := c.session.horizon) hover h

end Wander

end MudDialogue
