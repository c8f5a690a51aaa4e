import MudDialogue.Proofs.Backlog.Trimming
import MudDialogue.Proofs.Client.SideBySide
import MudDialogue.Proofs.Session.Supply
import MudDialogue.Proofs.Signup.Attribution

/-!
# Dialogues that come to an end

A dialogue goes on only while prompts are recognised, and each of them uses up some of the output
that there is. So a login and the dialogues for an account end, in a result or a failure, before
their loops have gone round as often as they may: that loops are bounded is not to be seen in what
they come to.

## Main results

* `ClientM.untilDone_turn_ne_none` — a loop that ends when the server is silent comes to an end.
* `Login.run_ne_none`, `Signup.createOne_ne_none` — so do a login and the dialogues for an account.
-/

namespace MudDialogue

open Pattern ClientM Operation Session

/-- A client over a session of a program. -/
def Client.Reachable {σ : Type} (c : Client σ) : Prop := c.session.backlog.Reachable

namespace ClientM

variable {σ τ α : Type} [ToString τ] {set : Prompts τ} {c d : Client σ}

theorem supplied_supply (hc : c.Reachable) : c.session.Supplied c.session.supply :=
  ⟨hc, Nat.le_refl _⟩

/-- What was done with the session has left the client with what it remembers. -/
theorem of_talk_ok {act : SessionM α} {a : α} (h : talk act c = .ok a d) :
    act c.session = .ok a d.session ∧ d.memory = c.memory := by
  unfold talk at h
  cases hact : act c.session with
  | error e t =>
    rw [hact] at h
    cases h
  | ok b t =>
    rw [hact] at h
    obtain ⟨rfl, rfl⟩ := EStateM.Result.ok.inj h
    exact ⟨rfl, rfl⟩

/-- A prompt that is heard uses up some of what is left. -/
theorem supply_of_heard (hset : set.TakesUp) (hc : c.Reachable) {found : Match τ}
    (h : listen set c = .ok (some found) d) :
    d.Reachable ∧ d.session.supply < c.session.supply := by
  have hspends := spends_listen set (supplied_supply hc)
  rw [(of_talk_ok h).1] at hspends
  exact ⟨hspends.1.reachable, hspends.2 hset⟩

/-- What keeps every bound on the supply does not add to it. -/
theorem supply_of_alike {x : ClientM σ α}
    (hx : ∀ n, AlikeOver (Itself (Supplied n)) (fun _ => Itself (Supplied n)) x x)
    (hc : c.Reachable) {a : α} (h : x c = .ok a d) :
    d.Reachable ∧ d.session.supply ≤ c.session.supply := by
  have hd : d.session.Supplied c.session.supply := kept_of_ok (hx _) (supplied_supply hc) h
  exact ⟨hd.reachable, hd.supply_le⟩

/-- **A loop that ends when the server is silent comes to an end.** -/
theorem untilDone_turn_ne_none (hset : set.TakesUp) {answer : τ → ClientM σ (Option α)}
    {silence : ClientM σ (Option α)}
    (hanswer : ∀ n p, AlikeOver (Itself (Supplied n)) (fun _ => Itself (Supplied n))
      (answer p) (answer p))
    (hsilence : ∀ c d, silence c ≠ .ok none d) (hc : c.Reachable) :
    untilDone (turn set answer silence) c ≠ .ok none d := by
  have hround {c d : Client σ} (hc : c.Reachable) (h : turn set answer silence c = .ok none d) :
      d.Reachable ∧ d.session.supply < c.session.supply := by
    rcases turn_ok h with ⟨found, e, hlisten, hfound⟩ | ⟨e, -, hsilent⟩
    · obtain ⟨he, hless⟩ := supply_of_heard hset hc hlisten
      obtain ⟨hd, hle⟩ := supply_of_alike (hanswer · found.tag) he hfound
      exact ⟨hd, Nat.lt_of_le_of_lt hle hless⟩
    · exact absurd hsilent (hsilence e d)
  exact rounds_ne_none hround hc (Nat.lt_of_succ_lt (supply_succ_lt_horizon c.session))

end ClientM

/-! ### Logging in -/

namespace Login

theorem opensWith_prompts : prompts.OpensWith 2 := by
  refine ⟨Backlog.isPlain_prompts.1, fun p hp => ?_⟩
  simp only [prompts, List.mem_cons, List.not_mem_nil, or_false] at hp
  obtain rfl | rfl | rfl | rfl | rfl := hp
  · exact ⟨"already online", [], by decide, rfl⟩
  · exact ⟨"User not found", [], by decide, rfl⟩
  · exact ⟨"Username: ", [.look .textEnd], by decide, rfl⟩
  · exact ⟨"Password: ", [.look .textEnd], by decide, rfl⟩
  · exact ⟨"> ", [.look .textEnd], by decide, rfl⟩

theorem takesUp_prompts : prompts.TakesUp := opensWith_prompts.takesUp Nat.two_pos

/-- What is left to a login: nothing if it is over, else all output and one silence. -/
def left (client : Client Stage) : Nat :=
  if client.memory.isOver then 0 else client.session.supply + 1

variable {c : Credentials} {client d : Client Stage}

theorem left_le (client : Client Stage) : left client ≤ client.session.supply + 1 := by
  unfold left
  split_ifs
  · exact Nat.zero_le _
  · exact Nat.le_refl _

/-- Every prompt and every silence uses up something. -/
theorem left_of_advance (hc : client.Reachable) (h : advance c client = .ok () d) :
    d.Reachable ∧ left d < client.session.supply + 1 := by
  have hkeeps (n : Nat) : AlikeOver (Itself (Supplied n)) (fun _ => Itself (Supplied n))
      (advance c) (advance c) :=
    alike_advance (isBisimulation_supplied n c.password.reveal) fun _ _ => trivial
  refine ⟨(supply_of_alike hkeeps hc h).1, ?_⟩
  obtain ⟨found?, e, hlisten, h⟩ := exists_of_bind_ok h
  cases found? with
  | some found =>
    obtain ⟨he, hless⟩ := supply_of_heard takesUp_prompts hc hlisten
    obtain ⟨-, hle⟩ := supply_of_alike (fun n => alike_answer
      (isBisimulation_supplied n c.password.reveal) (fun _ _ => trivial) found.tag) he h
    have hleft := left_le d
    omega
  | none =>
    obtain ⟨_, _, -, h⟩ := exists_of_bind_ok h
    obtain ⟨_, _, -, h⟩ := exists_of_bind_ok h
    obtain ⟨-, rfl⟩ := EStateM.Result.ok.inj h
    exact Nat.succ_pos _

/-- **A login comes to an end.** -/
theorem run_ne_none (hc : client.Reachable) : run c client ≠ .ok none d := by
  have hround {client d : Client Stage} (hc : client.Reachable)
      (h : round c client = .ok none d) : d.Reachable ∧ left d < left client := by
    obtain ⟨stage, client', hstage, h⟩ := exists_of_bind_ok h
    obtain ⟨rfl, rfl⟩ := EStateM.Result.ok.inj hstage
    cases hover : client.memory.isOver with
    | true =>
      rw [if_pos hover] at h
      cases (eq_of_pure_ok h).1
    | false =>
      have hleft : left client = client.session.supply + 1 :=
        if_neg (by rw [hover]; exact Bool.false_ne_true)
      rw [if_neg (by simp [hover])] at h
      obtain ⟨_, e, hadvance, h⟩ := exists_of_bind_ok h
      obtain ⟨-, rfl⟩ := eq_of_pure_ok h
      rw [hleft]
      exact left_of_advance hc hadvance
  intro h
  obtain ⟨_, e, hnote, h⟩ := exists_of_bind_ok h
  have he : e.Reachable :=
    (supply_of_alike (fun n => (isBisimulation_supplied n "").note' _ (.opening (by decide) _)) hc
      hnote).1
  have hleft : left e < e.session.horizon :=
    Nat.lt_of_le_of_lt (left_le e) (supply_succ_lt_horizon e.session)
  exact rounds_ne_none hround he hleft h

end Login

/-! ### Creating accounts -/

namespace Signup

variable {b : Batch} {username : String}

theorem opensWith_accountPrompts : accountPrompts.OpensWith 2 := by
  refine ⟨Backlog.isPlain_prompts.2.1, fun p hp => ?_⟩
  simp only [accountPrompts, List.mem_cons, List.not_mem_nil, or_false] at hp
  obtain rfl | rfl | rfl | rfl | rfl := hp
  · exact ⟨"unavailable", [], by decide, rfl⟩
  · exact ⟨"Desired username", [], by decide, rfl⟩
  · exact ⟨"Desired password", [], by decide, rfl⟩
  · exact ⟨"Confirm password", [], by decide, rfl⟩
  · exact ⟨"> ", [.look .textEnd], by decide, rfl⟩

theorem takesUp_accountPrompts : accountPrompts.TakesUp :=
  opensWith_accountPrompts.takesUp Nat.two_pos

theorem opensWith_characterPrompts : characterPrompts.OpensWith 2 := by
  refine ⟨Backlog.isPlain_prompts.2.2.1, fun p hp => ?_⟩
  simp only [characterPrompts, List.mem_cons, List.not_mem_nil, or_false] at hp
  obtain rfl | rfl := hp
  · exact ⟨"Desired character name", [], by decide, rfl⟩
  · exact ⟨"> ", [.look .textEnd], by decide, rfl⟩

theorem takesUp_characterPrompts : characterPrompts.TakesUp :=
  opensWith_characterPrompts.takesUp Nat.two_pos

/-- What is done when the server stops answering after the account was created. -/
def abandonCharacter (username : String) : ClientM Stage (Option Fate) := do
  note .warn ("timed out creating character for " ++ username ++ " in state " ++
    (← remembered).label)
  return some .abandoned

theorem characterRound_eq (username : String) :
    characterRound username =
      turn characterPrompts (answerCharacter username) (abandonCharacter username) := by
  unfold characterRound ClientM.turn
  congr 1
  funext found?
  cases found? <;> rfl

theorem abandonCharacter_ok {r : Option Fate} {c d : Client Stage}
    (h : abandonCharacter username c = .ok r d) : r = some .abandoned := by
  obtain ⟨_, _, _, h⟩ := exists_of_bind_ok h
  obtain ⟨_, _, _, h⟩ := exists_of_bind_ok h
  exact (eq_of_pure_ok h).1.symm

theorem untilDone_accountRound_ne_none {c d : Client Stage} (hc : c.Reachable) :
    untilDone (accountRound b username) c ≠ .ok none d := by
  rw [accountRound_eq]
  refine untilDone_turn_ne_none takesUp_accountPrompts (fun n p => ?_) (fun c d h => ?_) hc
  · exact alike_answerAccount (isBisimulation_supplied n b.password.reveal) (fun _ _ => trivial) p
  · cases abandonAccount_ok h

theorem untilDone_characterRound_ne_none {c d : Client Stage} (hc : c.Reachable) :
    untilDone (characterRound username) c ≠ .ok none d := by
  rw [characterRound_eq]
  refine untilDone_turn_ne_none takesUp_characterPrompts (fun n p => ?_) (fun c d h => ?_) hc
  · exact alike_answerCharacter (isBisimulation_supplied n "") (fun _ _ => trivial) p
  · cases abandonCharacter_ok h

/-- **The dialogues for an account come to an end.** -/
theorem createOne_ne_none {c d : Client Stage} (hc : c.Reachable) :
    createOne b username c ≠ .ok none d := by
  intro h
  obtain ⟨_, c₁, hstart, h⟩ := exists_of_bind_ok h
  obtain rfl : ⟨.start, c.session⟩ = c₁ := (EStateM.Result.ok.inj hstart).2
  obtain ⟨last?, c₂, haccount, h⟩ := exists_of_bind_ok h
  match last? with
  | none => exact untilDone_accountRound_ne_none (c := ⟨.start, c.session⟩) hc haccount
  | some (.over fate) => cases (eq_of_pure_ok h).1
  | some .registered =>
    obtain ⟨_, c₃, hregistered, h⟩ := exists_of_bind_ok h
    obtain rfl : ⟨.registered, c₂.session⟩ = c₃ := (EStateM.Result.ok.inj hregistered).2
    have hkeeps (n : Nat) : AlikeOver (Itself (Supplied n)) (fun _ => Itself (Supplied n))
        (untilDone (accountRound b username)) (untilDone (accountRound b username)) :=
      (isBisimulation_supplied n b.password.reveal).untilDone
        (alike_accountRound (isBisimulation_supplied n b.password.reveal) fun _ _ => trivial)
    obtain ⟨hc₂, -⟩ := supply_of_alike hkeeps (c := ⟨.start, c.session⟩) hc haccount
    exact untilDone_characterRound_ne_none (c := ⟨.registered, c₂.session⟩) hc₂ h

end Signup

end MudDialogue
