import MudDialogue.CommandLine.Program
import MudDialogue.Proofs.Operation

/-!
# What a client does when the server hangs up

Three programs go on after a failure, if it is only that the server hung up: a walk is over, a batch
is cut short, and a program ends regularly. Each of them is an attempt and what is done after its
failure; the latter logs and remembers something, and does nothing with the stream.

## Main results

* `Wander.round_eq`, `Signup.createNext_eq`, `Program.finish_eq` — the three attempts.
-/

namespace MudDialogue

open ClientM Operation

namespace Wander

/-- What a round does after a failure. -/
def afterFailure (walk : Walk) (e : Failure) : ClientM Walk (Option Tally) := do
  if e.isClosed then
    note .info ("connection closed after " ++ toString walk.moves ++ " moves")
    return some ((← remembered).tally .hungUp)
  else throw e

theorem round_eq (limit? : Option Nat) : round limit? = (do
    let walk ← remembered
    if limit?.any (· ≤ walk.moves) then
      note .info ("wandered " ++ toString walk.moves ++ " moves, stopping")
      return some (walk.tally .farEnough)
    else tryCatch (do advance; return none) (afterFailure walk)) := by
  rw [round]
  congr 1
  funext walk
  split
  · rfl
  · funext c
    simp only [bind_apply, tryCatch_apply]
    cases advance c with
    | ok a d => rfl
    | error e d => cases h : e.isClosed <;> simp [afterFailure, h] <;> rfl

/-- What a round comes to. -/
theorem round_apply (limit? : Option Nat) (c : Client Walk) : round limit? c =
    if limit?.any (· ≤ c.memory.moves) then (do
      note .info ("wandered " ++ toString c.memory.moves ++ " moves, stopping")
      return some (c.memory.tally .farEnough) : ClientM Walk (Option Tally)) c
    else match advance c with
      | .ok _ d => .ok none d
      | .error e d => afterFailure c.memory e d := by
  rw [round_eq, bind_apply]
  change (if _ then _ else _ : ClientM Walk (Option Tally)) c = _
  split
  · rfl
  · rw [tryCatch_apply, bind_apply]
    cases advance c <;> rfl

end Wander

namespace Signup

/-- What a batch does after a failure in the dialogue for an account. -/
def afterFailure (b : Batch) (username : String) (e : Failure) : ClientM Ledger (Option Fate) := do
  if e.isClosed then
    let ledger ← remembered
    note .warn ("connection closed while creating " ++ username ++ "; " ++
      toString ledger.attempted ++ " of " ++ toString b.count ++ " accounts attempted")
    remember { ledger with cutShort := true }
    return none
  else throw e

theorem createNext_eq (b : Batch) (username : String) : createNext b username =
    tryCatch (delegate .start (createOne b username)) (afterFailure b username) := by
  rw [createNext]
  funext c
  simp only [bind_apply, tryCatch_apply]
  cases delegate Stage.start (createOne b username) c with
  | ok a d => rfl
  | error e d => cases h : e.isClosed <;> simp [afterFailure, h] <;> rfl

end Signup

namespace Program

/-- How a program ends after a failure. -/
def afterFailure {σ : Type} (e : Failure) : ClientM σ (Option ExitCode) := do
  if e.isClosed then
    note .info "connection closed by server"
    return some .success
  else
    note .error e.message
    return some (.ofFailure e)

theorem finish_eq {σ : Type} (act : ClientM σ (Option ExitCode)) :
    finish act = tryCatch act afterFailure := by
  rw [finish]
  funext c
  simp only [bind_apply, tryCatch_apply]
  cases act c with
  | ok a d => rfl
  | error e d => cases h : e.isClosed <;> simp [afterFailure, h] <;> rfl

end Program

end MudDialogue
