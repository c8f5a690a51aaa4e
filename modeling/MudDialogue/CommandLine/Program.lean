import MudDialogue.Client.Signup
import MudDialogue.Client.Wander
import MudDialogue.CommandLine.ExitCode

/-!
# The two programs, from an open session on

One logs in and wanders about, the other creates a batch of accounts. Whatever happens to their
session, they end with an exit code. There is none only if the session never ends.
-/

namespace MudDialogue.Program

open ClientM

variable {σ : Type}

/-- The end of a program. A server that hangs up is no failure; any other failure is shown. -/
def finish (act : ClientM σ (Option ExitCode)) : ClientM σ (Option ExitCode) := do
  try act
  catch e =>
    if e.isClosed then
      note .info "connection closed by server"
      return some .success
    else
      note .error e.message
      return some (.ofFailure e)

/-- Logs in and, if that succeeds, wanders about. -/
def loginAndWander (c : Credentials) (limit? : Option Nat) :
    ClientM Wander.Walk (Option ExitCode) := do
  match ← delegate .start (Login.run c) with
  | none => return none
  | some stage =>
    if !stage.isSuccess then return some (.ofLogin stage)
    match ← Wander.run limit? with
    | none => return none
    | some tally =>
      note .info (toString tally.moves ++ " moves, " ++ toString tally.looks ++ " looks (" ++
        tally.ending.label ++ ")")
      return some .success

/-- The program that wanders about. -/
def wander (c : Credentials) (limit? : Option Nat) : ClientM Wander.Walk (Option ExitCode) :=
  finish (loginAndWander c limit?)

/-- Creates a batch and says so if it was cut short. -/
def createBatch (b : Batch) : ClientM Signup.Ledger (Option ExitCode) := do
  let ledger ← Signup.run b
  if ledger.cutShort then
    note .warn "batch interrupted; re-run to create the remaining accounts"
  return some .success

/-- The program that creates accounts. -/
def provision (b : Batch) : ClientM Signup.Ledger (Option ExitCode) := finish (createBatch b)

end MudDialogue.Program
