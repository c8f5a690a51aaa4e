import MudDialogue.Account.Batch
import MudDialogue.Client.Rounds

/-!
# Creating accounts

The accounts of a batch are created one after the other over one session. Each of them goes through
the dialogue for a new account and then gets one character with the name of the account.

    for the account    "> "                      --> "n"
                       "Desired username"        --> the name
                       "unavailable"             --> the name is taken, on to the next account
                       "Desired password"        --> the password
                       "Confirm password"        --> the password, and on to the character
    for the character  "> "                      --> "n"
                       "Desired character name"  --> the name, "x", "x", and the account is done
-/

namespace MudDialogue.Signup

open Pattern ClientM

/-- What the server says while an account is created. -/
inductive AccountPrompt where
  /-- The name is taken. -/
  | taken
  /-- The question for the name. -/
  | name
  /-- The question for the password. -/
  | password
  /-- The question for the password once more. -/
  | confirmation
  /-- A menu. -/
  | menu
deriving DecidableEq, Repr

/-- A prompt as the log calls it. -/
def AccountPrompt.label : AccountPrompt → String
  | taken => "Unavailable"
  | name => "DesiredUsername"
  | password => "DesiredPassword"
  | confirmation => "ConfirmPassword"
  | menu => "CommandMenu"

instance : ToString AccountPrompt := ⟨AccountPrompt.label⟩

/-- All prompts in the dialogue for an account. The one that turns the name down comes first,
because a menu follows it. -/
def accountPrompts : Prompts AccountPrompt := ⟨[
  (.taken, .literal "unavailable"),
  (.name, .literal "Desired username"),
  (.password, .literal "Desired password"),
  (.confirmation, .literal "Confirm password"),
  (.menu, menu)]⟩

/-- What the server says while a character is created. -/
inductive CharacterPrompt where
  /-- The question for the name. -/
  | name
  /-- A menu. -/
  | menu
deriving DecidableEq, Repr

/-- A prompt as the log calls it. -/
def CharacterPrompt.label : CharacterPrompt → String
  | name => "CharacterName"
  | menu => "CommandMenu"

instance : ToString CharacterPrompt := ⟨CharacterPrompt.label⟩

/-- All prompts in the dialogue for a character. -/
def characterPrompts : Prompts CharacterPrompt := ⟨[
  (.name, .literal "Desired character name"),
  (.menu, menu)]⟩

/-- How far the creation of one account has come. -/
inductive Stage where
  /-- Nothing is sent yet. -/
  | start
  /-- A new account is asked for. -/
  | requested
  /-- The name is sent. -/
  | named
  /-- The password is sent. -/
  | proving
  /-- The account exists and has no character yet. -/
  | registered
  /-- A new character is asked for. -/
  | characterRequested
deriving DecidableEq, Repr

/-- A stage as the log calls it. -/
def Stage.label : Stage → String
  | start => "AwaitMenu"
  | requested => "AwaitUsernamePrompt"
  | named => "AwaitPasswordPrompt"
  | proving => "AwaitPasswordConfirm"
  | registered => "AwaitCharacterMenu"
  | characterRequested => "AwaitCharacterName"

/-- What became of one account. -/
inductive Fate where
  /-- It was created, with its character. -/
  | created
  /-- Its name is taken. -/
  | taken
  /-- The server stopped answering. -/
  | abandoned
deriving DecidableEq, Repr

/-- A fate as it is reported. -/
def Fate.label : Fate → String
  | created => "Created"
  | taken => "Unavailable"
  | abandoned => "TimedOut"

/-- What became of a batch so far. -/
structure Ledger where
  /-- The accounts that were created. -/
  created : List String
  /-- The accounts whose names are taken. -/
  taken : List String
  /-- The accounts in whose creation the server stopped answering. -/
  abandoned : List String
  /-- The server hung up before the batch was done. -/
  cutShort : Bool
deriving DecidableEq, Repr

namespace Ledger

/-- Nothing attempted yet. -/
def empty : Ledger := ⟨[], [], [], false⟩

/-- How many accounts met their fate. -/
def attempted (l : Ledger) : Nat := l.created.length + l.taken.length + l.abandoned.length

/-- Adds what became of an account. -/
def record (l : Ledger) (username : String) : Fate → Ledger
  | .created => { l with created := l.created ++ [username] }
  | .taken => { l with taken := l.taken ++ [username] }
  | .abandoned => { l with abandoned := l.abandoned ++ [username] }

theorem attempted_record (l : Ledger) (username : String) (fate : Fate) :
    (l.record username fate).attempted = l.attempted + 1 := by
  cases fate <;> simp only [record, attempted, List.length_append, List.length_singleton] <;> omega

end Ledger

/-- The choice in a menu that makes something new. -/
def newEntry : String := "n"

/-- The answer to each question about a character but the one for its name. -/
def placeholder : String := "x"

/-- Remembers how far the account has come, and logs it. -/
def reach (username : String) (stage : Stage) : ClientM Stage Unit := do
  remember stage
  note .debug (username ++ ": " ++ stage.label)

/-- Answers a prompt in the dialogue for the character; there is a result when that is over. -/
def answerCharacter (username : String) : CharacterPrompt → ClientM Stage (Option Fate)
  | .menu => do
    say newEntry
    remember .characterRequested
    return none
  | .name => do
    say username
    say placeholder
    say placeholder
    note .debug (username ++ ": Done")
    note .info ("created account " ++ username)
    return some .created

/-- One round of the dialogue for the character. -/
def characterRound (username : String) : ClientM Stage (Option Fate) := do
  match ← listen characterPrompts with
  | some found => answerCharacter username found.tag
  | none =>
    note .warn ("timed out creating character for " ++ username ++ " in state " ++
      (← remembered).label)
    return some .abandoned

/-- Where the dialogue for an account leads when it is over. -/
inductive AccountEnd where
  /-- To the dialogue for its character. -/
  | registered
  /-- To the next account. -/
  | over (fate : Fate)
deriving DecidableEq, Repr

/-- Answers a prompt in the dialogue for the account; there is a result when that is over. -/
def answerAccount (b : Batch) (username : String) :
    AccountPrompt → ClientM Stage (Option AccountEnd)
  | .menu => do
    say newEntry
    reach username .requested
    return none
  | .name => do
    say username
    reach username .named
    return none
  | .taken => do
    note .debug (username ++ ": Exists")
    note .info (username ++ " already exists, skipping")
    return some (.over .taken)
  | .password => do
    whisper b.password.reveal
    reach username .proving
    return none
  | .confirmation => do
    whisper b.password.reveal
    return some .registered

/-- One round of the dialogue for the account. -/
def accountRound (b : Batch) (username : String) : ClientM Stage (Option AccountEnd) := do
  match ← listen accountPrompts with
  | some found => answerAccount b username found.tag
  | none =>
    note .warn ("timed out creating " ++ username ++ " in state " ++ (← remembered).label)
    return some (.over .abandoned)

/-- Creates one account and its character. -/
def createOne (b : Batch) (username : String) : ClientM Stage (Option Fate) := do
  remember .start
  match ← untilDone (accountRound b username) with
  | some .registered =>
    remember .registered
    untilDone (characterRound username)
  | some (.over fate) => return some fate
  | none => return none

/-- Creates one account in the course of a batch. There is no result if the server hangs up. -/
def createNext (b : Batch) (username : String) : ClientM Ledger (Option Fate) := do
  try delegate .start (createOne b username)
  catch e =>
    if e.isClosed then
      let ledger ← remembered
      note .warn ("connection closed while creating " ++ username ++ "; " ++
        toString ledger.attempted ++ " of " ++ toString b.count ++ " accounts attempted")
      remember { ledger with cutShort := true }
      return none
    else throw e

/-- Creates so many accounts from a given number on, until the server hangs up. -/
def createFrom (b : Batch) : (remaining : Nat) → (number : Nat) → ClientM Ledger Unit
  | 0, _ => return ()
  | remaining + 1, number => do
    let username := b.username number
    match ← createNext b username with
    | some fate =>
      remember ((← remembered).record username fate)
      createFrom b remaining (number + 1)
    | none => return ()

/-- Creates all accounts of a batch. If the server hangs up, the rest of them is not attempted. -/
def run (b : Batch) : ClientM Ledger Ledger := do
  remember .empty
  createFrom b b.count 1
  let ledger ← remembered
  note .info ("provisioning finished: " ++ toString ledger.created.length ++ " created, " ++
    toString ledger.taken.length ++ " skipped, " ++ toString ledger.abandoned.length ++
    " abandoned")
  return ledger

end MudDialogue.Signup
