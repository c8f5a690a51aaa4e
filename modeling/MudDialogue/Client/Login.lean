import MudDialogue.Account.Credentials
import MudDialogue.Client.Rounds

/-!
# Logging in

From the main menu the client goes to the login menu, answers the questions for a name and a
password, and picks the first character of the account. The server can turn the account down at any
point.

    at a menu     "> "                --> "l", and wait for what follows
    at a question "Username: "        --> the name
                  "Password: "        --> the password and "1", and the login is done
    turned down   "already online"    --> the account is in use
                  "User not found"    --> there is no such account
    silence                           --> the login is given up
-/

namespace MudDialogue.Login

open Pattern ClientM

/-- What the server says during a login. -/
inductive Prompt where
  /-- The account is in use. -/
  | inUse
  /-- There is no such account. -/
  | unknown
  /-- The question for the name. -/
  | name
  /-- The question for the password. -/
  | password
  /-- A menu. -/
  | menu
deriving DecidableEq, Repr

namespace Prompt

/-- A prompt as the log calls it. -/
def label : Prompt → String
  | inUse => "AlreadyOnline"
  | unknown => "UserNotFound"
  | name => "Username"
  | password => "Password"
  | menu => "CommandPrompt"

instance : ToString Prompt := ⟨label⟩

end Prompt

/-- All prompts of a login. Those that turn the account down come first: a menu follows them, and
both can arrive in one read. -/
def prompts : Prompts Prompt := ⟨[
  (.inUse, .literal "already online"),
  (.unknown, .literal "User not found"),
  (.name, question "Username: "),
  (.password, question "Password: "),
  (.menu, menu)]⟩

/-- How far a login has come. -/
inductive Stage where
  /-- Nothing is sent but choices in menus. -/
  | start
  /-- The name is sent. -/
  | named
  /-- The password is being sent. -/
  | proving
  /-- The character is in the game. -/
  | playing
  /-- The account is in use. -/
  | inUse
  /-- There is no such account. -/
  | unknown
  /-- No prompt came in time. -/
  | silence
deriving DecidableEq, Repr

namespace Stage

/-- A stage as the log calls it. -/
def label : Stage → String
  | start => "AwaitPrompt"
  | named => "AwaitUsername"
  | proving => "AwaitPassword"
  | playing => "Authenticated"
  | inUse => "AlreadyOnline"
  | unknown => "UserNotFound"
  | silence => "TimedOut"

/-- The login is over. -/
def isOver : Stage → Bool
  | start | named | proving => false
  | playing | inUse | unknown | silence => true

/-- The login is over and the character in the game. -/
def isSuccess (s : Stage) : Bool := s == playing

end Stage

/-- The choice in the main menu that leads to the login menu. -/
def enter : String := "l"

/-- The choice of the first character of an account. -/
def firstCharacter : String := "1"

/-- Answers a prompt. -/
def answer (c : Credentials) : Prompt → ClientM Stage Unit
  | .menu => do
    say enter
    remember .start
  | .name => do
    say c.username
    remember .named
  | .password => do
    remember .proving
    whisper c.password.reveal
    say firstCharacter
    note .info ("logged in as " ++ c.username)
    remember .playing
  | .inUse => do
    note .warn ("login failed, " ++ c.username ++ " is already online")
    remember .inUse
  | .unknown => do
    note .warn ("login failed, user " ++ c.username ++ " not found")
    remember .unknown

/-- Waits for a prompt and answers it; without one the login is given up. -/
def advance (c : Credentials) : ClientM Stage Unit := do
  match ← listen prompts with
  | some found => answer c found.tag
  | none =>
    note .warn ("login timed out in state " ++ (← remembered).label)
    remember .silence

/-- One round: there is a result when the login is over. -/
def round (c : Credentials) : ClientM Stage (Option Stage) := do
  let stage ← remembered
  if stage.isOver then return some stage
  advance c
  return none

/-- Logs in, going on from the stage that is remembered. -/
def run (c : Credentials) : ClientM Stage (Option Stage) := do
  note .info ("logging in as " ++ c.username)
  untilDone (round c)

end MudDialogue.Login
