import MudDialogue.Client.Rounds
import MudDialogue.World.ExitLine

/-!
# Wandering about

The client waits for the line that lists the exits of the room and leaves through one of them,
picked at random. When no such line comes in time, or the room has no exits, it looks around again.
-/

namespace MudDialogue.Wander

open Pattern ClientM

/-- What a wanderer waits for. -/
inductive Prompt where
  /-- The line that lists the exits of a room. -/
  | exitLine
deriving DecidableEq, Repr

instance : ToString Prompt := ⟨fun _ => "ExitList"⟩

/-- The only prompt. -/
def prompts : Prompts Prompt := ⟨[(.exitLine, ExitLine.pattern)]⟩

/-- Why a walk ended. -/
inductive Ending where
  /-- The server hung up. -/
  | hungUp
  /-- The client has walked as far as it was told to. -/
  | farEnough
deriving DecidableEq, Repr

/-- An ending as the log calls it. -/
def Ending.label : Ending → String
  | hungUp => "Closed"
  | farEnough => "MoveLimit"

/-- What came of a walk. -/
structure Tally where
  /-- How often the client left a room. -/
  moves : Nat
  /-- How often it looked around instead. -/
  looks : Nat
  /-- Why it stopped. -/
  ending : Ending
deriving DecidableEq, Repr

/-- What a wanderer remembers. -/
structure Walk where
  /-- Where the random words come from. -/
  source : WordSource
  /-- How often it has left a room. -/
  moves : Nat
  /-- How often it has looked around instead. -/
  looks : Nat
deriving DecidableEq, Repr

namespace Walk

/-- A walk before its first move. -/
def start (source : WordSource) : Walk := ⟨source, 0, 0⟩

/-- The walk so far, as it ends. -/
def tally (w : Walk) (ending : Ending) : Tally := ⟨w.moves, w.looks, ending⟩

end Walk

/-- The command that shows the room again. -/
def look : String := "l"

/-- Looks around. -/
def lookAgain (reason : String) : ClientM Walk Unit := do
  note .debug (reason ++ ", looking again")
  say look
  let walk ← remembered
  remember { walk with looks := walk.looks + 1 }

/-- Leaves through one of the exits, if there are any. -/
def leave (exits : Exits) : ClientM Walk Unit := do
  let walk ← remembered
  let (picked, source) := exits.choose? walk.source
  remember { walk with source }
  match picked with
  | some d =>
    note .debug ("exits [" ++ String.intercalate ", " (exits.toList.map Direction.fullName) ++
      "], moving " ++ d.code)
    say d.code
    remember { walk with source, moves := walk.moves + 1 }
  | none => lookAgain "room has no exits"

/-- Waits for a list of exits and acts on it. -/
def advance : ClientM Walk Unit := do
  match ← listen prompts with
  | some found => leave (ExitLine.read found)
  | none => lookAgain "no exit list"

/-- One round: there is a result when the walk is over. -/
def round (limit? : Option Nat) : ClientM Walk (Option Tally) := do
  let walk ← remembered
  if limit?.any (· ≤ walk.moves) then
    note .info ("wandered " ++ toString walk.moves ++ " moves, stopping")
    return some (walk.tally .farEnough)
  try
    advance
    return none
  catch e =>
    if e.isClosed then
      note .info ("connection closed after " ++ toString walk.moves ++ " moves")
      return some ((← remembered).tally .hungUp)
    else throw e

/-- Walks until the server hangs up or the limit of moves is reached, counting from zero. -/
def run (limit? : Option Nat) : ClientM Walk (Option Tally) := do
  remember (.start (← remembered).source)
  untilDone (round limit?)

end MudDialogue.Wander
