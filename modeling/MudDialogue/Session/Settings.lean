import MudDialogue.Backlog
import MudDialogue.Text.Duration

/-!
# Settings of a session
-/

namespace MudDialogue

/-- Where a session goes to and how it talks and waits. Times are in milliseconds. -/
structure Settings where
  /-- The name or address of the server. -/
  host : String := "localhost"
  /-- The port of the server. -/
  port : UInt16 := 8945
  /-- How long a prompt is waited for. -/
  timeout : Nat := 5000
  /-- How long a connection is waited for. -/
  connectTimeout : Nat := 10000
  /-- What ends each line that is sent. -/
  lineEnding : String := "\r\n"
  /-- How many bytes of unconsumed output are kept. -/
  searchDepth : Nat := Backlog.defaultDepth
deriving DecidableEq, Repr

namespace Settings

/-- The server's address. -/
def address (c : Settings) : String := c.host ++ ":" ++ toString c.port

end Settings

end MudDialogue
