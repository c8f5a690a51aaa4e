import MudDialogue.Text.Duration

/-!
# What can go wrong

The ways in which a program fails, from the arguments it was given to the stream it talks over, with
the message that is shown for each. A server that hangs up is one of them, but most programs take it
for the regular end of their work.
-/

namespace MudDialogue

/-- The cause of a failure. -/
inductive Failure where
  /-- No connection to the server came about. -/
  | connectionFailed (host : String) (port : UInt16) (reason : String)
  /-- No connection came about in time. -/
  | connectionTimeout (limit : Duration)
  /-- Reading from the stream or writing to it failed. -/
  | stream (reason : String)
  /-- The server closed the stream. -/
  | closed
  /-- An argument makes no sense. -/
  | invalidArgument (reason : String)
deriving DecidableEq, Repr

namespace Failure

/-- What part of the program fails, as its messages call it. -/
def area : Failure → String
  | connectionFailed .. | connectionTimeout _ | stream _ => "Transport error: "
  | closed => "Session error: "
  | invalidArgument _ => "Configuration error: "

/-- The cause in words. -/
def detail : Failure → String
  | connectionFailed host port reason =>
    "Connection failed to " ++ host ++ ":" ++ toString port ++ ": " ++ reason
  | connectionTimeout limit => "Connection timed out after " ++ limit.text
  | stream reason => "I/O error: " ++ reason
  | closed => "Stream closed by remote"
  | invalidArgument reason => "Invalid argument: " ++ reason

/-- The message that is shown. -/
def message (f : Failure) : String := f.area ++ f.detail

/-- The server hung up. -/
def isClosed : Failure → Bool
  | closed => true
  | _ => false

@[simp] theorem isClosed_iff {f : Failure} : f.isClosed = true ↔ f = closed := by
  cases f <;> simp [isClosed]

end Failure

end MudDialogue
