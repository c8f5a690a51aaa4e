import MudDialogue.Client.Login
import MudDialogue.Failure

/-!
# How a program ends

The status that a program leaves to its caller says how its session ended.
-/

namespace MudDialogue

/-- The end of a program. -/
inductive ExitCode where
  /-- A regular end; a server that hangs up is one. -/
  | success
  /-- Arguments are missing or malformed. -/
  | usage
  /-- The account is in use. -/
  | accountInUse
  /-- There is no such account. -/
  | accountUnknown
  /-- The server could not be reached. -/
  | unreachable
  /-- The stream failed in the middle of a session. -/
  | broken
deriving DecidableEq, Repr

namespace ExitCode

/-- The status of an end. -/
def status : ExitCode → UInt8
  | success => 0
  | usage => 1
  | accountInUse => 2
  | accountUnknown => 3
  | unreachable => 4
  | broken => 5

/-- The end after a login that came to a stage. -/
def ofLogin : Login.Stage → ExitCode
  | .inUse => accountInUse
  | .unknown => accountUnknown
  | .start | .named | .proving | .playing | .silence => success

/-- The end after a failure. -/
def ofFailure : Failure → ExitCode
  | .closed => success
  | .connectionFailed .. | .connectionTimeout _ => unreachable
  | .invalidArgument _ => usage
  | .stream _ => broken

end ExitCode

end MudDialogue
