import MudDialogue.Account.Batch
import MudDialogue.CommandLine.Help

/-!
# The command lines of the two programs
-/

namespace MudDialogue.CommandLine

/-- The greatest number of a port. -/
def maxPort : Nat := UInt16.size - 1

/-- The greatest number of accounts in a batch. -/
def maxCount : Nat := UInt64.size - 1

/-- Reads the number of a port. A minus sign may stand in front of zero. -/
def port? (text : String) : Option UInt16 :=
  match text.toList with
  | '-' :: cs => if digitsValue? cs = some 0 then some 0 else none
  | _ => (number? maxPort text).map UInt16.ofNat

/-- The arguments of the program that wanders about. -/
structure WanderArguments where
  /-- The server's name. -/
  host : String := "localhost"
  /-- The server's port. -/
  port : UInt16 := 8945
  /-- The account. -/
  username : String := "chris"
  /-- Its password. -/
  password : String := "asdf"
deriving DecidableEq, Repr

namespace WanderArguments

/-- The program that wanders about. -/
def command : Command WanderArguments where
  name := "mudbot-wander"
  about := "Log in to a kmud server and wander between rooms at random"
  defaults := {}
  slots := [
    ⟨"HOST", "Server host", some "localhost", fun s a => some { a with host := s }⟩,
    ⟨"PORT", "Server port", some "8945", fun s a => (port? s).map fun n => { a with port := n }⟩,
    ⟨"USERNAME", "Account to log in as", some "chris", fun s a => some { a with username := s }⟩,
    ⟨"PASSWORD", "Account password", some "asdf", fun s a => some { a with password := s }⟩]

/-- The credentials that the arguments give. -/
def credentials (a : WanderArguments) : Except Failure Credentials :=
  Credentials.make a.host a.port a.username a.password

end WanderArguments

/-- The arguments of the program that creates accounts. -/
structure ProvisionArguments where
  /-- How many accounts to create. -/
  count : Nat := 0
  /-- The server's name. -/
  host : String := "localhost"
  /-- The server's port. -/
  port : UInt16 := 8945
deriving DecidableEq, Repr

namespace ProvisionArguments

/-- The program that creates accounts. -/
def command : Command ProvisionArguments where
  name := "mudbot-provision"
  about := "Create numbered kmud accounts (unit1, unit2, ...) with one character each"
  defaults := {}
  slots := [
    ⟨"COUNT", "Number of accounts to create", none,
      fun s a => (number? maxCount s).map fun n => { a with count := n }⟩,
    ⟨"HOST", "Server host", some "localhost", fun s a => some { a with host := s }⟩,
    ⟨"PORT", "Server port", some "8945", fun s a => (port? s).map fun n => { a with port := n }⟩]

/-- The settings of the session. -/
def settings (a : ProvisionArguments) : Settings := { host := a.host, port := a.port }

/-- The batch to create. -/
def batch (a : ProvisionArguments) : Batch := .usual a.count

end ProvisionArguments

end MudDialogue.CommandLine
