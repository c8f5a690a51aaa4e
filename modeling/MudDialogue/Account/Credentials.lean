import MudDialogue.Failure
import MudDialogue.Session.Settings
import MudDialogue.Text.Blank
import MudDialogue.Text.Quoted

/-!
# Who logs in where
-/

namespace MudDialogue

open Text

/-- A word that must not be shown. -/
structure Secret where
  /-- The word itself. -/
  reveal : String
deriving DecidableEq

/-- What is shown in place of a secret. -/
def Secret.redacted : String := "SecretBox<str>([REDACTED])"

/-- An account on a server. -/
structure Credentials where
  /-- The name or address of the server. -/
  host : String
  /-- The port of the server. -/
  port : UInt16
  /-- The name of the account. -/
  username : String
  /-- Its password. -/
  password : Secret
deriving DecidableEq

namespace Credentials

/-- Credentials with a name that is not blank. -/
def make (host : String) (port : UInt16) (username password : String) :
    Except Failure Credentials :=
  if isBlankText username then .error (.invalidArgument "username must not be empty")
  else .ok ⟨host, port, username, ⟨password⟩⟩

/-- The settings of a session with the server. -/
def settings (c : Credentials) : Settings := { host := c.host, port := c.port }

/-- The credentials in words, without the password. -/
def describe (c : Credentials) : String :=
  "Credentials \x7b host: " ++ Quoted.quote c.host ++ ", port: " ++ toString c.port ++
    ", username: " ++ Quoted.quote c.username ++ ", password: " ++ Secret.redacted ++ " \x7d"

end Credentials

end MudDialogue
