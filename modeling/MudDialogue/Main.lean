import MudDialogue.CommandLine.Commands
import MudDialogue.CommandLine.Program

/-!
# The programs on a recorded dialogue

`wander` and `provision`, each with its own arguments behind it, run one of the two programs. What
the server says is read from standard input, all of it at once, after which the server hangs up.
What the client sends goes to standard output and the log to standard error.
-/

namespace MudDialogue.CommandLine

/-- Random words from the system. -/
def systemWords (count : Nat) : IO WordSource := do
  let bytes ← IO.getRandomBytes (4 * count).toUSize
  return .ofList ((List.range count).map fun i =>
    (List.range 4).foldl (fun word j => 256 * word + (bytes.get! (4 * i + j)).toUInt32) 0)

/-- All bytes up to the end of a stream. -/
partial def readAll (stream : IO.FS.Stream) (sofar : ByteArray) : IO ByteArray := do
  let bytes ← stream.read 65536
  if bytes.isEmpty then return sofar else readAll stream (sofar ++ bytes)

/-- Shows what a session came to, and ends with the status of the program. -/
def conclude {σ : Type} (result : EStateM.Result Failure (Client σ) (Option ExitCode)) :
    IO UInt32 := do
  let (code, session) := match result with
    | .ok code? client => (code?.getD .success, client.session)
    | .error e client => (.ofFailure e, client.session)
  for (level, message) in session.log do
    IO.eprintln (level.name ++ " " ++ message)
  let out ← IO.getStdout
  out.write ⟨session.peer.written.toArray⟩
  out.flush
  return code.status.toUInt32

/-- Reads the arguments of a program and goes on with them, or says what is wrong with them. -/
def withArguments {α : Type} (c : Command α) (args : List String) (go : α → IO UInt32) :
    IO UInt32 := do
  match c.parse ((c.name :: args).map Text.Utf8.bytes) with
  | .ok a => go a
  | .error r =>
    IO.print r.output
    return r.code.status.toUInt32

/-- Runs the program that wanders about. -/
def runWander (a : WanderArguments) : IO UInt32 := do
  match a.credentials with
  | .error e =>
    IO.eprintln e.message
    return (ExitCode.ofFailure e).status.toUInt32
  | .ok c =>
    let heard := (← readAll (← IO.getStdin) .empty).toList
    let source ← systemWords heard.length
    let session := Session.start (.ofScript [.send heard] none) c.settings
    conclude (Program.wander c none ⟨.start source, session⟩)

/-- Runs the program that creates accounts. -/
def runProvision (a : ProvisionArguments) : IO UInt32 := do
  let heard := (← readAll (← IO.getStdin) .empty).toList
  let session := Session.start (.ofScript [.send heard] none) a.settings
  conclude (Program.provision a.batch ⟨.empty, session⟩)

/-- Runs the program that the first argument names. -/
def runNamed (args : List String) : IO UInt32 := do
  match args with
  | "wander" :: args => withArguments WanderArguments.command args runWander
  | "provision" :: args => withArguments ProvisionArguments.command args runProvision
  | _ =>
    IO.print (WanderArguments.command.usage "wander")
    IO.print (ProvisionArguments.command.usage "provision")
    return ExitCode.usage.status.toUInt32

end MudDialogue.CommandLine

def main (args : List String) : IO UInt32 := MudDialogue.CommandLine.runNamed args
