import MudDialogue.CommandLine.Arguments
import MudDialogue.CommandLine.Unstyled

/-!
# What a program says about its arguments

A request for help is answered with the whole description of the program, under the name by which it
was called, as far as that can be shown; arguments that make no sense are answered with the line of
its usage alone, under its own name.
-/

namespace MudDialogue.CommandLine

open Text

/-- A label as it stands in the usage: in brackets if the argument may be left out. -/
def Slot.usage {α : Type} (s : Slot α) : String :=
  if s.default?.isSome then "[" ++ s.label ++ "]" else "<" ++ s.label ++ ">"

/-- The line that describes one argument, with the labels padded to one width. -/
def Slot.row {α : Type} (width : Nat) (s : Slot α) : String :=
  let fill := String.ofList (List.replicate (width - s.usage.length) ' ')
  "  " ++ s.usage ++ fill ++ "  " ++ s.help ++
    (match s.default? with
      | some value => " [default: " ++ value ++ "]"
      | none => "") ++ "\n"

namespace Command

variable {α : Type}

/-- The line that shows how to call a program. -/
def usage (c : Command α) (name : String) : String :=
  "Usage: " ++ name ++ String.join (c.slots.map fun s => " " ++ s.usage) ++ "\n"

/-- The description of a program. -/
def help (c : Command α) (name : String) : String :=
  let width := (c.slots.map (·.usage.length)).foldl max 0
  c.about ++ "\n\n" ++ c.usage name ++ "\nArguments:\n" ++
    String.join (c.slots.map (Slot.row width)) ++ "\nOptions:\n  -h, --help  Print help\n"

end Command

/-- The parts of a path between slashes. -/
def pathParts : List UInt8 → List (List UInt8)
  | [] => [[]]
  | b :: rest =>
    match pathParts rest with
    | part :: parts => if b = '/'.toUInt8 then [] :: part :: parts else (b :: part) :: parts
    | [] => [[b]]

/-- The name of the file that a path leads to, if it ends in a name. -/
def fileName? (path : List UInt8) : Option (List UInt8) :=
  match ((pathParts path).filter fun p => p != [] && p != Utf8.bytes ".").getLast? with
  | some name => if name = Utf8.bytes ".." then none else some name
  | none => none

/-- How a program ends over its arguments, and what it prints. -/
structure Rejection where
  /-- How the program ends. -/
  code : ExitCode
  /-- What it prints. -/
  output : String
deriving DecidableEq, Repr

/-- Reads a whole command line, the path by which the program was called first. -/
def Command.parse {α : Type} (c : Command α) (argv : List (List UInt8)) : Except Rejection α :=
  match c.read argv.tail with
  | .ok args => .ok args
  | .error .problem => .error ⟨.usage, c.usage c.name⟩
  | .error .help =>
    let name? := ((argv.head?.bind fileName?).bind Utf8.text?).map fun name =>
      Utf8.text (unstyled (Utf8.bytes name))
    .error ⟨.success, c.help (name?.getD c.name)⟩

end MudDialogue.CommandLine
