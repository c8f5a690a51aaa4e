import MudDialogue.CommandLine.ExitCode
import MudDialogue.Text.Utf8

/-!
# Arguments of a program

A program takes positional arguments only, besides a request for help. They fill a fixed row of
slots from left to right; each slot reads its text in its own way and may refuse it, and slots
behind the last argument keep their defaults. The arguments are looked at one by one, and the first
that asks for help or makes no sense decides.
-/

namespace MudDialogue.CommandLine

open Text

/-- One place for an argument. `α` holds all arguments of the program. -/
structure Slot (α : Type) where
  /-- The name of the argument, in capitals. -/
  label : String
  /-- What the argument is for. -/
  help : String
  /-- What stands for it if it is not given; nothing if it has to be. -/
  default? : Option String
  /-- Fills the place, unless the text makes no sense there. -/
  fill : String → α → Option α

/-- A program with its arguments. -/
structure Command (α : Type) where
  /-- Its name. -/
  name : String
  /-- What it does. -/
  about : String
  /-- Its arguments before any is given. -/
  defaults : α
  /-- The places for its arguments. -/
  slots : List (Slot α)

/-- Why arguments are not taken. -/
inductive Refusal where
  /-- Help is asked for. -/
  | help
  /-- An argument makes no sense, is one too many, or is missing. -/
  | problem
deriving DecidableEq, Repr

/-- The digits of a natural number. -/
def digitsValue? (cs : List Char) : Option Nat :=
  if !cs.isEmpty && cs.all Char.isDigit then
    some (cs.foldl (fun n c => 10 * n + (c.toNat - '0'.toNat)) 0)
  else none

/-- Reads a natural number up to a limit: ASCII digits, with or without a plus sign in front. -/
def number? (limit : Nat) (text : String) : Option Nat :=
  let digits := match text.toList with
    | '+' :: cs => cs
    | cs => cs
  (digitsValue? digits).bind fun n => if n ≤ limit then some n else none

/-- What an argument in front of a double dash is. -/
inductive Shape where
  /-- The double dash itself, behind which everything is positional. -/
  | separator
  /-- A request for help. -/
  | help
  /-- Some other option; there are none. -/
  | option
  /-- A positional argument. A single dash is one. -/
  | positional
deriving DecidableEq, Repr

/-- The shape of an argument. Of letters behind one dash the first decides. -/
def shape (arg : List UInt8) : Shape :=
  if arg = Utf8.bytes "--" then .separator
  else if arg = Utf8.bytes "--help" then .help
  else match arg with
    | 0x2D :: 0x68 :: _ => .help
    | 0x2D :: _ :: _ => .option
    | _ => .positional

namespace Slot

variable {α : Type}

/-- Puts a positional argument into the first of the places that are left. -/
def place (slots : List (Slot α)) (args : α) (arg : List UInt8) :
    Except Refusal (List (Slot α) × α) :=
  match slots, Utf8.text? arg with
  | slot :: slots, some text =>
    match slot.fill text args with
    | some args => .ok (slots, args)
    | none => .error .problem
  | _, _ => .error .problem

/-- Looks at the arguments one by one; `literal` says that the double dash is past. The result holds
the places that are left. -/
def scan (literal : Bool) (slots : List (Slot α)) (args : α) :
    List (List UInt8) → Except Refusal (List (Slot α) × α)
  | [] => .ok (slots, args)
  | arg :: rest =>
    let positional := do
      let (slots, args) ← place slots args arg
      scan literal slots args rest
    if literal then positional
    else match shape arg with
      | .separator => scan true slots args rest
      | .help => .error .help
      | .option => .error .problem
      | .positional => positional

end Slot

namespace Command

variable {α : Type}

/-- Reads the arguments behind the program's name. -/
def read (c : Command α) (args : List (List UInt8)) : Except Refusal α := do
  let (left, args) ← Slot.scan false c.slots c.defaults args
  if left.all (·.default?.isSome) then .ok args else .error .problem

end Command

end MudDialogue.CommandLine
