/-!
# How matches come out

An outcome is what is known of a match at some place on its way: the passages through groups that
are still to come and where it ends. Places are told apart by the bytes that stand after them.
-/

namespace MudDialogue.Pattern

/-- A passage through a named group; `rest` are the bytes after the place. -/
inductive Mark where
  /-- The group starts. -/
  | enter (name : String) (rest : List UInt8)
  /-- The group ends. -/
  | leave (name : String) (rest : List UInt8)
deriving DecidableEq, Repr

/-- How a match comes out: the passages on its way and the bytes after its end. -/
structure Outcome where
  /-- The passages through groups, in order. -/
  marks : List Mark
  /-- What stands after the match. -/
  rest : List UInt8
deriving DecidableEq, Repr

/-- Puts a passage in front. -/
def Outcome.mark (m : Mark) (o : Outcome) : Outcome := { o with marks := m :: o.marks }

/-- The first success of two, in the order that greed asks for. -/
def prefer (greedy : Bool) (more enough : Option Outcome) : Option Outcome :=
  if greedy then more.or enough else enough.or more

/-! ### Trials

Inside a loop that need not get on, one place can be reached in many ways without anything being
taken up, even in a circle. A trial is a way to go on from a place that keeps a list of the choices
already tried there. To come to one of them again leads nowhere: had it led to a match, that match
would have counted already.
-/

/-- The choices already tried at a place: the bits that are set are their numbers. -/
abbrev Tried := Nat

/-- A way to go on from a place, given the choices tried there; the result also lists those tried by
then. -/
abbrev Trial := Tried → Option Outcome × Tried

namespace Trial

/-- How it goes on is known. -/
def settled (o : Option Outcome) : Trial := fun tried => (o, tried)

/-- What a trial leads to where nothing has been tried. -/
def fresh (x : Trial) : Option Outcome := (x 0).1

/-- The second trial if the first one fails. -/
def orElse (x y : Trial) : Trial := fun tried =>
  match x tried with
  | (some o, tried) => (some o, tried)
  | (none, tried) => y tried

/-- The first success of two, in the order that greed asks for. -/
def prefer (greedy : Bool) (more enough : Trial) : Trial :=
  if greedy then more.orElse enough else enough.orElse more

/-- A choice, which is tried only once. -/
def once (choice : Nat) (x : Trial) : Trial := fun tried =>
  if tried.testBit choice then (none, tried) else x (tried ||| 1 <<< choice)

/-- Puts a passage in front. -/
def mark (m : Mark) (x : Trial) : Trial := fun tried =>
  match x tried with
  | (o, tried) => (o.map (.mark m), tried)

@[simp] theorem fresh_settled (o : Option Outcome) : (settled o).fresh = o := rfl

@[simp] theorem fresh_mark (m : Mark) (x : Trial) : (x.mark m).fresh = x.fresh.map (.mark m) := rfl

end Trial

end MudDialogue.Pattern
