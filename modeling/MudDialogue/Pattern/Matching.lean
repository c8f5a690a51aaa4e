import MudDialogue.Pattern.Outcome
import MudDialogue.Pattern.Regex

/-!
# What a match is

There is often more than one way to match, and the order in which alternatives are tried decides:
the first branch of an alternation, one more round of a greedy repetition. The rest of the match is
given as a way to go on, so the first choice from which everything that follows succeeds is the one
taken.

`Regex.run` matches without looking back. A loose loop needs more care, and inside of it
`Regex.tryOut` numbers the choices and tries each of them only once at a place: each alternation and
each turn of a loop is a choice. Two copies of a part have choices of their own.

## Main definitions

* `Regex.run`, `Regex.tryOut` — how a match goes on, outside and inside of loose loops.
* `Regex.matchAt`, `Regex.search` — the match that counts at a place, and in a whole byte string.
-/

namespace MudDialogue.Pattern

/-- The way from a place to the outcome of a match, if it succeeds. -/
abbrev Continuation := Cursor → Option Outcome

/-- After a round of a repetition that moved on: one more round or `exit`, in the order that greed
asks for. The further round has to move on as well. -/
def again (round : Option Outcome → Continuation → Continuation) (greedy : Bool)
    (exit : Continuation) (c : Cursor) : Option Outcome :=
  prefer greedy
    (round none (fun d => if d.after.length < c.after.length then again round greedy exit d
      else none) c)
    (exit c)
termination_by c.after.length

/-- The turn of a repetition inside a loose loop, which is a choice: one more round or `exit`. A
further round that does not move on comes back to the same choice, and so leads nowhere. -/
def turn (round : Trial → (Cursor → Trial) → Cursor → Trial) (choice : Nat) (greedy : Bool)
    (exit : Cursor → Trial) (c : Cursor) : Trial :=
  .once choice <| .prefer greedy
    (round (.settled none) (fun d => if d.after.length < c.after.length
      then turn round choice greedy exit d else .settled none) c)
    (exit c)
termination_by c.after.length

namespace Regex

/-- How many choices a regular expression holds. -/
def choices : Regex → Nat
  | empty | atom _ | look _ => 0
  | group _ r => r.choices
  | cat r s => r.choices + s.choices
  | alt r s => r.choices + s.choices + 1
  | plus _ r | star _ r | loose _ r => r.choices + 1

/-- Matches `r` inside a loose loop, where its choices are numbered from `n` on. The rest of the
match is `still` if `r` has taken up nothing and `moved` if it has; at a place further on, nothing
has been tried yet. -/
def tryOut : Regex → Nat → Trial → (Cursor → Trial) → Cursor → Trial
  | empty, _, still, _, _ => still
  | atom a, _, _, moved, c =>
    match a.width? c.after with
    | some width => .settled (moved (c.forward width)).fresh
    | none => .settled none
  | look l, _, still, _, c => if l.holds c then still else .settled none
  | group name r, n, still, moved, c =>
    (r.tryOut n (still.mark (.leave name c.after))
      (fun d => (moved d).mark (.leave name d.after)) c).mark (.enter name c.after)
  | cat r s, n, still, moved, c =>
    r.tryOut n (s.tryOut (n + r.choices) still moved c)
      (fun d => s.tryOut (n + r.choices) (moved d) moved d) c
  | alt r s, n, still, moved, c =>
    .once n ((r.tryOut (n + 1) still moved c).orElse (s.tryOut (n + 1 + r.choices) still moved c))
  | plus greedy r, n, _, moved, c =>
    r.tryOut (n + 1) (.settled none) (turn (r.tryOut (n + 1)) n greedy moved) c
  | star greedy r, n, still, moved, c =>
    .once n <| .prefer greedy
      (r.tryOut (n + 1) (.settled none) (turn (r.tryOut (n + 1)) n greedy moved) c) still
  | loose greedy r, n, still, moved, c =>
    r.tryOut (n + 1)
      (.once n <| .prefer greedy
        (r.tryOut (n + 1) (.settled none) (turn (r.tryOut (n + 1)) n greedy moved) c) still)
      (turn (r.tryOut (n + 1)) n greedy moved) c

/-- Matches `r` at a place. The rest of the match is `still` if `r` has taken up nothing and `moved`
if it has. -/
def run : Regex → Option Outcome → Continuation → Continuation
  | empty, still, _, _ => still
  | atom a, _, moved, c =>
    match a.width? c.after with
    | some width => moved (c.forward width)
    | none => none
  | look l, still, _, c => if l.holds c then still else none
  | group name r, still, moved, c =>
    (r.run (still.map (.mark (.leave name c.after)))
      (fun d => (moved d).map (.mark (.leave name d.after))) c).map (.mark (.enter name c.after))
  | cat r s, still, moved, c => r.run (s.run still moved c) (fun d => s.run (moved d) moved d) c
  | alt r s, still, moved, c => (r.run still moved c).or (s.run still moved c)
  | plus greedy r, _, moved, c => r.run none (again r.run greedy moved) c
  | star greedy r, still, moved, c => prefer greedy (r.run none (again r.run greedy moved) c) still
  | loose greedy r, still, moved, c =>
    (tryOut (loose greedy r) 0 (.settled still) (fun d => .settled (moved d)) c).fresh

end Regex

/-- The match that ends where it starts. -/
def Outcome.finish (c : Cursor) : Outcome := ⟨[], c.after⟩

/-- A stretch of a byte string that a regular expression matches; `start` are the bytes from its
first one on. -/
structure Found where
  /-- The bytes from the start of the match on. -/
  start : List UInt8
  /-- How the match comes out. -/
  outcome : Outcome
deriving DecidableEq, Repr

namespace Regex

/-- The match of `r` that starts at a place. -/
def matchAt (r : Regex) (c : Cursor) : Option Outcome :=
  r.run (some (.finish c)) (fun d => some (.finish d)) c

/-- The first match at a place or after it, from left to right. -/
def searchFrom (r : Regex) : List UInt8 → List UInt8 → Option Found
  | before, [] => (r.matchAt ⟨before, []⟩).map (Found.mk [])
  | before, b :: rest =>
    ((r.matchAt ⟨before, b :: rest⟩).map (Found.mk (b :: rest))).or
      (searchFrom r (b :: before) rest)

/-- The leftmost match in a byte string. -/
def search (r : Regex) (haystack : List UInt8) : Option Found := r.searchFrom [] haystack

end Regex

end MudDialogue.Pattern
