import MudDialogue.Pattern.Matching

/-!
# Matching in one pass from right to left

Trying every way through a repetition can take exponentially long. A machine avoids it by visiting
the places of a byte string from its end to its start. What follows an atom depends only on the
place behind the atom, never on how the atom was reached; so the machine notes, at each atom, how
the match goes on from each of the next four places, four being the most bytes a character takes up.

`Machine.value` reads off the outcome at a place, `Machine.latch` notes what atoms before the place
will need, and `Machine.visit` does both at once. `Machine.search` is the whole pass. Inside of
loose loops `Machine.trial` and `Machine.latchTrial` take the parts of `value` and `latch`.
-/

namespace MudDialogue.Pattern

/-- How a match goes on, from one place to four places ahead. -/
structure Ahead where
  /-- One byte ahead. -/
  one : Option Outcome
  /-- Two bytes ahead. -/
  two : Option Outcome
  /-- Three bytes ahead. -/
  three : Option Outcome
  /-- Four bytes ahead. -/
  four : Option Outcome

namespace Ahead

/-- Nothing is known to go on. -/
def none : Ahead := ⟨.none, .none, .none, .none⟩

/-- The outcome `n` bytes ahead. -/
def get (a : Ahead) : Nat → Option Outcome
  | 1 => a.one
  | 2 => a.two
  | 3 => a.three
  | 4 => a.four
  | _ => .none

/-- One step to the left: what was here is now one byte ahead. -/
def push (here : Option Outcome) (a : Ahead) : Ahead := ⟨here, a.one, a.two, a.three⟩

end Ahead

/-- A regular expression with a note at each of its atoms and a number at each of its choices. The
numbers count only inside of loose loops. -/
inductive Machine where
  /-- As in a regular expression. -/
  | empty
  /-- An atom, and how the match goes on after it. -/
  | atom (a : Atom) (ahead : Ahead)
  /-- As in a regular expression. -/
  | look (l : Look)
  /-- As in a regular expression. -/
  | group (name : String) (m : Machine)
  /-- As in a regular expression. -/
  | cat (m k : Machine)
  /-- As in a regular expression. -/
  | alt (choice : Nat) (m k : Machine)
  /-- As in a regular expression. -/
  | plus (choice : Nat) (greedy : Bool) (m : Machine)
  /-- As in a regular expression. -/
  | star (choice : Nat) (greedy : Bool) (m : Machine)
  /-- As in a regular expression. -/
  | loose (choice : Nat) (greedy : Bool) (m : Machine)

namespace Machine

/-- The machine of a regular expression inside a loose loop, before the last place, with its choices
numbered from `n` on; the number of the next choice comes with it. -/
def numbered : Regex → Nat → Machine × Nat
  | .empty, n => (empty, n)
  | .atom a, n => (atom a .none, n)
  | .look l, n => (look l, n)
  | .group name r, n => let (m, n) := numbered r n; (group name m, n)
  | .cat r s, n =>
    let (m, n) := numbered r n
    let (k, n) := numbered s n
    (cat m k, n)
  | .alt r s, n =>
    let (m, next) := numbered r (n + 1)
    let (k, next) := numbered s next
    (alt n m k, next)
  | .plus greedy r, n => let (m, next) := numbered r (n + 1); (plus n greedy m, next)
  | .star greedy r, n => let (m, next) := numbered r (n + 1); (star n greedy m, next)
  | .loose greedy r, n => let (m, next) := numbered r (n + 1); (loose n greedy m, next)

/-- The machine of a regular expression, before the last place. -/
def ofRegex : Regex → Machine
  | .empty => empty
  | .atom a => atom a .none
  | .look l => look l
  | .group name r => group name (ofRegex r)
  | .cat r s => cat (ofRegex r) (ofRegex s)
  | .alt r s => alt 0 (ofRegex r) (ofRegex s)
  | .plus greedy r => plus 0 greedy (ofRegex r)
  | .star greedy r => star 0 greedy (ofRegex r)
  | .loose greedy r => (numbered (.loose greedy r) 0).1

/-! ### Inside of loose loops -/

/-- How it goes on from a place; `still` is how it goes on if nothing is taken up. -/
def trial : Machine → Trial → Cursor → Trial
  | empty, still, _ => still
  | atom a ahead, _, c =>
    match a.width? c.after with
    | some width => .settled (ahead.get width)
    | none => .settled none
  | look l, still, c => if l.holds c then still else .settled none
  | group name m, still, c =>
    (m.trial (still.mark (.leave name c.after)) c).mark (.enter name c.after)
  | cat m k, still, c => m.trial (k.trial still c) c
  | alt choice m k, still, c => .once choice ((m.trial still c).orElse (k.trial still c))
  | plus _ _ m, _, c => m.trial (.settled none) c
  | star choice greedy m, still, c =>
    .once choice (.prefer greedy (m.trial (.settled none) c) still)
  | loose choice greedy m, still, c =>
    m.trial (.once choice (.prefer greedy (m.trial (.settled none) c) still)) c

/-- Notes how it goes on from a place; `moved` is how it goes on behind the whole machine, and
`noted` is what that leads to where nothing has been tried. -/
def latchTrial : Machine → Trial → Option Outcome → Cursor → Machine
  | empty, _, _, _ => empty
  | atom a ahead, _, noted, _ => atom a (ahead.push noted)
  | look l, _, _, _ => look l
  | group name m, moved, noted, c =>
    let leave := Mark.leave name c.after
    group name (m.latchTrial (moved.mark leave) (noted.map (.mark leave)) c)
  | cat m k, moved, noted, c =>
    let between := k.trial moved c
    cat (m.latchTrial between between.fresh c) (k.latchTrial moved noted c)
  | alt choice m k, moved, noted, c =>
    alt choice (m.latchTrial moved noted c) (k.latchTrial moved noted c)
  | plus choice greedy m, moved, _, c =>
    let turn := Trial.once choice (.prefer greedy (m.trial (.settled none) c) moved)
    plus choice greedy (m.latchTrial turn turn.fresh c)
  | star choice greedy m, moved, _, c =>
    let turn := Trial.once choice (.prefer greedy (m.trial (.settled none) c) moved)
    star choice greedy (m.latchTrial turn turn.fresh c)
  | loose choice greedy m, moved, _, c =>
    let turn := Trial.once choice (.prefer greedy (m.trial (.settled none) c) moved)
    loose choice greedy (m.latchTrial turn turn.fresh c)

/-! ### Outside of loose loops -/

/-- The outcome at a place; `still` is how the match goes on if nothing is taken up. -/
def value : Machine → Option Outcome → Cursor → Option Outcome
  | empty, still, _ => still
  | atom a ahead, _, c =>
    match a.width? c.after with
    | some width => ahead.get width
    | none => none
  | look l, still, c => if l.holds c then still else none
  | group name m, still, c =>
    (m.value (still.map (.mark (.leave name c.after))) c).map (.mark (.enter name c.after))
  | cat m k, still, c => m.value (k.value still c) c
  | alt _ m k, still, c => (m.value still c).or (k.value still c)
  | plus _ _ m, _, c => m.value none c
  | star _ greedy m, still, c => prefer greedy (m.value none c) still
  | loose choice greedy m, still, c =>
    ((loose choice greedy m).trial (.settled still) c).fresh

/-- Notes how matches go on from a place; `moved` is how they go on behind the whole machine. -/
def latch : Machine → Option Outcome → Cursor → Machine
  | empty, _, _ => empty
  | atom a ahead, moved, _ => atom a (ahead.push moved)
  | look l, _, _ => look l
  | group name m, moved, c => group name (m.latch (moved.map (.mark (.leave name c.after))) c)
  | cat m k, moved, c => cat (m.latch (k.value moved c) c) (k.latch moved c)
  | alt choice m k, moved, c => alt choice (m.latch moved c) (k.latch moved c)
  | plus choice greedy m, moved, c =>
    plus choice greedy (m.latch (prefer greedy (m.value none c) moved) c)
  | star choice greedy m, moved, c =>
    star choice greedy (m.latch (prefer greedy (m.value none c) moved) c)
  | loose choice greedy m, moved, c => (loose choice greedy m).latchTrial (.settled moved) moved c

/-- The outcome at a place together with the machine that has noted it, if `out` is how the match
goes on behind the whole machine. -/
def visit : Machine → Option Outcome → Cursor → Option Outcome × Machine
  | empty, out, _ => (out, empty)
  | atom a ahead, out, c => ((atom a ahead).value out c, atom a (ahead.push out))
  | look l, out, c => ((look l).value out c, look l)
  | group name m, out, c =>
    let (here, m) := m.visit (out.map (.mark (.leave name c.after))) c
    (here.map (.mark (.enter name c.after)), group name m)
  | cat m k, out, c =>
    let (between, k) := k.visit out c
    let (here, m) := m.visit between c
    (here, cat m k)
  | alt choice m k, out, c =>
    let (first, m) := m.visit out c
    let (second, k) := k.visit out c
    (first.or second, alt choice m k)
  | plus choice greedy m, out, c =>
    let round := m.value none c
    (round, plus choice greedy (m.visit (prefer greedy round out) c).2)
  | star choice greedy m, out, c =>
    let here := prefer greedy (m.value none c) out
    (here, star choice greedy (m.visit here c).2)
  | loose choice greedy m, out, c =>
    ((loose choice greedy m).value out c, (loose choice greedy m).latch out c)

theorem visit_eq (m : Machine) (out : Option Outcome) (c : Cursor) :
    m.visit out c = (m.value out c, m.latch out c) := by
  induction m generalizing out with
  | empty | atom _ _ | look _ | loose _ _ _ _ => rfl
  | group name m ih => simp only [visit, ih, value, latch]
  | cat m k ihm ihk => simp only [visit, ihm, ihk, value, latch]
  | alt choice m k ihm ihk => simp only [visit, ihm, ihk, value, latch]
  | plus choice greedy m ih => simp only [visit, ih, value, latch]
  | star choice greedy m ih => simp only [visit, ih, value, latch]

/-- Visits a place and all places before it, keeping the leftmost match. -/
def sweep (m : Machine) (best : Option Found) : List UInt8 → List UInt8 → Option Found
  | before, after =>
    let c : Cursor := ⟨before, after⟩
    let (here, m) := m.visit (some (.finish c)) c
    let best := (here.map (Found.mk after)).or best
    match before with
    | [] => best
    | b :: before => sweep m best before (b :: after)

/-- The leftmost match in a byte string. -/
def search (m : Machine) (haystack : List UInt8) : Option Found :=
  m.sweep none haystack.reverse []

end Machine

end MudDialogue.Pattern
