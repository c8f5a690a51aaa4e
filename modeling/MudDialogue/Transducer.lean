/-!
# Transducers

A transducer reads a stream item by item, keeps a state between items and gives out a list of
results for each. The two automata that clean server output, the telnet filter and the terminal
filter, are both run this way, so that what they do to a stream does not depend on where the stream
is cut (`run_append`).

## Main definitions

* `Transducer.run` — a stream fed to the automaton item by item.

## Main results

* `Transducer.run_append` — a stream may be cut anywhere.
-/

namespace MudDialogue.Transducer

variable {σ α β : Type}

/-- Feeds the items one after another to `step`; the result is the last state and everything given
out on the way, in order. -/
def run (step : σ → α → σ × List β) : σ → List α → σ × List β
  | s, [] => (s, [])
  | s, x :: xs =>
    let (t, out) := step s x
    let (u, more) := run step t xs
    (u, out ++ more)

variable {step : σ → α → σ × List β}

@[simp] theorem run_nil (s : σ) : run step s [] = (s, []) := rfl

theorem run_cons (s : σ) (x : α) (xs : List α) :
    run step s (x :: xs) =
      ((run step (step s x).1 xs).1, (step s x).2 ++ (run step (step s x).1 xs).2) := rfl

@[simp] theorem run_singleton (s : σ) (x : α) : run step s [x] = step s x := by
  simp [run_cons]

/-- **A stream may be cut anywhere.** Running two parts one after the other, the second from the
state the first one left, is running their concatenation. -/
theorem run_append (s : σ) (xs ys : List α) :
    run step s (xs ++ ys) =
      ((run step (run step s xs).1 ys).1,
        (run step s xs).2 ++ (run step (run step s xs).1 ys).2) := by
  induction xs generalizing s with
  | nil => simp
  | cons x xs ih => simp [run_cons, ih]

end MudDialogue.Transducer
