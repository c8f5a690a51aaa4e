/-!
# Fair choice from random words

A source of randomness gives 32-bit words. To pick one of `n` things, a word is multiplied by `n`:
the high half of the product is the pick, and the low half tells whether the word counts. Words
whose low half lies beyond the greatest multiple of `n` by a power of two are passed over, so every
pick is made by equally many words.
-/

namespace MudDialogue

/-- A source of random words: those still to come, after which there are only zeros, and how many
have been drawn. -/
structure WordSource where
  /-- The words to come, before the zeros. -/
  words : List UInt32
  /-- How many words have been drawn. -/
  drawn : Nat
deriving DecidableEq, Repr

namespace Dice

/-- The least low half with which a word does not count: `n` times the greatest power of two for
which the product is below 2³². -/
def bound (n : Nat) : Nat := n <<< (31 - n.log2)

/-- A word counts in a pick of one of `n` things. -/
def accepts (n : Nat) (word : UInt32) : Bool := word.toNat * n % UInt32.size < bound n

/-- The pick that a word makes. -/
def index (n : Nat) (word : UInt32) : Nat := word.toNat * n / UInt32.size

end Dice

namespace WordSource

/-- A source that gives the words and has not been drawn from. -/
def ofList (words : List UInt32) : WordSource := ⟨words, 0⟩

/-- Draws words until one counts. Zero always counts, so the words to come are enough. -/
def pickFrom (n : Nat) : List UInt32 → Nat → Nat × WordSource
  | [], drawn => (Dice.index n 0, ⟨[], drawn + 1⟩)
  | word :: words, drawn =>
    if Dice.accepts n word then (Dice.index n word, ⟨words, drawn + 1⟩)
    else pickFrom n words (drawn + 1)

/-- Picks one of `n` things. -/
def pick (n : Nat) (s : WordSource) : Nat × WordSource := pickFrom n s.words s.drawn

/-- Picks a member of a list; from an empty list nothing is picked and nothing drawn. -/
def choose? {α : Type} (s : WordSource) (xs : List α) : Option α × WordSource :=
  match xs with
  | [] => (none, s)
  | x :: rest =>
    let (i, s) := s.pick (rest.length + 1)
    ((x :: rest)[i]?, s)

end WordSource

end MudDialogue
