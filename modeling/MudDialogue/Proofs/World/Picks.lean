import MudDialogue.World.Exits

/-!
# What is picked and what is drawn for it

A pick from a list is one of its members, and at least one word is drawn for it; when there is
nothing to pick from, nothing is picked and nothing drawn.

## Main results

* `WordSource.choose?_cases` — a pick from a list.
* `Exits.choose?_cases` — a pick from the exits of a room.
-/

namespace MudDialogue

/-- An index is below the number of things. -/
theorem Dice.index_lt {n : Nat} (hn : 0 < n) (word : UInt32) : index n word < n := by
  rw [index, Nat.div_lt_iff_lt_mul (by decide), Nat.mul_comm n]
  exact Nat.mul_lt_mul_of_pos_right word.toNat_lt hn

namespace WordSource

theorem pickFrom_fst_lt {n : Nat} (hn : 0 < n) (words : List UInt32) (drawn : Nat) :
    (pickFrom n words drawn).1 < n := by
  induction words generalizing drawn with
  | nil => exact Dice.index_lt hn 0
  | cons word words ih =>
    rw [pickFrom]
    split
    · exact Dice.index_lt hn word
    · exact ih (drawn + 1)

theorem lt_drawn_pickFrom (n : Nat) (words : List UInt32) (drawn : Nat) :
    drawn < (pickFrom n words drawn).2.drawn := by
  induction words generalizing drawn with
  | nil => exact Nat.lt_succ_self drawn
  | cons word words ih =>
    rw [pickFrom]
    split
    · exact Nat.lt_succ_self drawn
    · exact Nat.lt_of_succ_lt (ih (drawn + 1))

/-- **A pick from a list** is a member of it for which at least one word is drawn, or there is no
member. -/
theorem choose?_cases {α : Type} (source : WordSource) (xs : List α) :
    (xs = [] ∧ source.choose? xs = (none, source)) ∨
      ∃ x ∈ xs, (source.choose? xs).1 = some x ∧ source.drawn < (source.choose? xs).2.drawn := by
  cases xs with
  | nil => exact .inl ⟨rfl, rfl⟩
  | cons x xs =>
    have hlt : (source.pick (xs.length + 1)).1 < (x :: xs).length :=
      pickFrom_fst_lt (Nat.succ_pos _) _ _
    refine .inr ⟨(x :: xs)[(source.pick (xs.length + 1)).1], List.getElem_mem hlt, ?_, ?_⟩
    · exact List.getElem?_eq_getElem hlt
    · exact lt_drawn_pickFrom _ _ _

end WordSource

/-- **A pick from the exits of a room.** -/
theorem Exits.choose?_cases (exits : Exits) (source : WordSource) :
    (exits.toList = [] ∧ exits.choose? source = (none, source)) ∨
      ∃ d ∈ exits.toList, (exits.choose? source).1 = some d ∧
        source.drawn < (exits.choose? source).2.drawn :=
  source.choose?_cases exits.toList

end MudDialogue
