import MudDialogue.Dice
import MudDialogue.World.Direction

/-!
# The exits of a room

A set of compass directions. Its members are listed in the order of the server, however they came
into the set.
-/

namespace MudDialogue

/-- A set of directions. -/
@[ext] structure Exits where
  /-- The room has this exit. -/
  contains : Direction → Bool

namespace Exits

/-- No exits. -/
def empty : Exits := ⟨fun _ => false⟩

/-- One more exit. -/
def insert (s : Exits) (d : Direction) : Exits := ⟨fun e => e == d || s.contains e⟩

/-- The exits of a list, in any order and however often each of them stands there. -/
def ofList (ds : List Direction) : Exits := ds.foldl insert empty

/-- The exits in the order of the server. -/
def toList (s : Exits) : List Direction := Direction.all.filter s.contains

/-- How many exits there are. -/
def size (s : Exits) : Nat := s.toList.length

/-- There are no exits. -/
def isEmpty (s : Exits) : Bool := s.toList.isEmpty

/-- Picks an exit, all with the same chance. -/
def choose? (s : Exits) (source : WordSource) : Option Direction × WordSource :=
  source.choose? s.toList

@[simp] theorem contains_empty (d : Direction) : empty.contains d = false := rfl

@[simp] theorem contains_insert (s : Exits) (d e : Direction) :
    (s.insert d).contains e = (e == d || s.contains e) := rfl

@[simp] theorem mem_toList {s : Exits} {d : Direction} : d ∈ s.toList ↔ s.contains d = true := by
  simp [toList, Direction.mem_all]

theorem contains_ofList (ds : List Direction) (d : Direction) :
    (ofList ds).contains d = ds.contains d := by
  have h (s : Exits) : (ds.foldl insert s).contains d = (ds.contains d || s.contains d) := by
    induction ds generalizing s with
    | nil => simp
    | cons e ds ih =>
      rw [List.foldl_cons, ih, contains_insert, List.contains_cons, ← Bool.or_assoc,
        Bool.or_comm (d == e)]
  simp [ofList, h]

theorem toList_injective {s t : Exits} (h : s.toList = t.toList) : s = t := by
  ext d
  rw [Bool.eq_iff_iff, ← mem_toList, ← mem_toList, h]

instance : DecidableEq Exits := fun s t =>
  decidable_of_iff (s.toList = t.toList) ⟨toList_injective, fun h => h ▸ rfl⟩

end Exits

end MudDialogue
