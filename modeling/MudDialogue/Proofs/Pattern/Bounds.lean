import Mathlib.Algebra.Ring.Nat
import MudDialogue.Pattern.Room

/-!
# Bounds on the room that a pattern takes

How much room a class of characters takes depends on which states are remembered, and thereby on
everything that was laid out before. But a state that is remembered only saves room. So there is a
bound that depends on the pattern alone: what it would take if no state was ever shared.

Alternatives are left out here: there is no bound for a pattern with a bar in it.

## Main definitions

* `Room.Grows` — a step takes no more than so many bytes.
* `Form.most?` — the most bytes that a pattern can take.

## Main results

* `Form.grows_lay` — a pattern takes no more.
* `Form.fits_of_most` — a pattern fits if what it can take does.
-/

namespace MudDialogue.Pattern

open Text

/-! ### Steps that take room -/

/-- A step takes no more than so many bytes, whatever is laid out before. -/
def Room.Grows (bytes : Nat) (step : Room → Room) : Prop :=
  ∀ room, (step room).size ≤ room.size + bytes

namespace Room.Grows

variable {m n : Nat} {step more : Room → Room}

theorem mono (h : Grows m step) (hle : m ≤ n) : Grows n step :=
  fun room => Nat.le_trans (h room) (Nat.add_le_add_left hle _)

theorem comp (h : Grows m step) (hmore : Grows n more) : Grows (m + n) (more ∘ step) := by
  intro room
  have hfirst := h room
  have hsecond := hmore (step room)
  simp only [Function.comp_apply]
  omega

theorem add (n : Nat) : Grows (32 * n) (·.add n) := fun _ => Nat.le_refl _

theorem fork (n : Nat) : Grows (32 + 4 * n) (·.fork n) :=
  fun room => Nat.le_of_eq (Nat.add_assoc room.size 32 (4 * n))

theorem read (n : Nat) : Grows (32 + 8 * n) (·.read n) :=
  fun room => Nat.le_of_eq (Nat.add_assoc room.size 32 (8 * n))

theorem copies (h : Grows m step) (n : Nat) : Grows (n * m) (Room.copies step n) := by
  induction n with
  | zero => exact fun _ => Nat.le_add_right _ _
  | succ n ih =>
    intro room
    rw [Room.copies]
    split
    · exact Nat.le_add_right _ _
    · have hfirst := h room
      have hrest := ih (step room)
      rw [Nat.succ_mul]
      omega

end Room.Grows

/-- What a step adds is bounded one by one. -/
theorem size_foldl_le {α β : Type} {step : β → α → β} (size : β → Nat) (most : α → Nat)
    (h : ∀ b a, size (step b a) ≤ size b + most a) (as : List α) (b : β) :
    size (as.foldl step b) ≤ size b + (as.map most).sum := by
  induction as generalizing b with
  | nil => exact Nat.le_refl _
  | cons a as ih =>
    have hfirst := h b a
    have hrest := ih (step b a)
    rw [List.foldl_cons, List.map_cons, List.sum_cons]
    omega

/-! ### Classes beyond ASCII -/

/-- What the states that read byte strings from front to back take if none of them is shared. -/
def readersMost : Nat → List (List ByteRange) → Nat
  | 0, _ => 0
  | depth + 1, strings =>
    ((byFront strings).map fun entry => readersMost depth entry.2 + 8).sum + 32

theorem size_layReaders_le (target depth : Nat) (strings : List (List ByteRange))
    (memory : Memory Reader) (room : Room) :
    (layReaders target depth strings memory room).2.2.size ≤
      room.size + readersMost depth strings := by
  induction depth generalizing strings memory room with
  | zero => exact Nat.le_refl _
  | succ depth ih =>
    rw [layReaders]
    generalize hread : List.foldl _ _ (byFront strings) = read
    -- each range that is read takes room in its state and leads to further states
    have hsize : read.2.2.size + 8 * read.1.length ≤ room.size + 8 * 0 +
        ((byFront strings).map fun entry => readersMost depth entry.2 + 8).sum := by
      rw [← hread]
      refine size_foldl_le (fun b : Reader × Memory Reader × Room => b.2.2.size + 8 * b.1.length)
        (fun entry : ByteRange × List (List ByteRange) => readersMost depth entry.2 + 8)
        (fun b entry => ?_) _ _
      obtain ⟨reader, memory, room⟩ := b
      obtain ⟨range, tails⟩ := entry
      have htails := ih tails memory room
      dsimp only
      generalize layReaders target depth tails memory room = next at htails ⊢
      obtain ⟨state, memory', room'⟩ := next
      cases tails.all List.isEmpty <;>
        simp only [Bool.false_eq_true, ↓reduceIte, List.length_append,
          List.length_singleton] at htails ⊢ <;> omega
    obtain ⟨reader, memory', room'⟩ := read
    dsimp only at hsize ⊢
    rw [readersMost]
    split
    · simp only; omega
    · simp only [Room.read]; omega

/-- A byte string that is read from back to front takes a state for each byte at most. -/
theorem size_layString_le (memory : Memory (Nat × ByteRange)) (room : Room) (target : Nat)
    (string : List ByteRange) :
    (layString memory room target string).2.2.size ≤ room.size + 32 * string.length := by
  induction string generalizing memory room target with
  | nil => exact Nat.le_refl _
  | cons range string ih =>
    obtain ⟨low, high⟩ := range
    rw [layString]
    split
    · next state _ =>
      have hrest := ih memory room state
      simp only [List.length_cons]
      omega
    · have hrest := ih (memory.keep (memory.slot [target, low, high]) (target, low, high)
        room.states) (room.add 1) room.states
      simp only [Room.add] at hrest
      simp only [List.length_cons, Room.add]
      omega

/-- The byte strings of a class. -/
def classStrings (set : CodeSet) : List (List ByteRange) :=
  set.flatMap fun range => byteRanges range.1 range.2

/-- The most bytes that a class of characters can take. -/
def scalarsMost (backward : Bool) (set : CodeSet) : Nat :=
  if set.isAscii then 32 + (32 + 8 * set.length)
  else if backward then
    32 + 4 * (classStrings set).length + 32 + ((classStrings set).map (32 * ·.length)).sum
  else 32 + readersMost 4 (classStrings set)

theorem grows_layScalars (backward : Bool) (set : CodeSet) :
    Room.Grows (scalarsMost backward set) (layScalars backward set) := by
  intro room
  rw [layScalars, scalarsMost]
  generalize hstrings : set.flatMap _ = strings
  obtain rfl : classStrings set = strings := hstrings
  split
  · exact (Room.Grows.add 1).comp (Room.Grows.read set.length) room
  split
  · dsimp only
    refine Nat.le_trans (size_foldl_le (fun b : Memory (Nat × ByteRange) × Room => b.2.size)
      (32 * ·.length) (fun b string => ?_) _ _) ?_
    · exact size_layString_le b.1 b.2 _ string
    · simp only [Room.fork, Room.add]
      omega
  · have hread := size_layReaders_le room.states 4 (classStrings set) ⟨10000, {}⟩ (room.add 1)
    simp only [Room.add] at hread ⊢
    omega

/-! ### Patterns -/

namespace Form

/-- The most bytes that a pattern can take, laid out in one direction; none is known for a pattern
with a bar in it. -/
def most? (backward : Bool) : Form → Option Nat
  | empty | look _ => some 32
  | literal bs => some (32 * bs.length)
  | scalars set => some (scalarsMost backward set)
  | bytes set => some (32 + (32 + 8 * set.length))
  | group _ _ f => (f.most? backward).map (· + 64)
  | cat f g => do return (← f.most? backward) + (← g.most? backward)
  | rounds least most? _ f => do
    return (least + most?.getD 0 + 2) * ((← f.most? backward) + 40) + 104
  | alt _ _ => none

/-- A repetition lays out its part as often as it may be repeated, with a fork at each round. -/
theorem grows_lay_rounds {backward : Bool} {f : Form} {m least : Nat} {most? : Option Nat}
    {greedy : Bool} (h : Room.Grows m (f.lay backward .first)) :
    Room.Grows ((least + most?.getD 0 + 2) * (m + 40) + 104)
      ((rounds least most? greedy f).lay backward .first) := by
  have honce : Room.Grows (m + 40) fun room => f.lay backward .first (room.fork 2) :=
    ((Room.Grows.fork 2).comp h).mono (by omega)
  have hleast : least * m ≤ least * (m + 40) := Nat.mul_le_mul_left least (Nat.le_add_right m 40)
  have hall : (least + most?.getD 0 + 2) * (m + 40) =
      least * (m + 40) + most?.getD 0 * (m + 40) + 2 * (m + 40) := by
    rw [Nat.add_mul, Nat.add_mul]
  have hexactly : Room.Grows (least * m + 32) fun room =>
      if least = 0 then room.add 1 else room.copies (f.lay backward .first) least := by
    by_cases hzero : least = 0
    · simpa only [hzero, if_true] using (Room.Grows.add 1).mono (by omega)
    · simpa only [hzero, if_false] using (h.copies least).mono (by omega)
  rw [hall]
  intro room
  simp only [lay, Rank.finish]
  split
  · exact (honce.comp (.add 1)).mono (by omega) room
  · split
    · exact honce.mono (by omega) room
    · exact (((h.comp (.fork 2)).comp (.fork 2)).comp (.add 1)).mono (by omega) room
  · exact ((h.copies least).comp (.fork 2)).mono (by omega) room
  · next _ _ most _ =>
    rw [Option.getD_some]
    split
    · exact hexactly.mono (by omega) room
    · have hmore : (most - least) * (m + 40) ≤ most * (m + 40) :=
        Nat.mul_le_mul_right (m + 40) (Nat.sub_le most least)
      exact ((hexactly.comp (.add 1)).comp (honce.copies (most - least))).mono (by omega) room

/-- **A pattern takes no more.** -/
theorem grows_lay {backward : Bool} {f : Form} {n : Nat} (h : f.most? backward = some n) :
    Room.Grows n (f.lay backward .first) := by
  induction f generalizing n with
  | empty | look l =>
    obtain rfl := Option.some.inj h
    exact .add 1
  | literal bs =>
    obtain rfl := Option.some.inj h
    exact .add bs.length
  | scalars set =>
    obtain rfl := Option.some.inj h
    exact grows_layScalars backward set
  | bytes set =>
    obtain rfl := Option.some.inj h
    exact (Room.Grows.add 1).comp (.read set.length)
  | group number name? f ih =>
    obtain ⟨m, hm, rfl⟩ := Option.map_eq_some_iff.mp h
    cases backward with
    | true => exact (ih hm).mono (Nat.le_add_right m 64)
    | false =>
      have hgroup := ((Room.Grows.add 1).comp (ih hm)).comp (.add 1)
      exact hgroup.mono (by omega)
  | cat f g ihf ihg =>
    obtain ⟨m, hm, h⟩ := Option.bind_eq_some_iff.mp h
    obtain ⟨k, hk, h⟩ := Option.bind_eq_some_iff.mp h
    obtain rfl := Option.some.inj h
    cases backward with
    | true => exact ((ihg hk).comp (ihf hm)).mono (Nat.le_of_eq (Nat.add_comm k m))
    | false => exact (ihf hm).comp (ihg hk)
  | alt f g => cases h
  | rounds least most? greedy f ih =>
    obtain ⟨m, hm, h⟩ := Option.bind_eq_some_iff.mp h
    obtain rfl := Option.some.inj h
    exact grows_lay_rounds (ih hm)

theorem size_room_le {backward : Bool} {f : Form} {n : Nat} (h : f.most? backward = some n) :
    (f.room backward).size ≤ n + 240 := by
  have hgrows := grows_lay h
  rw [room]
  generalize hstart : (if (if backward then f.isBoundRight else f.isBoundLeft) then
    Room.start.add 1 else ((Room.start.fork 2).add 1).read 1) = start
  have hsize : start.size ≤ 112 := by
    rw [← hstart]
    split <;> split <;> decide
  have hlay := hgrows start
  have hnoted := hgrows (start.add 1)
  cases backward <;> simp only [Room.add, Bool.false_eq_true, ↓reduceIte] at hlay hnoted ⊢ <;>
    omega

/-- **A pattern fits if what it can take does.** -/
theorem fits_of_most {f : Form}
    (h : ∀ backward, (f.most? backward).any (· + 240 ≤ Room.limit)) : f.fits = true := by
  have hsize (backward : Bool) : (f.room backward).size ≤ Room.limit := by
    obtain ⟨n, hn, hle⟩ := Option.any_eq_true _ _ |>.mp (h backward)
    exact Nat.le_trans (size_room_le hn) (of_decide_eq_true hle)
  rw [fits, Bool.and_eq_true, decide_eq_true_eq, decide_eq_true_eq]
  exact ⟨hsize false, hsize true⟩

end Form

end MudDialogue.Pattern
