/-!
# Sets of code points

A set of code points, or of bytes, is given by its ranges in ascending order, with a gap between any
two of them. The tables of character properties are such sets, and so are the classes of patterns,
which combine them.

There is no character between U+D7FF and U+E000, so these two follow each other; ranges do not join
across the gap.

## Main results

* `CodeSet.contains_insert` — a range that is added brings its members.
* `CodeSet.contains_ofChars` — a set of given characters holds these.
-/

namespace MudDialogue.Text

/-- Ranges of code points, both ends included, in ascending order and with gaps between them. -/
abbrev CodeSet := List (Nat × Nat)

namespace CodeSet

/-- The greatest code point. -/
def lastScalar : Nat := 0x10FFFF

/-- The greatest byte. -/
def lastByte : Nat := 0xFF

/-- The code point lies in one of the ranges. -/
def contains : CodeSet → Nat → Bool
  | [], _ => false
  | (low, high) :: rest, code => low ≤ code && (code ≤ high || contains rest code)

/-- Nothing. -/
def empty : CodeSet := []

/-- One member. -/
def single (code : Nat) : CodeSet := [(code, code)]

/-- All members between two ends, both included. -/
def range (low high : Nat) : CodeSet := [(low, high)]

/-- Everything up to the last member. -/
def full (last : Nat) : CodeSet := [(0, last)]

/-- Adds a range. Ranges that overlap it or touch it become one with it. -/
def insert (low high : Nat) : CodeSet → CodeSet
  | [] => [(low, high)]
  | (l, h) :: rest =>
    if high + 1 < l then (low, high) :: (l, h) :: rest
    else if h + 1 < low then (l, h) :: insert low high rest
    else insert (min low l) (max high h) rest

/-- The members of either set. -/
def union (s t : CodeSet) : CodeSet := t.foldl (fun s r => s.insert r.1 r.2) s

/-- The given characters. -/
def ofChars (cs : List Char) : CodeSet := cs.foldl (fun s c => s.insert c.toNat c.toNat) empty

/-- The members of both sets. -/
def inter : CodeSet → CodeSet → CodeSet
  | [], _ => []
  | _, [] => []
  | (l, h) :: s, (l', h') :: t =>
    let rest := if h < h' then inter s ((l', h') :: t) else inter ((l, h) :: s) t
    if max l l' ≤ min h h' then (max l l', min h h') :: rest else rest
termination_by s t => s.length + t.length

/-- The character after a given one. -/
def next (code : Nat) : Nat := if code = 0xD7FF then 0xE000 else code + 1

/-- The character before a given one. -/
def previous (code : Nat) : Nat := if code = 0xE000 then 0xD7FF else code - 1

/-- The members of the first set that are not in the second. -/
def diff : CodeSet → CodeSet → CodeSet
  | [], _ => []
  | s, [] => s
  | (l, h) :: s, (l', h') :: t =>
    if h < l' then (l, h) :: diff s ((l', h') :: t)
    else if h' < l then diff ((l, h) :: s) t
    else
      let below := if l < l' then [(l, previous l')] else []
      below ++ if h' < h then diff ((next h', h) :: s) t else diff s ((l', h') :: t)
termination_by s t => s.length + t.length

/-- The members of exactly one of two sets. -/
def symmDiff (s t : CodeSet) : CodeSet := (s.union t).diff (s.inter t)

/-- What lies between ranges and behind the last of them, up to `last`; `high` is the end of the
range before. The ends of a gap are put in order, so the gap between U+D7FF and U+E000, which holds
no character, counts as these two. -/
def gaps (last high : Nat) : CodeSet → CodeSet
  | [] => if high < last then [(next high, last)] else []
  | (l, h) :: rest =>
    (min (next high) (previous l), max (next high) (previous l)) :: gaps last h rest

/-- Everything up to `last` that is outside a set. -/
def compl (last : Nat) : CodeSet → CodeSet
  | [] => full last
  | (l, h) :: rest => (if 0 < l then [(0, previous l)] else []) ++ gaps last h rest

/-- The set moved by a distance that is added to each member. -/
def raise (distance : Nat) (s : CodeSet) : CodeSet :=
  s.map fun (l, h) => (l + distance, h + distance)

/-- The set moved by a distance that is taken from each member. -/
def lower (distance : Nat) (s : CodeSet) : CodeSet :=
  s.map fun (l, h) => (l - distance, h - distance)

/-- A set together with the other case of each ASCII letter in it. -/
def foldAsciiCase (s : CodeSet) : CodeSet :=
  (s.union ((s.inter (range 0x41 0x5A)).raise 0x20)).union
    ((s.inter (range 0x61 0x7A)).lower 0x20)

/-- All members are ASCII. -/
def isAscii (s : CodeSet) : Bool := s.all fun (_, high) => high < 0x80

/-! ### Members -/

/-- The ranges start at `bound` or after it, ascend, and leave gaps. -/
def Above (bound : Nat) : CodeSet → Prop
  | [] => True
  | (low, high) :: rest => bound ≤ low ∧ low ≤ high ∧ Above (high + 2) rest

theorem Above.mono {a b : Nat} {s : CodeSet} (hab : a ≤ b) (h : Above b s) : Above a s := by
  cases s with
  | nil => trivial
  | cons r s => exact ⟨Nat.le_trans hab h.1, h.2⟩

theorem contains_eq_false_of_lt {bound code : Nat} {s : CodeSet} (h : Above bound s)
    (hlt : code < bound) : s.contains code = false := by
  cases s with
  | nil => rfl
  | cons r s =>
    have := h.1
    simp [contains, show ¬ r.1 ≤ code by omega]

theorem Above.insert {bound low high : Nat} {s : CodeSet} (h : Above bound s) (hlow : bound ≤ low)
    (hle : low ≤ high) : Above bound (s.insert low high) := by
  induction s generalizing bound low high with
  | nil => exact ⟨hlow, hle, trivial⟩
  | cons r s ih =>
    obtain ⟨h1, h2, h3⟩ := h
    rw [CodeSet.insert]
    split
    · exact ⟨hlow, hle, by omega, h2, h3⟩
    split
    · exact ⟨h1, h2, ih h3 (by omega) hle⟩
    · exact ih (h3.mono (by omega)) (by omega) (by omega)

/-- **A range that is added brings its members.** -/
theorem contains_insert {bound low high : Nat} {s : CodeSet} (h : Above bound s) (hle : low ≤ high)
    (code : Nat) : (s.insert low high).contains code =
      ((decide (low ≤ code) && decide (code ≤ high)) || s.contains code) := by
  induction s generalizing bound low high with
  | nil => simp [CodeSet.insert, contains]
  | cons r s ih =>
    obtain ⟨h1, h2, h3⟩ := h
    rw [CodeSet.insert]
    split
    · rw [contains]
      rename_i hgap
      by_cases hc : low ≤ code
      · by_cases hc' : code ≤ high <;> simp [hc, hc', contains]
      · simp [hc, contains, show ¬ r.1 ≤ code by omega]
    split
    · rename_i _ hgap
      rw [contains, ih h3 hle, contains]
      by_cases hc : r.1 ≤ code <;> by_cases hc' : code ≤ r.2 <;>
        by_cases hd : low ≤ code <;> simp [hc, hc', hd] <;> omega
    · rename_i hgap hgap'
      rw [ih h3 (by omega), contains]
      by_cases hlt : code < r.2 + 2
      · rw [contains_eq_false_of_lt h3 hlt]
        simp only [Bool.or_false, ← Bool.decide_and, ← Bool.decide_or, decide_eq_decide]
        omega
      · rw [show decide (r.1 ≤ code) = true by simp; omega]
        simp only [Bool.true_and, ← Bool.decide_and, ← Bool.or_assoc, ← Bool.decide_or]
        congr 1
        rw [decide_eq_decide]
        omega

theorem contains_foldl_insert {s : CodeSet} (h : Above 0 s) (cs : List Char) (code : Nat) :
    (cs.foldl (fun s c => s.insert c.toNat c.toNat) s).contains code ↔
      s.contains code ∨ ∃ c ∈ cs, c.toNat = code := by
  induction cs generalizing s with
  | nil => simp
  | cons c cs ih =>
    have hsame : c.toNat ≤ code ∧ code ≤ c.toNat ↔ c.toNat = code := by omega
    rw [List.foldl_cons, ih (h.insert (Nat.zero_le _) (Nat.le_refl _)),
      contains_insert h (Nat.le_refl _), Bool.or_eq_true, Bool.and_eq_true, decide_eq_true_eq,
      decide_eq_true_eq, hsame, or_assoc, or_left_comm]
    simp only [List.mem_cons, exists_eq_or_imp]

/-- A set of given characters holds these. -/
theorem contains_ofChars (cs : List Char) (c : Char) : (ofChars cs).contains c.toNat ↔ c ∈ cs := by
  have hempty : Above 0 empty := trivial
  rw [ofChars, contains_foldl_insert hempty]
  simp [empty, contains, Char.toNat_inj]

end CodeSet

end MudDialogue.Text
