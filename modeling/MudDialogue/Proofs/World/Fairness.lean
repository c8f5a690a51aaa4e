import Mathlib.Algebra.Order.Floor.Div
import Mathlib.Data.Set.Card
import Mathlib.Order.Interval.Finset.Nat
import MudDialogue.Proofs.World.Picks

/-!
# Every pick has the same chance

A word that counts in a pick of one of `n` things makes one pick, and as many words make the one
pick as the other: the words that make a pick are those whose product with `n` lies in an interval
that is as long as `n` times a power of two, and so there is that power of two of them. The power
is told by the zero bits before the first one bit of `n`.

## Main definitions

* `Dice.leadingZeros` — the zero bits before the first one bit of a number.
* `Dice.pick?` — the pick that a word makes, if it counts.
* `WordSource.word`, `WordSource.skip` — a source as a stream of words.
* `Exits.selects?` — the exit that a word selects, if it counts.

## Main results

* `Dice.ncard_pick` — how many words make a pick.
* `WordSource.exists_pick` — the first word that counts makes the pick.
* `Exits.choose_fair` — an exit is picked in the end, and all of them with the same chance.
-/

namespace MudDialogue

/-! ### Words that make a pick -/

namespace Dice

/-- How many of the 32 bits of a number are zeros before the first one. -/
def leadingZeros (n : Nat) : Nat := (BitVec.ofNat 32 n).clz.toNat

/-- The pick of one of `n` things that a word makes, if it counts. -/
def pick? (n : Nat) (word : UInt32) : Option Nat :=
  if accepts n word then some (index n word) else none

variable {n i : Nat} {word : UInt32}

/-- They are told by the place of the first one bit. -/
theorem leadingZeros_eq (hn : 0 < n) (hsize : n < UInt32.size) :
    leadingZeros n = 31 - n.log2 := by
  have hvalue : (BitVec.ofNat 32 n).toNat = n := Nat.mod_eq_of_lt hsize
  have hne : BitVec.ofNat 32 n ≠ 0#32 := fun h => hn.ne' (hvalue ▸ congrArg BitVec.toNat h)
  have hless : (BitVec.ofNat 32 n).toNat < 2 ^ (32 - leadingZeros n) :=
    BitVec.toNat_lt_two_pow_sub_clz
  have hle : 2 ^ (31 - leadingZeros n) ≤ (BitVec.ofNat 32 n).toNat :=
    BitVec.two_pow_sub_clz_le_toNat_of_ne_zero (by decide) hne
  rw [hvalue] at hless hle
  have hpos : 32 - leadingZeros n ≠ 0 := by
    intro h
    rw [h] at hless
    omega
  have hlog : n.log2 = 31 - leadingZeros n := by
    rw [Nat.log2_eq_iff hn.ne']
    refine ⟨hle, ?_⟩
    rwa [show 31 - leadingZeros n + 1 = 32 - leadingZeros n by omega]
  omega

/-- The words that count are those below the number itself, moved to the left of its 32 bits. -/
theorem bound_eq (hn : 0 < n) (hsize : n < UInt32.size) : bound n = n * 2 ^ leadingZeros n := by
  rw [bound, leadingZeros_eq hn hsize, Nat.shiftLeft_eq]

theorem bound_pos (hn : 0 < n) : 0 < bound n := by
  rw [bound, Nat.shiftLeft_eq]
  exact Nat.mul_pos hn (Nat.two_pow_pos _)

theorem bound_le (hsize : n < UInt32.size) : bound n ≤ UInt32.size := by
  rcases Nat.eq_zero_or_pos n with rfl | hn
  · decide
  · have hless : n.log2 < 32 := (Nat.log2_lt hn.ne').mpr hsize
    have hlog : n < 2 ^ (n.log2 + 1) := Nat.lt_log2_self
    calc bound n = n * 2 ^ (31 - n.log2) := Nat.shiftLeft_eq _ _
      _ ≤ 2 ^ (n.log2 + 1) * 2 ^ (31 - n.log2) := Nat.mul_le_mul_right _ hlog.le
      _ = 2 ^ 32 := by rw [← Nat.pow_add]; congr 1; omega

/-- Zero always counts. -/
theorem pick_zero (hn : 0 < n) : pick? n 0 = some (index n 0) := by
  have hzero : (0 : UInt32).toNat * n % UInt32.size = 0 := by simp
  rw [pick?, if_pos]
  rw [accepts, hzero]
  exact decide_eq_true (bound_pos hn)

theorem lt_of_pick (h : pick? n word = some i) : i < n := by
  obtain ⟨hcounts, hindex⟩ := Option.ite_none_right_eq_some.mp h
  rw [← Option.some.inj hindex]
  rcases Nat.eq_zero_or_pos n with rfl | hn
  · cases hcounts
  · exact index_lt hn word

/-- A word makes a pick if its product with `n` lies in the interval of the pick. -/
theorem pick_eq_some_iff (hsize : n < UInt32.size) : pick? n word = some i ↔
    i * UInt32.size ≤ n * word.toNat ∧ n * word.toNat < i * UInt32.size + bound n := by
  have hpos : 0 < UInt32.size := by decide
  have hle : bound n ≤ UInt32.size := bound_le hsize
  have hparts := Nat.div_add_mod (word.toNat * n) UInt32.size
  have hrest := Nat.mod_lt (word.toNat * n) hpos
  rw [pick?, Nat.mul_comm n]
  simp only [accepts, index, decide_eq_true_eq, Option.ite_none_right_eq_some, Option.some.injEq]
  generalize word.toNat * n = product at *
  constructor
  · rintro ⟨hcounts, rfl⟩
    rw [Nat.mul_comm] at hparts
    omega
  · rintro ⟨hfrom, hto⟩
    have hindex : product / UInt32.size = i :=
      (Nat.div_eq_iff hpos).mpr ⟨by omega, by omega⟩
    refine ⟨?_, hindex⟩
    rw [hindex, Nat.mul_comm] at hparts
    omega

/-- The multiples of `n` in an interval that is `k` times as long as `n` are those of `k` numbers in
a row. -/
theorem mem_Ico_ceilDiv (hn : 0 < n) {start k v : Nat} :
    v ∈ Finset.Ico (start ⌈/⌉ n) (start ⌈/⌉ n + k) ↔ start ≤ n * v ∧ n * v < start + n * k := by
  have hfirst (w : Nat) : start ⌈/⌉ n ≤ w ↔ start ≤ n * w := ceilDiv_le_iff_le_mul hn
  have hlast : start ⌈/⌉ n + k ≤ v ↔ start + n * k ≤ n * v := by
    by_cases hk : k ≤ v
    · obtain ⟨w, rfl⟩ := Nat.exists_eq_add_of_le' hk
      rw [Nat.add_le_add_iff_right, hfirst, Nat.mul_add, Nat.add_le_add_iff_right]
    · have hless : n * v < n * k := Nat.mul_lt_mul_of_pos_left (Nat.lt_of_not_le hk) hn
      omega
  rw [Finset.mem_Ico, hfirst, ← Nat.not_le, hlast, Nat.not_le]

/-- **Every pick is made by equally many words**: two to the number of leading zeros. -/
theorem ncard_pick (hsize : n < UInt32.size) (hi : i < n) :
    {word : UInt32 | pick? n word = some i}.ncard = 2 ^ leadingZeros n := by
  have hn : 0 < n := Nat.zero_lt_of_lt hi
  have himage : UInt32.toNat '' {word | pick? n word = some i} = Finset.Ico (i * UInt32.size ⌈/⌉ n)
      (i * UInt32.size ⌈/⌉ n + 2 ^ leadingZeros n) := by
    ext v
    rw [Finset.mem_coe, mem_Ico_ceilDiv hn, ← bound_eq hn hsize]
    constructor
    · rintro ⟨word, hword, rfl⟩
      exact (pick_eq_some_iff hsize).mp hword
    · rintro ⟨hfrom, hto⟩
      have hv : v < UInt32.size := by
        refine Nat.lt_of_mul_lt_mul_left (a := n) ?_
        calc n * v < i * UInt32.size + bound n := hto
          _ ≤ i * UInt32.size + UInt32.size := Nat.add_le_add_left (bound_le hsize) _
          _ = (i + 1) * UInt32.size := (Nat.succ_mul i UInt32.size).symm
          _ ≤ n * UInt32.size := Nat.mul_le_mul_right _ hi
      have hvalue : (UInt32.ofNat v).toNat = v := UInt32.toNat_ofNat_of_lt hv
      refine ⟨UInt32.ofNat v, (pick_eq_some_iff hsize).mpr ?_, hvalue⟩
      rw [hvalue]
      exact ⟨hfrom, hto⟩
  rw [← Set.ncard_image_of_injective _ fun _ _ => UInt32.toNat_inj.mp, himage, Set.ncard_coe_finset,
    Nat.card_Ico, Nat.add_sub_cancel_left]

end Dice

/-! ### Streams of words -/

namespace WordSource

variable {n : Nat}

/-- The words to come, one by one. -/
def word (s : WordSource) (k : Nat) : UInt32 := s.words.getD k 0

/-- The source behind so many words. -/
def skip (s : WordSource) (k : Nat) : WordSource := ⟨s.words.drop k, s.drawn + k⟩

theorem skip_cons (first : UInt32) (words : List UInt32) (drawn k : Nat) :
    skip ⟨first :: words, drawn⟩ (k + 1) = skip ⟨words, drawn + 1⟩ k := by
  rw [skip, skip, List.drop_succ_cons, Nat.add_right_comm, Nat.add_assoc]

/-- A source gives any words at first, and zeros in the end. -/
theorem exists_word_eq {stream : Nat → UInt32} {m : Nat} (hzero : ∀ k, m ≤ k → stream k = 0) :
    ∃ source : WordSource, source.word = stream := by
  refine ⟨.ofList ((List.range m).map stream), funext fun k => ?_⟩
  rw [word, ofList, List.getD_eq_getElem?_getD, List.getElem?_map]
  by_cases hk : k < m
  · rw [List.getElem?_range hk]
    rfl
  · rw [List.getElem?_eq_none (by rw [List.length_range]; omega), hzero k (Nat.le_of_not_lt hk)]
    rfl

/-- **The first word that counts makes the pick**, and there is one. -/
theorem exists_pick (hn : 0 < n) (source : WordSource) :
    ∃ k i, (∀ j < k, Dice.pick? n (source.word j) = none) ∧
      Dice.pick? n (source.word k) = some i ∧ source.pick n = (i, source.skip (k + 1)) := by
  obtain ⟨words, drawn⟩ := source
  induction words generalizing drawn with
  | nil => exact ⟨0, Dice.index n 0, nofun, Dice.pick_zero hn, rfl⟩
  | cons first words ih =>
    by_cases hcounts : Dice.accepts n first
    · exact ⟨0, Dice.index n first, nofun, if_pos hcounts, if_pos hcounts⟩
    · obtain ⟨k, i, hearlier, hpick, heq⟩ := ih (drawn + 1)
      refine ⟨k + 1, i, ?_, hpick, ?_⟩
      · rintro (_ | j) hj
        · exact if_neg hcounts
        · exact hearlier j (Nat.lt_of_succ_lt_succ hj)
      · rw [skip_cons, ← heq]
        exact if_neg hcounts

end WordSource

/-! ### Picks of an exit -/

namespace Exits

/-- The exit that a word selects, if it counts. -/
def selects? (s : Exits) (word : UInt32) : Option Direction :=
  (Dice.pick? s.size word).bind (s.toList[·]?)

variable {s : Exits} {d : Direction} {word : UInt32}

theorem size_lt (s : Exits) : s.size < UInt32.size :=
  Nat.lt_of_le_of_lt (List.length_filter_le _ Direction.all) (by decide)

theorem nodup_toList (s : Exits) : s.toList.Nodup := Direction.nodup_all.filter _

/-- A word selects the exit at a place of the list just if the place is its pick. -/
theorem selects_eq_some_iff {i : Nat} (hi : s.toList[i]? = some d) :
    s.selects? word = some d ↔ Dice.pick? s.size word = some i := by
  obtain ⟨hless, -⟩ := List.getElem?_eq_some_iff.mp hi
  rw [selects?, Option.bind_eq_some_iff]
  constructor
  · rintro ⟨j, hpick, hj⟩
    rw [hpick, (List.getElem?_inj hless s.nodup_toList).mp (hi.trans hj.symm)]
  · exact fun hpick => ⟨i, hpick, hi⟩

/-- A word that counts selects an exit. -/
theorem selects_of_pick {i : Nat} (h : Dice.pick? s.size word = some i) :
    ∃ d, s.toList[i]? = some d ∧ s.selects? word = some d := by
  have hless : i < s.toList.length := Dice.lt_of_pick h
  have hi : s.toList[i]? = some s.toList[i] := List.getElem?_eq_getElem hless
  exact ⟨_, hi, (selects_eq_some_iff hi).mpr h⟩

theorem mem_of_selects (h : s.selects? word = some d) : s.contains d = true := by
  obtain ⟨i, -, hi⟩ := Option.bind_eq_some_iff.mp h
  exact mem_toList.mp (List.mem_of_getElem? hi)

/-- **What the first word that counts selects is picked**, and there is one. -/
theorem exists_choose (h : s.toList ≠ []) (source : WordSource) :
    ∃ k d, (∀ j < k, s.selects? (source.word j) = none) ∧ s.selects? (source.word k) = some d ∧
      s.choose? source = (some d, source.skip (k + 1)) := by
  obtain ⟨k, i, hearlier, hpick, heq⟩ := source.exists_pick (List.length_pos_iff.mpr h)
  obtain ⟨d, hi, hselects⟩ := selects_of_pick hpick
  refine ⟨k, d, fun j hj => ?_, hselects, ?_⟩
  · exact Option.bind_eq_none_iff.mpr fun i hi => nomatch (hearlier j hj).symm.trans hi
  · rw [choose?]
    generalize hexits : s.toList = exits at *
    cases exits with
    | nil => exact absurd rfl h
    | cons first exits =>
      have hlength : (first :: exits).length = exits.length + 1 := rfl
      rw [hlength] at heq
      rw [WordSource.choose?, heq, ← hi]

/-- **As many words select the one exit as the other.** -/
theorem ncard_selects (h : s.contains d = true) :
    {word | s.selects? word = some d}.ncard = 2 ^ Dice.leadingZeros s.size := by
  obtain ⟨i, hless, hi⟩ := List.mem_iff_getElem.mp (mem_toList.mpr h)
  have hplace : s.toList[i]? = some d := List.getElem?_eq_some_iff.mpr ⟨hless, hi⟩
  simp only [selects_eq_some_iff hplace]
  exact Dice.ncard_pick s.size_lt hless

/-- **How an exit is picked** from the exits of any list of directions. Nothing is picked and
nothing drawn if there are none. Otherwise words are drawn, at least one, from any stream that is
zero in the end, and the first word that counts selects the pick. A word counts if the low half of
its product with the number of exits is below that number moved to the left of its 32 bits, and then
the high half is the place of the exit that it selects. As many words select the one exit as the
other: two to the number of zero bits before the number of exits. -/
theorem choose_fair (directions : List Direction) :
    let s := ofList directions
    let zeros := Dice.leadingZeros s.size
    (∀ d, s.contains d = true ↔ d ∈ directions) ∧
    (∀ stream : Nat → UInt32, (∃ m, ∀ k, m ≤ k → stream k = 0) →
      ∃ source : WordSource, source.word = stream) ∧
    (∀ source, s.choose? source = (none, source) ↔ directions = []) ∧
    (directions ≠ [] → ∀ source : WordSource, ∃ k, ∃ d ∈ directions,
      s.choose? source = (some d, source.skip (k + 1)) ∧
        (∀ j < k, s.selects? (source.word j) = none) ∧ s.selects? (source.word k) = some d) ∧
    (directions ≠ [] → ∀ word, s.selects? word =
      if word.toNat * s.size % 2 ^ 32 ≤ s.size <<< zeros - 1
        then s.toList[word.toNat * s.size / 2 ^ 32]? else none) ∧
    (∀ word d, s.selects? word = some d → d ∈ directions) ∧
    ∀ d ∈ directions, {word | s.selects? word = some d}.ncard = 2 ^ zeros := by
  intro s zeros
  have hmem (d : Direction) : s.contains d = true ↔ d ∈ directions := by
    rw [contains_ofList, List.contains_iff_mem]
  have hempty : s.toList = [] ↔ directions = [] := by
    simp only [List.eq_nil_iff_forall_not_mem, mem_toList, hmem]
  refine ⟨hmem, fun stream hstream => ?_, fun source => ?_, fun hne source => ?_,
    fun hne word => ?_, fun word d h => (hmem d).mp (mem_of_selects h),
    fun d hd => ncard_selects ((hmem d).mpr hd)⟩
  · obtain ⟨m, hzero⟩ := hstream
    exact WordSource.exists_word_eq hzero
  · rw [← hempty]
    constructor
    · intro hnone
      by_contra hne
      obtain ⟨k, d, -, -, hsome⟩ := exists_choose hne source
      cases hsome.symm.trans hnone
    · intro hnil
      rw [choose?, hnil, WordSource.choose?]
  · obtain ⟨k, d, hearlier, hselects, hchoose⟩ := exists_choose (mt hempty.mp hne) source
    exact ⟨k, d, (hmem d).mp (mem_of_selects hselects), hchoose, hearlier, hselects⟩
  · have hpos : 0 < s.size := List.length_pos_iff.mpr (mt hempty.mp hne)
    have hbound : Dice.bound s.size = s.size <<< zeros := by
      rw [Dice.bound_eq hpos s.size_lt, Nat.shiftLeft_eq]
    have hcounts : Dice.accepts s.size word ↔
        word.toNat * s.size % 2 ^ 32 ≤ s.size <<< zeros - 1 := by
      rw [Dice.accepts, decide_eq_true_eq, hbound, ← Nat.le_sub_one_iff_lt]
      · rfl
      · exact hbound ▸ Dice.bound_pos hpos
    rw [selects?, Dice.pick?]
    simp only [hcounts]
    split_ifs <;> rfl

end Exits

end MudDialogue
