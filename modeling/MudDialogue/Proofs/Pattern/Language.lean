import MudDialogue.Pattern.Prompts
import MudDialogue.Proofs.Text.Utf8

/-!
# The words of a plain pattern

A plain pattern asks for nothing but the bytes that it takes up and, perhaps, that the text ends
behind them. Where in a text it matches, and in which order its ways to match are tried, depends on
much; that it matches at all does not. It does just if the text ends with one of its words and what
may stand behind the word, whatever comes before.

## Main definitions

* `Regex.isPlain` — no looks but at the end of the text, and no loops whose rounds may take up
  nothing.
* `Regex.Accepts` — the words of a plain regular expression, and what may stand behind them.
* `Cursor.Passes` — the way from one place to another over some bytes.

## Main results

* `Regex.isSome_run_iff` — a match succeeds over a word behind which the rest succeeds.
* `Regex.isSome_search_iff`, `Prompts.isSome_find_iff` — a text has a match just if there is a word
  in it.
-/

namespace MudDialogue.Pattern

open Text Text.Utf8

/-! ### Atoms -/

section Atoms

variable {a : Atom} {bytes : List UInt8} {n : Nat}

/-- What an atom takes up does not depend on the bytes behind. -/
theorem Atom.width_append (h : a.width? bytes = some n) (more : List UInt8) :
    a.width? (bytes ++ more) = some n := by
  cases bytes with
  | nil => cases a <;> cases h
  | cons b rest =>
    cases a with
    | byte accepts => exact h
    | scalar accepts =>
      have hcut : front b rest ≠ .cut := by
        intro hcut
        simp [Atom.width?, hcut] at h
      simpa only [List.cons_append, Atom.width?, front_append hcut] using h

theorem Atom.width_take (h : a.width? bytes = some n) : a.width? (bytes.take n) = some n := by
  obtain ⟨hpos, -, hle⟩ := Atom.width_bounds h
  obtain ⟨k, rfl⟩ := Nat.exists_eq_add_of_le' hpos
  cases bytes with
  | nil => cases a <;> cases h
  | cons b rest =>
    cases a with
    | byte accepts => exact h
    | scalar accepts =>
      cases hfront : front b rest with
      | invalid w => simp [Atom.width?, hfront] at h
      | cut => simp [Atom.width?, hfront] at h
      | scalar c w =>
        have hwidth : w = k + 1 := by
          simp only [Atom.width?, hfront] at h
          split_ifs at h
          exact Option.some.inj h
        subst hwidth
        have hle' : k ≤ rest.length := Nat.le_of_succ_le_succ hle
        have hwhole : front b (rest.take k ++ rest.drop k) = .scalar c (k + 1) := by
          rw [List.take_append_drop]
          exact hfront
        have hfirst : front b (rest.take k) = .scalar c (k + 1) := by
          refine front_of_append hwhole (Nat.le_of_eq ?_)
          rw [List.length_take, Nat.min_eq_left hle']
        simpa only [List.take_succ_cons, Atom.width?, hfirst, hfront] using h

end Atoms

/-! ### Places -/

/-- The way from one place to another is over the given bytes. -/
def Cursor.Passes (c : Cursor) (word : List UInt8) (d : Cursor) : Prop :=
  c.after = word ++ d.after ∧ d.before = word.reverse ++ c.before

namespace Cursor

variable {c d e : Cursor} {u v word : List UInt8}

@[simp] theorem passes_nil : c.Passes [] d ↔ d = c := by
  constructor
  · rintro ⟨hafter, hbefore⟩
    cases c
    cases d
    simp_all
  · rintro rfl
    exact ⟨rfl, rfl⟩

theorem Passes.trans (h : c.Passes u d) (h' : d.Passes v e) : c.Passes (u ++ v) e := by
  refine ⟨?_, ?_⟩
  · rw [h.1, h'.1, List.append_assoc]
  · rw [h'.2, h.2, List.reverse_append, List.append_assoc]

theorem exists_passes_of_append (h : c.Passes (u ++ v) e) : ∃ d, c.Passes u d ∧ d.Passes v e := by
  refine ⟨⟨u.reverse ++ c.before, v ++ e.after⟩, ⟨?_, rfl⟩, rfl, ?_⟩
  · rw [h.1, List.append_assoc]
  · rw [h.2, List.reverse_append, List.append_assoc]

theorem passes_forward {n : Nat} : c.Passes (c.after.take n) (c.forward n) :=
  ⟨(List.take_append_drop n c.after).symm, rfl⟩

theorem Passes.eq_forward (h : c.Passes word d) : d = c.forward word.length := by
  cases d
  obtain ⟨hafter, hbefore⟩ := h
  simp_all [forward]

theorem Passes.length_lt (h : c.Passes word d) (hword : word ≠ []) :
    d.after.length < c.after.length := by
  have hpos : 0 < word.length := List.length_pos_iff.mpr hword
  rw [h.1, List.length_append]
  omega

end Cursor

/-! ### Words -/

namespace Regex

/-- No looks but at the end of the text, and no loops whose rounds may take up nothing. -/
def isPlain : Regex → Bool
  | empty | atom _ => true
  | look l => l = .textEnd
  | loose _ _ => false
  | group _ r | plus _ r | star _ r => r.isPlain
  | cat r s | alt r s => r.isPlain && s.isPlain

/-- A plain regular expression takes up the word if the other bytes stand behind it. Every round of
a repetition takes something up. -/
inductive Accepts : Regex → List UInt8 → List UInt8 → Prop
  | empty {rest : List UInt8} : Accepts .empty [] rest
  | atom {a : Atom} {word rest : List UInt8} (h : a.width? word = some word.length) :
      Accepts (.atom a) word rest
  | textEnd : Accepts (.look .textEnd) [] []
  | group {name : String} {r : Regex} {word rest : List UInt8} (h : Accepts r word rest) :
      Accepts (.group name r) word rest
  | cat {r s : Regex} {u v rest : List UInt8} (hr : Accepts r u (v ++ rest))
      (hs : Accepts s v rest) : Accepts (.cat r s) (u ++ v) rest
  | altLeft {r s : Regex} {word rest : List UInt8} (h : Accepts r word rest) :
      Accepts (.alt r s) word rest
  | altRight {r s : Regex} {word rest : List UInt8} (h : Accepts s word rest) :
      Accepts (.alt r s) word rest
  | plus {greedy : Bool} {r : Regex} {u v rest : List UInt8} (hr : Accepts r u (v ++ rest))
      (hu : u ≠ []) (hv : Accepts (.star greedy r) v rest) : Accepts (.plus greedy r) (u ++ v) rest
  | done {greedy : Bool} {r : Regex} {rest : List UInt8} : Accepts (.star greedy r) [] rest
  | round {greedy : Bool} {r : Regex} {u v rest : List UInt8} (hr : Accepts r u (v ++ rest))
      (hu : u ≠ []) (hv : Accepts (.star greedy r) v rest) : Accepts (.star greedy r) (u ++ v) rest

variable {r s : Regex} {greedy : Bool} {word rest : List UInt8}

theorem accepts_cat_iff : (cat r s).Accepts word rest ↔
    ∃ u v, word = u ++ v ∧ r.Accepts u (v ++ rest) ∧ s.Accepts v rest := by
  constructor
  · intro h
    cases h with
    | cat hr hs => exact ⟨_, _, rfl, hr, hs⟩
  · rintro ⟨u, v, rfl, hr, hs⟩
    exact .cat hr hs

/-- One or more rounds are any number of rounds that take something up. -/
theorem accepts_plus_iff :
    (plus greedy r).Accepts word rest ↔ word ≠ [] ∧ (star greedy r).Accepts word rest := by
  constructor
  · intro h
    cases h with
    | plus hr hu hv => exact ⟨List.append_ne_nil_of_left_ne_nil hu _, .round hr hu hv⟩
  · rintro ⟨hne, h⟩
    cases h with
    | done => exact absurd rfl hne
    | round hr hu hv => exact .plus hr hu hv

theorem accepts_byte_iff {b : UInt8} :
    (atom (.byte (.single b.toNat))).Accepts word rest ↔ word = [b] := by
  have hwidth (first : UInt8) (others : List UInt8) :
      (Atom.byte (.single b.toNat)).width? (first :: others) =
        if first = b then some 1 else none := by
    simp only [Atom.width?, CodeSet.single, CodeSet.contains, Bool.or_false, Bool.and_eq_true,
      decide_eq_true_eq, ← UInt8.le_iff_toNat_le, UInt8.le_antisymm_iff (a := first), and_comm]
  constructor
  · intro h
    cases h with
    | atom h =>
      cases word with
      | nil => cases h
      | cons first others =>
        rw [hwidth] at h
        split_ifs at h with hfirst
        obtain rfl := List.eq_nil_of_length_eq_zero (Nat.succ.inj (Option.some.inj h)).symm
        rw [hfirst]
  · rintro rfl
    exact .atom (by rw [hwidth, if_pos rfl]; rfl)

theorem accepts_foldl_iff (bs : List UInt8) :
    ((bs.map fun b => atom (.byte (.single b.toNat))).foldl cat r).Accepts word rest ↔
      ∃ u, word = u ++ bs ∧ r.Accepts u (bs ++ rest) := by
  induction bs generalizing r with
  | nil => simp
  | cons b bs ih =>
    rw [List.map_cons, List.foldl_cons, ih]
    simp only [accepts_cat_iff, accepts_byte_iff]
    constructor
    · rintro ⟨_, rfl, u, _, rfl, hu, rfl⟩
      exact ⟨u, by simp, hu⟩
    · rintro ⟨u, rfl, hu⟩
      exact ⟨u ++ [b], by simp, u, [b], rfl, hu, rfl⟩

theorem isPlain_foldl (bs : List UInt8) :
    ((bs.map fun b => atom (.byte (.single b.toNat))).foldl cat r).isPlain = r.isPlain := by
  induction bs generalizing r with
  | nil => rfl
  | cons b bs ih =>
    rw [List.map_cons, List.foldl_cons, ih]
    exact Bool.and_true r.isPlain

theorem isPlain_literal (text : String) : (literal text).isPlain := by
  unfold literal Regex.bytes
  cases Utf8.bytes text with
  | nil => rfl
  | cons b bs => exact isPlain_foldl bs

/-- The only word of given bytes are the bytes themselves. -/
theorem accepts_bytes_iff {bs : List UInt8} :
    (Regex.bytes bs).Accepts word rest ↔ word = bs := by
  unfold Regex.bytes
  cases bs with
  | nil =>
    constructor
    · intro h
      cases h
      rfl
    · rintro rfl
      exact .empty
  | cons b bs =>
    rw [List.map_cons, concat, accepts_foldl_iff]
    simp only [accepts_byte_iff, exists_eq_right, List.singleton_append]

/-- The only word of a text is the text itself. -/
theorem accepts_literal_iff {text : String} :
    (literal text).Accepts word rest ↔ word = Utf8.bytes text := accepts_bytes_iff

/-- A word stays one if the text is cut off behind it. -/
theorem Accepts.of_append {more : List UInt8} (h : r.Accepts word (rest ++ more)) :
    r.Accepts word rest := by
  generalize hbehind : rest ++ more = behind at h
  induction h generalizing rest with
  | empty => exact .empty
  | atom h => exact .atom h
  | textEnd =>
    obtain ⟨rfl, -⟩ := List.append_eq_nil_iff.mp hbehind
    exact .textEnd
  | group h ih => exact .group (ih hbehind)
  | altLeft h ih => exact .altLeft (ih hbehind)
  | altRight h ih => exact .altRight (ih hbehind)
  | done => exact .done
  | cat hr hs ihr ihs =>
    exact .cat (ihr (by rw [List.append_assoc, hbehind])) (ihs hbehind)
  | plus hr hu hv ihr ihv =>
    exact .plus (ihr (by rw [List.append_assoc, hbehind])) hu (ihv hbehind)
  | round hr hu hv ihr ihv =>
    exact .round (ihr (by rw [List.append_assoc, hbehind])) hu (ihv hbehind)

end Regex

/-! ### Matches -/

theorem isSome_prefer (greedy : Bool) (more enough : Option Outcome) :
    (prefer greedy more enough).isSome ↔ more.isSome ∨ enough.isSome := by
  cases greedy <;> cases more <;> cases enough <;> simp [prefer]

/-- How a match succeeds: over the empty word, or over another one that leads to a place from which
it goes on. -/
def Regex.Succeeds (r : Regex) (still : Option Outcome) (moved : Continuation) (c : Cursor) :
    Prop :=
  (r.Accepts [] c.after ∧ still.isSome) ∨
    ∃ word d, word ≠ [] ∧ r.Accepts word d.after ∧ c.Passes word d ∧ (moved d).isSome

theorem Regex.succeeds_none_iff {r : Regex} {moved : Continuation} {c : Cursor} :
    r.Succeeds none moved c ↔
      ∃ word d, word ≠ [] ∧ r.Accepts word d.after ∧ c.Passes word d ∧ (moved d).isSome := by
  simp [Succeeds]

/-- A round and any number of further rounds are rounds that take something up. -/
theorem exists_round_iff {r : Regex} {greedy : Bool} {c : Cursor} {p : Cursor → Prop} :
    (∃ u d, u ≠ [] ∧ r.Accepts u d.after ∧ c.Passes u d ∧
      ∃ v e, (Regex.star greedy r).Accepts v e.after ∧ d.Passes v e ∧ p e) ↔
      ∃ word e, word ≠ [] ∧ (Regex.star greedy r).Accepts word e.after ∧ c.Passes word e ∧ p e := by
  constructor
  · rintro ⟨u, d, hu, hr, hpasses, v, e, hv, hrest, he⟩
    exact ⟨u ++ v, e, List.append_ne_nil_of_left_ne_nil hu v, .round (hrest.1 ▸ hr) hu hv,
      hpasses.trans hrest, he⟩
  · rintro ⟨word, e, hne, hword, hpasses, he⟩
    cases hword with
    | done => exact absurd rfl hne
    | @round _ _ u v _ hr hu hv =>
      obtain ⟨d, hpasses, hrest⟩ := Cursor.exists_passes_of_append hpasses
      exact ⟨u, d, hu, hrest.1.symm ▸ hr, hpasses, v, e, hv, hrest, he⟩

section Rounds

variable {r : Regex} {greedy : Bool} {exit : Continuation}
  (hround : ∀ (moved : Continuation) (c : Cursor),
    (r.run none moved c).isSome ↔ r.Succeeds none moved c)
include hround

/-- A repetition after a round succeeds over any number of further rounds. -/
theorem isSome_again_iff (c : Cursor) : (again r.run greedy exit c).isSome ↔
    ∃ word d, (Regex.star greedy r).Accepts word d.after ∧ c.Passes word d ∧ (exit d).isSome := by
  induction hn : c.after.length using Nat.strongRecOn generalizing c with
  | ind n ih =>
    have hfurther : (∃ u d, u ≠ [] ∧ r.Accepts u d.after ∧ c.Passes u d ∧
        (if d.after.length < c.after.length then again r.run greedy exit d else none).isSome) ↔
        ∃ word e, word ≠ [] ∧ (Regex.star greedy r).Accepts word e.after ∧ c.Passes word e ∧
          (exit e).isSome := by
      rw [← exists_round_iff]
      refine exists_congr fun u => exists_congr fun d => and_congr_right fun hu =>
        and_congr_right fun _ => and_congr_right fun hpasses => ?_
      have hlt : d.after.length < c.after.length := hpasses.length_lt hu
      rw [if_pos hlt]
      exact ih d.after.length (hn ▸ hlt) d rfl
    rw [again, isSome_prefer, hround, Regex.succeeds_none_iff, hfurther]
    constructor
    · rintro (⟨word, d, -, h⟩ | hexit)
      · exact ⟨word, d, h⟩
      · exact ⟨[], c, .done, Cursor.passes_nil.mpr rfl, hexit⟩
    · rintro ⟨word, d, hword, hpasses, hexit⟩
      by_cases hne : word = []
      · subst hne
        obtain rfl := Cursor.passes_nil.mp hpasses
        exact .inr hexit
      · exact .inl ⟨word, d, hne, hword, hpasses, hexit⟩

/-- A repetition succeeds over one or more rounds. -/
theorem isSome_rounds_iff (c : Cursor) : (r.run none (again r.run greedy exit) c).isSome ↔
    ∃ word d, word ≠ [] ∧ (Regex.star greedy r).Accepts word d.after ∧ c.Passes word d ∧
      (exit d).isSome := by
  rw [hround, Regex.succeeds_none_iff]
  simp only [isSome_again_iff hround]
  exact exists_round_iff

end Rounds

namespace Regex

variable {r : Regex}

/-- **A match succeeds over a word behind which the rest succeeds.** -/
theorem isSome_run_iff (hr : r.isPlain) (still : Option Outcome) (moved : Continuation)
    (c : Cursor) : (r.run still moved c).isSome ↔ r.Succeeds still moved c := by
  induction r generalizing still moved c with
  | empty =>
    constructor
    · exact fun h => .inl ⟨.empty, h⟩
    · rintro (⟨-, h⟩ | ⟨word, d, hne, hword, -⟩)
      · exact h
      · cases hword
        exact absurd rfl hne
  | atom a =>
    simp only [run]
    constructor
    · intro h
      cases hwidth : a.width? c.after with
      | none => simp [hwidth] at h
      | some n =>
        rw [hwidth] at h
        obtain ⟨hpos, -, hle⟩ := Atom.width_bounds hwidth
        have hlength : (c.after.take n).length = n := by
          rw [List.length_take, Nat.min_eq_left hle]
        have hne : c.after.take n ≠ [] := List.length_pos_iff.mp (hlength.symm ▸ hpos)
        have hword : a.width? (c.after.take n) = some (c.after.take n).length := by
          rw [hlength]
          exact Atom.width_take hwidth
        exact .inr ⟨_, _, hne, .atom hword, Cursor.passes_forward, h⟩
    · rintro (⟨hword, -⟩ | ⟨word, d, hne, hword, hpasses, h⟩)
      · cases hword with
        | atom h => cases a <;> cases h
      · cases hword with
        | atom hwidth =>
          rw [hpasses.1, Atom.width_append hwidth]
          change (moved (c.forward word.length)).isSome
          rw [← hpasses.eq_forward]
          exact h
  | look l =>
    obtain rfl : l = .textEnd := of_decide_eq_true hr
    simp only [run, Look.holds, List.isEmpty_iff]
    constructor
    · intro h
      split_ifs at h with hend
      · exact .inl ⟨hend ▸ .textEnd, h⟩
      · cases h
    · rintro (⟨hword, h⟩ | ⟨word, d, hne, hword, -⟩)
      · generalize hend : c.after = rest at hword
        cases hword
        rw [if_pos rfl]
        exact h
      · generalize d.after = rest at hword
        cases hword
        exact absurd rfl hne
  | group name r ih =>
    simp only [run, Option.isSome_map, ih hr, Succeeds]
    constructor
    · rintro (⟨hnil, h⟩ | ⟨word, d, hne, hword, hpasses, h⟩)
      · exact .inl ⟨.group hnil, h⟩
      · exact .inr ⟨word, d, hne, .group hword, hpasses, h⟩
    · rintro (⟨hword, h⟩ | ⟨word, d, hne, hword, hpasses, h⟩)
      · cases hword with
        | group hnil => exact .inl ⟨hnil, h⟩
      · cases hword with
        | group hword => exact .inr ⟨word, d, hne, hword, hpasses, h⟩
  | cat r s ihr ihs =>
    have hparts := Bool.and_eq_true_iff.mp hr
    simp only [run, ihr hparts.1, ihs hparts.2, Succeeds]
    constructor
    · rintro (⟨hu, ⟨hv, h⟩ | ⟨v, e, hne, hv, hpasses, h⟩⟩ |
        ⟨u, d, hne, hu, hpasses, ⟨hv, h⟩ | ⟨v, e, -, hv, hrest, h⟩⟩)
      · exact .inl ⟨.cat hu hv, h⟩
      · exact .inr ⟨v, e, hne, .cat (hpasses.1 ▸ hu) hv, hpasses, h⟩
      · exact .inr ⟨u ++ [], d, List.append_ne_nil_of_left_ne_nil hne [], .cat hu hv,
          hpasses.trans (Cursor.passes_nil.mpr rfl), h⟩
      · exact .inr ⟨u ++ v, e, List.append_ne_nil_of_left_ne_nil hne v,
          .cat (hrest.1 ▸ hu) hv, hpasses.trans hrest, h⟩
    · rintro (⟨hword, h⟩ | ⟨word, e, hne, hword, hpasses, h⟩)
      · obtain ⟨u, v, hnil, hu, hv⟩ := accepts_cat_iff.mp hword
        obtain ⟨rfl, rfl⟩ := List.append_eq_nil_iff.mp hnil.symm
        exact .inl ⟨hu, .inl ⟨hv, h⟩⟩
      · cases hword with
        | @cat _ _ u v _ hu hv =>
          obtain ⟨d, hfirst, hrest⟩ := Cursor.exists_passes_of_append hpasses
          rw [← hrest.1] at hu
          by_cases hu' : u = []
          · subst hu'
            obtain rfl := Cursor.passes_nil.mp hfirst
            exact .inl ⟨hu, .inr ⟨v, e, hne, hv, hrest, h⟩⟩
          · refine .inr ⟨u, d, hu', hu, hfirst, ?_⟩
            by_cases hv' : v = []
            · subst hv'
              obtain rfl := Cursor.passes_nil.mp hrest
              exact .inl ⟨hv, h⟩
            · exact .inr ⟨v, e, hv', hv, hrest, h⟩
  | alt r s ihr ihs =>
    have hparts := Bool.and_eq_true_iff.mp hr
    simp only [run, Option.isSome_or, Bool.or_eq_true, ihr hparts.1, ihs hparts.2, Succeeds]
    constructor
    · rintro ((⟨hnil, h⟩ | ⟨word, d, hne, hword, h⟩) | (⟨hnil, h⟩ | ⟨word, d, hne, hword, h⟩))
      · exact .inl ⟨.altLeft hnil, h⟩
      · exact .inr ⟨word, d, hne, .altLeft hword, h⟩
      · exact .inl ⟨.altRight hnil, h⟩
      · exact .inr ⟨word, d, hne, .altRight hword, h⟩
    · rintro (⟨hword, h⟩ | ⟨word, d, hne, hword, h⟩)
      · cases hword with
        | altLeft hnil => exact .inl (.inl ⟨hnil, h⟩)
        | altRight hnil => exact .inr (.inl ⟨hnil, h⟩)
      · cases hword with
        | altLeft hword => exact .inl (.inr ⟨word, d, hne, hword, h⟩)
        | altRight hword => exact .inr (.inr ⟨word, d, hne, hword, h⟩)
  | plus greedy r ih =>
    simp only [run]
    rw [isSome_rounds_iff (ih hr none)]
    constructor
    · rintro ⟨word, d, hne, hword, h⟩
      exact .inr ⟨word, d, hne, accepts_plus_iff.mpr ⟨hne, hword⟩, h⟩
    · rintro (⟨hword, -⟩ | ⟨word, d, hne, hword, h⟩)
      · exact absurd rfl (accepts_plus_iff.mp hword).1
      · exact ⟨word, d, hne, (accepts_plus_iff.mp hword).2, h⟩
  | star greedy r ih =>
    simp only [run]
    rw [isSome_prefer, isSome_rounds_iff (ih hr none)]
    constructor
    · rintro (h | h)
      · exact .inr h
      · exact .inl ⟨.done, h⟩
    · rintro (⟨-, h⟩ | h)
      · exact .inr h
      · exact .inl h
  | loose greedy r ih => cases hr

theorem isSome_matchAt_iff (hr : r.isPlain) (c : Cursor) :
    (r.matchAt c).isSome ↔ ∃ word rest, r.Accepts word rest ∧ word ++ rest = c.after := by
  rw [matchAt, isSome_run_iff hr]
  constructor
  · rintro (⟨hword, -⟩ | ⟨word, d, -, hword, hpasses, -⟩)
    · exact ⟨[], c.after, hword, rfl⟩
    · exact ⟨word, d.after, hword, hpasses.1.symm⟩
  · rintro ⟨word, rest, hword, hafter⟩
    by_cases hne : word = []
    · subst hne
      exact .inl ⟨hafter ▸ hword, rfl⟩
    · exact .inr ⟨word, ⟨word.reverse ++ c.before, rest⟩, hne, hword, ⟨hafter.symm, rfl⟩, rfl⟩

theorem isSome_searchFrom_iff (hr : r.isPlain) (before after : List UInt8) :
    (r.searchFrom before after).isSome ↔
      ∃ word rest, r.Accepts word rest ∧ word ++ rest <:+ after := by
  induction after generalizing before with
  | nil =>
    rw [searchFrom, Option.isSome_map, isSome_matchAt_iff hr]
    simp only [List.suffix_nil]
  | cons b rest ih =>
    rw [searchFrom, Option.isSome_or, Option.isSome_map, Bool.or_eq_true, isSome_matchAt_iff hr, ih]
    simp only [List.suffix_cons_iff, and_or_left, exists_or]

/-- **A text has a match just if there is a word in it**, with what may stand behind the word. -/
theorem isSome_search_iff (hr : r.isPlain) (text : List UInt8) :
    (r.search text).isSome ↔ ∃ word rest, r.Accepts word rest ∧ word ++ rest <:+ text :=
  isSome_searchFrom_iff hr [] text

end Regex

namespace Prompts

variable {τ : Type} {set : Prompts τ}

/-- All patterns of the set are plain. -/
def IsPlain (set : Prompts τ) : Prop := ∀ p ∈ set.patterns, p.2.isPlain

instance (set : Prompts τ) : Decidable set.IsPlain :=
  inferInstanceAs (Decidable (∀ p ∈ set.patterns, p.2.isPlain))

/-- A plain pattern of the set takes up the word if the other bytes stand behind it. -/
def Accepts (set : Prompts τ) (word rest : List UInt8) : Prop :=
  ∃ p ∈ set.patterns, p.2.isPlain ∧ p.2.Accepts word rest

theorem accepts_literal {tag : τ} {text : String} (h : (tag, .literal text) ∈ set.patterns)
    (rest : List UInt8) : set.Accepts (Utf8.bytes text) rest :=
  ⟨(tag, .literal text), h, Regex.isPlain_literal text,
    Regex.accepts_literal_iff.mpr (Eq.refl (Utf8.bytes text))⟩

theorem isSome_find_of_accepts {text word rest : List UInt8} (hword : set.Accepts word rest)
    (hsuffix : word ++ rest <:+ text) : (set.find text).isSome := by
  obtain ⟨p, hp, hplain, hword⟩ := hword
  rw [find_eq, List.findSome?_isSome_iff]
  refine ⟨p, hp, ?_⟩
  rw [Option.isSome_map, Regex.isSome_search_iff hplain]
  exact ⟨word, rest, hword, hsuffix⟩

/-- **A text holds a prompt just if there is a word in it.** -/
theorem isSome_find_iff (hset : set.IsPlain) (text : List UInt8) :
    (set.find text).isSome ↔ ∃ word rest, set.Accepts word rest ∧ word ++ rest <:+ text := by
  constructor
  · intro hsome
    rw [find_eq, List.findSome?_isSome_iff] at hsome
    obtain ⟨p, hp, hsome⟩ := hsome
    rw [Option.isSome_map, Regex.isSome_search_iff (hset p hp)] at hsome
    obtain ⟨word, rest, hword, hsuffix⟩ := hsome
    exact ⟨word, rest, ⟨p, hp, hset p hp, hword⟩, hsuffix⟩
  · rintro ⟨word, rest, hword, hsuffix⟩
    exact isSome_find_of_accepts hword hsuffix

end Prompts

end MudDialogue.Pattern
