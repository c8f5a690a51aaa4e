import MudDialogue.Proofs.Pattern.Language

/-!
# The way of a match

A match takes up a word (`Regex.Accepts`), and on its way through the pattern it passes through some
of the groups. Which ones it passes through is told by the same grammar as the words, with the names
written down beside them. Where a word can be taken up in several ways, the match goes one of them;
so what holds of all ways of a word holds of the match, whichever choices come first.

## Main definitions

* `Regex.Takes` — a way through a plain regular expression: the word and the names of the groups.
* `Regex.LeadsTo` — how a match comes out.

## Main results

* `Regex.leadsTo_of_run` — a match goes one of the ways.
* `Regex.exists_takes_of_matchAt` — what it takes up and which groups it has.
* `Found.has_toMatch_iff` — the groups that a recognised prompt has.
-/

namespace MudDialogue.Pattern

open Text

/-! ### Ways -/

namespace Regex

/-- A plain regular expression takes up the word, on a way through groups of these names, if the
other bytes stand behind it. -/
inductive Takes : Regex → List String → List UInt8 → List UInt8 → Prop
  | empty {rest : List UInt8} : Takes .empty [] [] rest
  | atom {a : Atom} {word rest : List UInt8} (h : a.width? word = some word.length) :
      Takes (.atom a) [] word rest
  | textEnd : Takes (.look .textEnd) [] [] []
  | group {name : String} {r : Regex} {names : List String} {word rest : List UInt8}
      (h : Takes r names word rest) : Takes (.group name r) (name :: names) word rest
  | cat {r s : Regex} {names more : List String} {u v rest : List UInt8}
      (hr : Takes r names u (v ++ rest)) (hs : Takes s more v rest) :
      Takes (.cat r s) (names ++ more) (u ++ v) rest
  | altLeft {r s : Regex} {names : List String} {word rest : List UInt8}
      (h : Takes r names word rest) : Takes (.alt r s) names word rest
  | altRight {r s : Regex} {names : List String} {word rest : List UInt8}
      (h : Takes s names word rest) : Takes (.alt r s) names word rest
  | plus {greedy : Bool} {r : Regex} {names more : List String} {u v rest : List UInt8}
      (hr : Takes r names u (v ++ rest)) (hu : u ≠ [])
      (hv : Takes (.star greedy r) more v rest) :
      Takes (.plus greedy r) (names ++ more) (u ++ v) rest
  | done {greedy : Bool} {r : Regex} {rest : List UInt8} : Takes (.star greedy r) [] [] rest
  | round {greedy : Bool} {r : Regex} {names more : List String} {u v rest : List UInt8}
      (hr : Takes r names u (v ++ rest)) (hu : u ≠ [])
      (hv : Takes (.star greedy r) more v rest) :
      Takes (.star greedy r) (names ++ more) (u ++ v) rest

variable {r s : Regex} {greedy : Bool} {names : List String} {word rest : List UInt8}

/-- What a way takes up is a word. -/
theorem Takes.accepts (h : r.Takes names word rest) : r.Accepts word rest := by
  induction h with
  | empty => exact .empty
  | atom h => exact .atom h
  | textEnd => exact .textEnd
  | group h ih => exact .group ih
  | cat hr hs ihr ihs => exact .cat ihr ihs
  | altLeft h ih => exact .altLeft ih
  | altRight h ih => exact .altRight ih
  | plus hr hu hv ihr ihv => exact .plus ihr hu ihv
  | done => exact .done
  | round hr hu hv ihr ihv => exact .round ihr hu ihv

/-- There is a way for each word. -/
theorem Accepts.exists_takes (h : r.Accepts word rest) : ∃ names, r.Takes names word rest := by
  induction h with
  | empty => exact ⟨_, .empty⟩
  | atom h => exact ⟨_, .atom h⟩
  | textEnd => exact ⟨_, .textEnd⟩
  | group h ih =>
    obtain ⟨names, h⟩ := ih
    exact ⟨_, .group h⟩
  | cat hr hs ihr ihs =>
    obtain ⟨names, hr⟩ := ihr
    obtain ⟨more, hs⟩ := ihs
    exact ⟨_, .cat hr hs⟩
  | altLeft h ih =>
    obtain ⟨names, h⟩ := ih
    exact ⟨_, .altLeft h⟩
  | altRight h ih =>
    obtain ⟨names, h⟩ := ih
    exact ⟨_, .altRight h⟩
  | plus hr hu hv ihr ihv =>
    obtain ⟨names, hr⟩ := ihr
    obtain ⟨more, hv⟩ := ihv
    exact ⟨_, .plus hr hu hv⟩
  | done => exact ⟨_, .done⟩
  | round hr hu hv ihr ihv =>
    obtain ⟨names, hr⟩ := ihr
    obtain ⟨more, hv⟩ := ihv
    exact ⟨_, .round hr hu hv⟩

/-- A way is through groups of the pattern. -/
theorem Takes.subset (h : r.Takes names word rest) : names ⊆ r.groupNames := by
  induction h with
  | empty | atom h | textEnd | done => exact List.nil_subset _
  | group h ih => exact List.cons_subset_cons _ ih
  | cat hr hs ihr ihs => exact List.append_subset.mpr ⟨List.subset_append_of_subset_left _ ihr,
      List.subset_append_of_subset_right _ ihs⟩
  | altLeft h ih => exact List.subset_append_of_subset_left _ ih
  | altRight h ih => exact List.subset_append_of_subset_right _ ih
  | plus hr hu hv ihr ihv | round hr hu hv ihr ihv => exact List.append_subset.mpr ⟨ihr, ihv⟩

/-- Without groups there is nothing to tell of a way but its word. -/
theorem takes_iff_of_groupNames (h : r.groupNames = []) :
    r.Takes names word rest ↔ names = [] ∧ r.Accepts word rest := by
  constructor
  · exact fun htakes => ⟨List.subset_nil.mp (h ▸ htakes.subset), htakes.accepts⟩
  · rintro ⟨rfl, hword⟩
    obtain ⟨names, htakes⟩ := hword.exists_takes
    obtain rfl : names = [] := List.subset_nil.mp (h ▸ htakes.subset)
    exact htakes

theorem takes_cat_iff : (cat r s).Takes names word rest ↔
    ∃ first more u v, names = first ++ more ∧ word = u ++ v ∧
      r.Takes first u (v ++ rest) ∧ s.Takes more v rest := by
  constructor
  · intro h
    cases h with
    | cat hr hs => exact ⟨_, _, _, _, rfl, rfl, hr, hs⟩
  · rintro ⟨first, more, u, v, rfl, rfl, hr, hs⟩
    exact .cat hr hs

theorem takes_alt_iff : (alt r s).Takes names word rest ↔
    r.Takes names word rest ∨ s.Takes names word rest := by
  constructor
  · intro h
    cases h with
    | altLeft h => exact .inl h
    | altRight h => exact .inr h
  · rintro (h | h)
    · exact .altLeft h
    · exact .altRight h

theorem takes_empty_iff : empty.Takes names word rest ↔ names = [] ∧ word = [] := by
  constructor
  · intro h
    cases h
    exact ⟨rfl, rfl⟩
  · rintro ⟨rfl, rfl⟩
    exact .empty

theorem takes_group_iff {name : String} : (group name r).Takes names word rest ↔
    ∃ inner, names = name :: inner ∧ r.Takes inner word rest := by
  constructor
  · intro h
    cases h with
    | group h => exact ⟨_, rfl, h⟩
  · rintro ⟨inner, rfl, h⟩
    exact .group h

end Regex

/-! ### Passages -/

/-- The passages are through groups of just these names. -/
structure Through (marks : List Mark) (names : List String) : Prop where
  entered (name : String) : (∃ rest, Mark.enter name rest ∈ marks) ↔ name ∈ names
  left (name : String) : (∃ rest, Mark.leave name rest ∈ marks) ↔ name ∈ names

theorem through_nil : Through [] [] := ⟨by simp, by simp⟩

theorem Through.append {marks more : List Mark} {names others : List String}
    (h : Through marks names) (h' : Through more others) :
    Through (marks ++ more) (names ++ others) := by
  constructor
  · intro name
    simp only [List.mem_append, exists_or, h.entered, h'.entered]
  · intro name
    simp only [List.mem_append, exists_or, h.left, h'.left]

theorem Through.group {marks : List Mark} {names : List String} (h : Through marks names)
    (name : String) (first last : List UInt8) :
    Through (.enter name first :: (marks ++ [.leave name last])) (name :: names) := by
  constructor
  · intro other
    simp only [List.mem_cons, List.mem_append, List.not_mem_nil, exists_or, h.entered,
      Mark.enter.injEq, reduceCtorEq, or_false, exists_and_left, exists_eq, and_true]
  · intro other
    simp only [List.mem_cons, List.mem_append, List.not_mem_nil, exists_or, h.left,
      Mark.leave.injEq, reduceCtorEq, false_or, or_false, exists_and_left, exists_eq, and_true]
    exact or_comm

namespace Outcome

/-- A match comes out as it does from a later place on, but for passages through groups of these
names on the way there. -/
def Follows (o : Outcome) (names : List String) (later? : Option Outcome) : Prop :=
  ∃ marks later, Through marks names ∧ later? = some later ∧
    o = ⟨marks ++ later.marks, later.rest⟩

variable {o : Outcome} {names : List String} {later? : Option Outcome}

theorem follows_self (h : later? = some o) : o.Follows [] later? :=
  ⟨[], o, through_nil, h, rfl⟩

theorem Follows.group {name : String} {last : List UInt8}
    (h : o.Follows names (later?.map (.mark (.leave name last)))) (first : List UInt8) :
    (o.mark (.enter name first)).Follows (name :: names) later? := by
  obtain ⟨marks, inner, hmarks, hinner, rfl⟩ := h
  obtain ⟨later, hlater, rfl⟩ := Option.map_eq_some_iff.mp hinner
  refine ⟨_, later, hmarks.group name first last, hlater, ?_⟩
  simp only [mark, List.cons_append, List.append_assoc, List.nil_append]

/-- One way after the other. -/
theorem Follows.exists_later (h : o.Follows names later?) :
    ∃ later, later? = some later ∧ ∀ {more : List String} {last? : Option Outcome},
      later.Follows more last? → o.Follows (names ++ more) last? := by
  obtain ⟨marks, later, hmarks, hlater, rfl⟩ := h
  refine ⟨later, hlater, ?_⟩
  rintro more last? ⟨marks', last, hmarks', hlast, rfl⟩
  exact ⟨marks ++ marks', last, hmarks.append hmarks', hlast, by rw [List.append_assoc]⟩

end Outcome

theorem eq_some_of_prefer {greedy : Bool} {more enough : Option Outcome} {o : Outcome}
    (h : prefer greedy more enough = some o) : more = some o ∨ enough = some o := by
  cases greedy with
  | true => exact (Option.or_eq_some_iff.mp h).imp_right And.right
  | false => exact ((Option.or_eq_some_iff.mp h).imp_right And.right).symm

/-! ### Matches -/

/-- How a match comes out: over the empty word, or over another one that leads to a place from which
it goes on. -/
def Regex.LeadsTo (r : Regex) (still : Option Outcome) (moved : Continuation) (c : Cursor)
    (o : Outcome) : Prop :=
  (∃ names, r.Takes names [] c.after ∧ o.Follows names still) ∨
    ∃ names word d, word ≠ [] ∧ r.Takes names word d.after ∧ c.Passes word d ∧
      o.Follows names (moved d)

theorem Regex.leadsTo_none_iff {r : Regex} {moved : Continuation} {c : Cursor} {o : Outcome} :
    r.LeadsTo none moved c o ↔ ∃ names word d, word ≠ [] ∧ r.Takes names word d.after ∧
      c.Passes word d ∧ o.Follows names (moved d) := by
  simp [LeadsTo, Outcome.Follows]

section Rounds

variable {r : Regex} {greedy : Bool} {exit : Continuation}
  (hround : ∀ {moved : Continuation} {c : Cursor} {o : Outcome},
    r.run none moved c = some o → r.LeadsTo none moved c o)
include hround

/-- A repetition after a round comes out over any number of further rounds. -/
theorem exists_takes_of_again {c : Cursor} {o : Outcome} (h : again r.run greedy exit c = some o) :
    ∃ names word d, (Regex.star greedy r).Takes names word d.after ∧ c.Passes word d ∧
      o.Follows names (exit d) := by
  induction hn : c.after.length using Nat.strongRecOn generalizing c o with
  | ind n ih =>
    rw [again] at h
    rcases eq_some_of_prefer h with hmore | hexit
    · obtain ⟨names, u, d, hu, hr, hpasses, hfollows⟩ := Regex.leadsTo_none_iff.mp (hround hmore)
      have hlt : d.after.length < c.after.length := hpasses.length_lt hu
      obtain ⟨later, hlater, htrans⟩ := hfollows.exists_later
      rw [if_pos hlt] at hlater
      obtain ⟨more, v, e, hv, hrest, hexit⟩ := ih d.after.length (hn ▸ hlt) hlater rfl
      exact ⟨names ++ more, u ++ v, e, .round (hrest.1 ▸ hr) hu hv, hpasses.trans hrest,
        htrans hexit⟩
    · exact ⟨[], [], c, .done, Cursor.passes_nil.mpr rfl, Outcome.follows_self hexit⟩

/-- A repetition comes out over one or more rounds. -/
theorem exists_takes_of_rounds {c : Cursor} {o : Outcome}
    (h : r.run none (again r.run greedy exit) c = some o) :
    ∃ names u more v d e, u ≠ [] ∧ r.Takes names u (v ++ e.after) ∧ c.Passes u d ∧
      (Regex.star greedy r).Takes more v e.after ∧ d.Passes v e ∧
      o.Follows (names ++ more) (exit e) := by
  obtain ⟨names, u, d, hu, hr, hpasses, hfollows⟩ := Regex.leadsTo_none_iff.mp (hround h)
  obtain ⟨later, hlater, htrans⟩ := hfollows.exists_later
  obtain ⟨more, v, e, hv, hrest, hexit⟩ := exists_takes_of_again hround hlater
  exact ⟨names, u, more, v, d, e, hu, hrest.1 ▸ hr, hpasses, hv, hrest, htrans hexit⟩

end Rounds

namespace Regex

variable {r : Regex}

/-- **A match goes one of the ways.** -/
theorem leadsTo_of_run (hr : r.isPlain) {still : Option Outcome} {moved : Continuation} {c : Cursor}
    {o : Outcome} (h : r.run still moved c = some o) : r.LeadsTo still moved c o := by
  induction r generalizing still moved c o with
  | empty => exact .inl ⟨[], .empty, Outcome.follows_self h⟩
  | atom a =>
    simp only [run] at h
    cases hwidth : a.width? c.after with
    | none => simp [hwidth] at h
    | some n =>
      rw [hwidth] at h
      obtain ⟨hpos, -, hle⟩ := Atom.width_bounds hwidth
      have hlength : (c.after.take n).length = n := by
        rw [List.length_take, Nat.min_eq_left hle]
      have hne : c.after.take n ≠ [] := List.length_pos_iff.mp (hlength.symm ▸ hpos)
      have hword : a.width? (c.after.take n) = some (c.after.take n).length := by
        rw [hlength]
        exact Atom.width_take hwidth
      exact .inr ⟨[], _, _, hne, .atom hword, Cursor.passes_forward, Outcome.follows_self h⟩
  | look l =>
    obtain rfl : l = .textEnd := of_decide_eq_true hr
    simp only [run, Look.holds, List.isEmpty_iff] at h
    split_ifs at h with hend
    exact .inl ⟨[], hend ▸ .textEnd, Outcome.follows_self h⟩
  | group name r ih =>
    obtain ⟨inner, hinner, rfl⟩ := Option.map_eq_some_iff.mp h
    rcases ih hr hinner with ⟨names, hnil, h⟩ | ⟨names, word, d, hne, hword, hpasses, h⟩
    · exact .inl ⟨name :: names, .group hnil, h.group c.after⟩
    · exact .inr ⟨name :: names, word, d, hne, .group hword, hpasses, h.group c.after⟩
  | cat r s ihr ihs =>
    have hparts := Bool.and_eq_true_iff.mp hr
    rcases ihr hparts.1 h with ⟨names, hu, h⟩ | ⟨names, u, d, hne, hu, hpasses, h⟩
    · obtain ⟨later, hlater, htrans⟩ := h.exists_later
      rcases ihs hparts.2 hlater with ⟨more, hv, h⟩ | ⟨more, v, e, hne, hv, hpasses, h⟩
      · exact .inl ⟨names ++ more, .cat hu hv, htrans h⟩
      · exact .inr ⟨names ++ more, v, e, hne, .cat (hpasses.1 ▸ hu) hv, hpasses, htrans h⟩
    · obtain ⟨later, hlater, htrans⟩ := h.exists_later
      rcases ihs hparts.2 hlater with ⟨more, hv, h⟩ | ⟨more, v, e, -, hv, hrest, h⟩
      · exact .inr ⟨names ++ more, u ++ [], d, List.append_ne_nil_of_left_ne_nil hne [],
          .cat hu hv, hpasses.trans (Cursor.passes_nil.mpr rfl), htrans h⟩
      · exact .inr ⟨names ++ more, u ++ v, e, List.append_ne_nil_of_left_ne_nil hne v,
          .cat (hrest.1 ▸ hu) hv, hpasses.trans hrest, htrans h⟩
  | alt r s ihr ihs =>
    have hparts := Bool.and_eq_true_iff.mp hr
    rcases Option.or_eq_some_iff.mp h with h | ⟨-, h⟩
    · rcases ihr hparts.1 h with ⟨names, hnil, h⟩ | ⟨names, word, d, hne, hword, h⟩
      · exact .inl ⟨names, .altLeft hnil, h⟩
      · exact .inr ⟨names, word, d, hne, .altLeft hword, h⟩
    · rcases ihs hparts.2 h with ⟨names, hnil, h⟩ | ⟨names, word, d, hne, hword, h⟩
      · exact .inl ⟨names, .altRight hnil, h⟩
      · exact .inr ⟨names, word, d, hne, .altRight hword, h⟩
  | plus greedy r ih =>
    obtain ⟨names, u, more, v, d, e, hu, hr, hpasses, hv, hrest, h⟩ :=
      exists_takes_of_rounds (ih hr) h
    exact .inr ⟨names ++ more, u ++ v, e, List.append_ne_nil_of_left_ne_nil hu v,
      .plus hr hu hv, hpasses.trans hrest, h⟩
  | star greedy r ih =>
    rcases eq_some_of_prefer h with h | h
    · obtain ⟨names, u, more, v, d, e, hu, hr, hpasses, hv, hrest, h⟩ :=
        exists_takes_of_rounds (ih hr) h
      exact .inr ⟨names ++ more, u ++ v, e, List.append_ne_nil_of_left_ne_nil hu v,
        .round hr hu hv, hpasses.trans hrest, h⟩
    · exact .inl ⟨[], .done, Outcome.follows_self h⟩
  | loose greedy r ih => cases hr

/-- **The match at a place goes one of the ways from there.** -/
theorem exists_takes_of_matchAt (hr : r.isPlain) {c : Cursor} {o : Outcome}
    (h : r.matchAt c = some o) : ∃ names word, r.Takes names word o.rest ∧
      word ++ o.rest = c.after ∧ Through o.marks names := by
  have hfinish {names : List String} {d : Cursor} (h : o.Follows names (some (.finish d))) :
      o.rest = d.after ∧ Through o.marks names := by
    obtain ⟨marks, later, hmarks, hlater, rfl⟩ := h
    obtain rfl := Option.some.inj hlater
    exact ⟨rfl, (List.append_nil marks).symm ▸ hmarks⟩
  rcases leadsTo_of_run hr h with ⟨names, hnil, h⟩ | ⟨names, word, d, -, hword, hpasses, h⟩
  · obtain ⟨hrest, hmarks⟩ := hfinish h
    exact ⟨names, [], hrest ▸ hnil, hrest, hmarks⟩
  · obtain ⟨hrest, hmarks⟩ := hfinish h
    exact ⟨names, word, hrest ▸ hword, hrest ▸ hpasses.1.symm, hmarks⟩

end Regex

/-! ### The groups of a match -/

/-- A mark of a kind is picked if there is one. -/
theorem isSome_foldl_iff (kind : List UInt8 → Mark)
    {pick : Option (List UInt8) → Mark → Option (List UInt8)}
    (hpick : ∀ found m, (pick found m).isSome ↔ (∃ rest, m = kind rest) ∨ found.isSome)
    (marks : List Mark) (found : Option (List UInt8)) :
    (marks.foldl pick found).isSome ↔ (∃ rest, kind rest ∈ marks) ∨ found.isSome := by
  induction marks generalizing found with
  | nil => simp
  | cons m marks ih =>
    rw [List.foldl_cons, ih, hpick]
    simp only [List.mem_cons, exists_or, or_left_comm, or_assoc, eq_comm]

namespace Outcome

variable {o : Outcome} {names : List String}

theorem isSome_lastEntered_iff (h : Through o.marks names) (name : String) :
    (o.lastEntered? name).isSome ↔ name ∈ names := by
  rw [lastEntered?, isSome_foldl_iff (.enter name), h.entered]
  · simp
  · rintro found (⟨n, rest⟩ | ⟨n, rest⟩)
    · dsimp only
      split_ifs with hn <;> simp [hn]
    · simp

theorem isSome_lastLeft_iff (h : Through o.marks names) (name : String) :
    (o.lastLeft? name).isSome ↔ name ∈ names := by
  rw [lastLeft?, isSome_foldl_iff (.leave name), h.left]
  · simp
  · rintro found (⟨n, rest⟩ | ⟨n, rest⟩)
    · simp
    · dsimp only
      split_ifs with hn <;> simp [hn]

/-- A match has the groups of its way. -/
theorem isSome_capture_iff (h : Through o.marks names) (name : String) :
    (o.capture? name).isSome ↔ name ∈ names := by
  have hentered := isSome_lastEntered_iff h name
  have hleft := isSome_lastLeft_iff h name
  rw [capture?]
  cases hfirst : o.lastEntered? name with
  | none =>
    rw [hfirst] at hentered
    exact hentered
  | some start =>
    cases hlast : o.lastLeft? name with
    | none =>
      rw [hlast] at hleft
      exact hleft
    | some rest =>
      rw [hfirst] at hentered
      exact hentered

end Outcome

/-- **The groups that a recognised prompt has.** -/
theorem Found.has_toMatch_iff {τ : Type} {f : Found} {names groups : List String}
    (h : Through f.outcome.marks names) (hnames : names ⊆ groups) (tag : τ) (name : String) :
    (f.toMatch tag groups).has name ↔ name ∈ names := by
  have hcapture : (f.toMatch tag groups).has name ↔
      name ∈ groups ∧ (f.outcome.capture? name).isSome := by
    rw [Match.has, Match.capture?, toMatch]
    clear hnames
    induction groups with
    | nil => simp
    | cons group groups ih =>
      by_cases hname : name = group
      · subst hname
        cases hgroup : f.outcome.capture? name with
        | none => simp [hgroup, ih]
        | some bytes => simp [hgroup]
      · have hother : (name == group) = false := beq_false_of_ne hname
        cases hgroup : f.outcome.capture? group with
        | none => simpa [hgroup, hname] using ih
        | some bytes =>
          rw [List.filterMap_cons_some (by rw [hgroup]; rfl), List.lookup_cons, hother, ih,
            List.mem_cons, or_iff_right hname]
  rw [hcapture, Outcome.isSome_capture_iff h]
  exact and_iff_right_of_imp fun hname => hnames hname

end MudDialogue.Pattern
