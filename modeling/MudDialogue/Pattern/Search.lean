import MudDialogue.Pattern.Machine

/-!
# The pass from right to left finds the leftmost match

`Regex.search` says which match of a regular expression in a byte string counts: it tries every
place from left to right and takes the first at which `Regex.matchAt` succeeds. The machine finds
exactly this match. The reason is that its notes stay right all the way to the left: each atom knows
how the match goes on from the places ahead.

## Main definitions

* `Machine.Loaded`, `Machine.LoadedTrial` — the notes of a machine are right at a place, outside and
  inside of loose loops.

## Main results

* `Regex.run_congr`, `Regex.tryOut_congr` — a match depends on what follows it only at places it can
  reach.
* `Machine.value_eq_run`, `Machine.trial_eq_tryOut` — right notes give the right outcome.
* `Machine.Loaded.latch`, `Machine.LoadedTrial.latch` — latching keeps the notes right one place
  further to the left.
* `Machine.search_ofRegex` — the machine finds the leftmost match.
-/

namespace MudDialogue.Pattern

open Text

/-! ### Widths -/

theorem Atom.width_bounds {a : Atom} {bytes : List UInt8} {w : Nat} (h : a.width? bytes = some w) :
    1 ≤ w ∧ w ≤ 4 ∧ w ≤ bytes.length := by
  cases bytes with
  | nil => cases a <;> simp [Atom.width?] at h
  | cons b rest =>
    cases a with
    | scalar accepts =>
      simp only [Atom.width?] at h
      split at h
      · rename_i c width hf
        split at h
        · cases h
          have := Utf8.front_width hf
          simpa [Nat.add_comm] using this
        · cases h
      · cases h
      · cases h
    | byte accepts =>
      simp only [Atom.width?] at h
      split at h
      · cases h
        simp
      · cases h

theorem Cursor.length_after_forward (c : Cursor) (n : Nat) :
    (c.forward n).after.length = c.after.length - n := by
  simp [Cursor.forward]

/-! ### What a match depends on -/

theorem turn_congr (round : Trial → (Cursor → Trial) → Cursor → Trial) {choice : Nat}
    {greedy : Bool} {exit exit' : Cursor → Trial}
    (hround : ∀ (still : Trial) (moved moved' : Cursor → Trial) (c : Cursor),
      (∀ d, d.after.length < c.after.length → moved d = moved' d) →
      round still moved c = round still moved' c)
    (c : Cursor) (h : ∀ d, d.after.length ≤ c.after.length → exit d = exit' d) :
    turn round choice greedy exit c = turn round choice greedy exit' c := by
  induction hn : c.after.length using Nat.strongRecOn generalizing c with
  | ind n ih =>
    rw [turn, turn, h c (Nat.le_refl _)]
    congr 2
    refine hround _ _ _ _ fun d hd => ?_
    simp only [hd, if_true]
    exact ih _ (hn ▸ hd) d (fun e he => h e (by omega)) rfl

/-- **Inside of a loose loop a match depends on what follows only at places it can reach.** -/
theorem Regex.tryOut_congr {r : Regex} {n : Nat} {still : Trial} {moved moved' : Cursor → Trial}
    {c : Cursor} (hmoved : ∀ d, d.after.length < c.after.length → moved d = moved' d) :
    r.tryOut n still moved c = r.tryOut n still moved' c := by
  induction r generalizing n still moved moved' c with
  | empty => rfl
  | atom a =>
    simp only [Regex.tryOut]
    cases h : a.width? c.after with
    | none => rfl
    | some w =>
      have := Atom.width_bounds h
      simp only [hmoved (c.forward w) (by rw [Cursor.length_after_forward]; omega)]
  | look l => rfl
  | group name r ih =>
    simp only [Regex.tryOut]
    congr 1
    exact ih fun d hd => by rw [hmoved d hd]
  | cat r s ihr ihs =>
    simp only [Regex.tryOut]
    rw [ihs hmoved]
    refine ihr fun d hd => ?_
    rw [hmoved d hd]
    exact ihs fun e he => hmoved e (by omega)
  | alt r s ihr ihs =>
    simp only [Regex.tryOut]
    rw [ihr hmoved, ihs hmoved]
  | plus greedy r ih =>
    simp only [Regex.tryOut]
    exact ih fun d hd =>
      turn_congr (r.tryOut (n + 1)) (fun _ _ _ _ h => ih h) d fun e he => hmoved e (by omega)
  | star greedy r ih =>
    simp only [Regex.tryOut]
    congr 2
    exact ih fun d hd =>
      turn_congr (r.tryOut (n + 1)) (fun _ _ _ _ h => ih h) d fun e he => hmoved e (by omega)
  | loose greedy r ih =>
    have hturn (d : Cursor) (hd : d.after.length < c.after.length) :
        turn (r.tryOut (n + 1)) n greedy moved d = turn (r.tryOut (n + 1)) n greedy moved' d :=
      turn_congr (r.tryOut (n + 1)) (fun _ _ _ _ h => ih h) d fun e he => hmoved e (by omega)
    have hround : r.tryOut (n + 1) (.settled none) (turn (r.tryOut (n + 1)) n greedy moved) c =
        r.tryOut (n + 1) (.settled none) (turn (r.tryOut (n + 1)) n greedy moved') c := ih hturn
    simp only [Regex.tryOut]
    rw [hround]
    exact ih hturn

theorem again_congr (round : Option Outcome → Continuation → Continuation) {greedy : Bool}
    {exit exit' : Continuation}
    (hround : ∀ (still : Option Outcome) (moved moved' : Continuation) (c : Cursor),
      (∀ d, d.after.length < c.after.length → moved d = moved' d) →
      round still moved c = round still moved' c)
    (c : Cursor) (h : ∀ d, d.after.length ≤ c.after.length → exit d = exit' d) :
    again round greedy exit c = again round greedy exit' c := by
  induction hn : c.after.length using Nat.strongRecOn generalizing c with
  | ind n ih =>
    rw [again, again, h c (Nat.le_refl _)]
    congr 1
    refine hround _ _ _ _ fun d hd => ?_
    simp only [hd, if_true]
    exact ih _ (hn ▸ hd) d (fun e he => h e (by omega)) rfl

/-- **A match depends on what follows only at places it can reach.** -/
theorem Regex.run_congr {r : Regex} {still : Option Outcome} {moved moved' : Continuation}
    {c : Cursor} (hmoved : ∀ d, d.after.length < c.after.length → moved d = moved' d) :
    r.run still moved c = r.run still moved' c := by
  induction r generalizing still moved moved' c with
  | empty => rfl
  | atom a =>
    simp only [Regex.run]
    cases h : a.width? c.after with
    | none => rfl
    | some w =>
      have := Atom.width_bounds h
      exact hmoved _ (by rw [Cursor.length_after_forward]; omega)
  | look l => rfl
  | group name r ih =>
    simp only [Regex.run]
    congr 1
    exact ih fun d hd => by rw [hmoved d hd]
  | cat r s ihr ihs =>
    simp only [Regex.run]
    rw [ihs hmoved]
    refine ihr fun d hd => ?_
    rw [hmoved d hd]
    exact ihs fun e he => hmoved e (by omega)
  | alt r s ihr ihs =>
    simp only [Regex.run]
    rw [ihr hmoved, ihs hmoved]
  | plus greedy r ih =>
    simp only [Regex.run]
    exact ih fun d hd =>
      again_congr r.run (fun _ _ _ _ h => ih h) d fun e he => hmoved e (by omega)
  | star greedy r ih =>
    simp only [Regex.run]
    congr 1
    exact ih fun d hd =>
      again_congr r.run (fun _ _ _ _ h => ih h) d fun e he => hmoved e (by omega)
  | loose greedy r =>
    simp only [Regex.run]
    rw [Regex.tryOut_congr fun d hd => by rw [hmoved d hd]]

/-! ### Right notes -/

theorem Cursor.forward_succ (before : List UInt8) (b : UInt8) (after : List UInt8) (n : Nat) :
    (⟨before, b :: after⟩ : Cursor).forward (n + 1) =
      (⟨b :: before, after⟩ : Cursor).forward n := by
  simp [Cursor.forward]

/-- The notes at an atom are right at a place: `moved` is how the match goes on behind it, up to
four bytes ahead. -/
def Ahead.Loaded (ahead : Ahead) (moved : Continuation) (c : Cursor) : Prop :=
  ∀ n, 1 ≤ n → n ≤ 4 → n ≤ c.after.length → ahead.get n = moved (c.forward n)

namespace Ahead

/-- At the end of the byte string there is nothing ahead to know. -/
theorem loaded_none (moved : Continuation) (before : List UInt8) :
    none.Loaded moved ⟨before, []⟩ :=
  fun n h1 _ h2 => by simp only [List.length_nil] at h2; omega

/-- What is pushed is right one place further to the left. -/
theorem Loaded.push {ahead : Ahead} {moved : Continuation} {before : List UInt8} {b : UInt8}
    {after : List UInt8} (h : ahead.Loaded moved ⟨b :: before, after⟩) :
    (ahead.push (moved ⟨b :: before, after⟩)).Loaded moved ⟨before, b :: after⟩ := by
  intro n h1 h4 hn
  obtain ⟨n, rfl⟩ : ∃ k, n = k + 1 := ⟨n - 1, by omega⟩
  rw [Cursor.forward_succ]
  cases n with
  | zero => rfl
  | succ n =>
    have hn' : n + 1 ≤ after.length := by simpa using hn
    rw [← h (n + 1) (by omega) (by omega) hn']
    match n, h4 with
    | 0, _ | 1, _ | 2, _ => rfl

end Ahead

namespace Machine

/-! ### Inside of loose loops -/

/-- The notes of a machine for `r`, whose choices are numbered from `n` on, are right at a place
inside of a loose loop: each atom knows how the match goes on from the places up to four bytes
ahead, if `moved` is how it goes on behind `r`. -/
def LoadedTrial : Machine → Regex → Nat → (Cursor → Trial) → Cursor → Prop
  | empty, .empty, _, _, _ => True
  | atom a ahead, .atom b, _, moved, c => a = b ∧ ahead.Loaded (fun d => (moved d).fresh) c
  | look l, .look k, _, _, _ => l = k
  | group name m, .group other r, n, moved, c =>
    name = other ∧ m.LoadedTrial r n (fun d => (moved d).mark (.leave name d.after)) c
  | cat m k, .cat r s, n, moved, c =>
    m.LoadedTrial r n (fun d => s.tryOut (n + r.choices) (moved d) moved d) c ∧
      k.LoadedTrial s (n + r.choices) moved c
  | alt choice m k, .alt r s, n, moved, c =>
    choice = n ∧ m.LoadedTrial r (n + 1) moved c ∧ k.LoadedTrial s (n + 1 + r.choices) moved c
  | plus choice greedy m, .plus other r, n, moved, c
  | star choice greedy m, .star other r, n, moved, c
  | loose choice greedy m, .loose other r, n, moved, c =>
    choice = n ∧ greedy = other ∧
      m.LoadedTrial r (n + 1) (turn (r.tryOut (n + 1)) n greedy moved) c
  | _, _, _, _, _ => False

theorem numbered_snd (r : Regex) (n : Nat) : (numbered r n).2 = n + r.choices := by
  induction r generalizing n with
  | empty | atom _ | look _ => rfl
  | group name r ih => exact ih n
  | cat r s ihr ihs =>
    simp only [numbered, ihr, ihs, Regex.choices]
    omega
  | alt r s ihr ihs =>
    simp only [numbered, ihr, ihs, Regex.choices]
    omega
  | plus greedy r ih | star greedy r ih | loose greedy r ih =>
    simp only [numbered, ih, Regex.choices]
    omega

/-- At the end of the byte string the notes are right. -/
theorem loadedTrial_numbered (r : Regex) (n : Nat) (moved : Cursor → Trial) (before : List UInt8) :
    (numbered r n).1.LoadedTrial r n moved ⟨before, []⟩ := by
  induction r generalizing n moved with
  | empty => trivial
  | atom a => exact ⟨rfl, Ahead.loaded_none _ _⟩
  | look l => rfl
  | group name r ih => exact ⟨rfl, ih _ _⟩
  | cat r s ihr ihs =>
    refine ⟨ihr _ _, ?_⟩
    simp only [numbered_snd]
    exact ihs _ _
  | alt r s ihr ihs =>
    refine ⟨rfl, ihr _ _, ?_⟩
    simp only [numbered_snd]
    exact ihs _ _
  | plus greedy r ih | star greedy r ih | loose greedy r ih => exact ⟨rfl, rfl, ih _ _⟩

/-- **Right notes give the right outcome** inside of a loose loop. -/
theorem trial_eq_tryOut {m : Machine} {r : Regex} {n : Nat} {moved : Cursor → Trial} {c : Cursor}
    (h : m.LoadedTrial r n moved c) (still : Trial) :
    m.trial still c = r.tryOut n still moved c := by
  induction r generalizing m n moved still with
  | empty => cases m <;> simp_all [LoadedTrial, trial, Regex.tryOut]
  | atom b =>
    cases m with
    | atom a ahead =>
      obtain ⟨rfl, h⟩ := h
      simp only [trial, Regex.tryOut]
      cases hw : a.width? c.after with
      | none => rfl
      | some w =>
        have := Atom.width_bounds hw
        simp only [h w this.1 this.2.1 this.2.2]
    | _ => exact h.elim
  | look l => cases m <;> simp_all [LoadedTrial, trial, Regex.tryOut]
  | group name r ih =>
    cases m with
    | group other m =>
      obtain ⟨rfl, h⟩ := h
      simp only [trial, Regex.tryOut, ih h]
    | _ => exact h.elim
  | cat r s ihr ihs =>
    cases m with
    | cat m k => simp only [trial, Regex.tryOut, ihs h.2, ihr h.1]
    | _ => exact h.elim
  | alt r s ihr ihs =>
    cases m with
    | alt choice m k =>
      obtain ⟨rfl, hm, hk⟩ := h
      simp only [trial, Regex.tryOut, ihr hm, ihs hk]
    | _ => exact h.elim
  | plus greedy r ih =>
    cases m with
    | plus choice other m =>
      obtain ⟨rfl, rfl, h⟩ := h
      simp only [trial, Regex.tryOut, ih h]
    | _ => exact h.elim
  | star greedy r ih =>
    cases m with
    | star choice other m =>
      obtain ⟨rfl, rfl, h⟩ := h
      simp only [trial, Regex.tryOut, ih h]
    | _ => exact h.elim
  | loose greedy r ih =>
    cases m with
    | loose choice other m =>
      obtain ⟨rfl, rfl, h⟩ := h
      simp only [trial, Regex.tryOut, ih h]
    | _ => exact h.elim

/-- The turn of a loop, read off right notes. -/
theorem turn_eq {m : Machine} {r : Regex} {n : Nat} {greedy : Bool} {moved : Cursor → Trial}
    {c : Cursor} (h : m.LoadedTrial r (n + 1) (turn (r.tryOut (n + 1)) n greedy moved) c) :
    Trial.once n (.prefer greedy (m.trial (.settled none) c) (moved c)) =
      turn (r.tryOut (n + 1)) n greedy moved c := by
  rw [turn, trial_eq_tryOut h]
  congr 2
  exact Regex.tryOut_congr fun d hd => by rw [if_pos hd]

/-- **Latching keeps the notes right** one place further to the left, inside of a loose loop. -/
theorem LoadedTrial.latch {m : Machine} {r : Regex} {n : Nat} {moved : Cursor → Trial}
    {before : List UInt8} {b : UInt8} {after : List UInt8}
    (h : m.LoadedTrial r n moved ⟨b :: before, after⟩) :
    (m.latchTrial (moved ⟨b :: before, after⟩) (moved ⟨b :: before, after⟩).fresh
      ⟨b :: before, after⟩).LoadedTrial r n moved ⟨before, b :: after⟩ := by
  induction r generalizing m n moved with
  | empty => cases m <;> simp_all [LoadedTrial, latchTrial]
  | atom a =>
    cases m with
    | atom a' ahead => exact ⟨h.1, h.2.push⟩
    | _ => exact h.elim
  | look l => cases m <;> simp_all [LoadedTrial, latchTrial]
  | group name r ih =>
    cases m with
    | group other m =>
      obtain ⟨rfl, h⟩ := h
      exact ⟨rfl, ih h⟩
    | _ => exact h.elim
  | cat r s ihr ihs =>
    cases m with
    | cat m k =>
      refine ⟨?_, ihs h.2⟩
      rw [trial_eq_tryOut h.2]
      exact ihr h.1
    | _ => exact h.elim
  | alt r s ihr ihs =>
    cases m with
    | alt choice m k => exact ⟨h.1, ihr h.2.1, ihs h.2.2⟩
    | _ => exact h.elim
  | plus greedy r ih =>
    cases m with
    | plus choice other m =>
      obtain ⟨rfl, rfl, h⟩ := h
      refine ⟨rfl, rfl, ?_⟩
      rw [turn_eq h]
      exact ih h
    | _ => exact h.elim
  | star greedy r ih =>
    cases m with
    | star choice other m =>
      obtain ⟨rfl, rfl, h⟩ := h
      refine ⟨rfl, rfl, ?_⟩
      rw [turn_eq h]
      exact ih h
    | _ => exact h.elim
  | loose greedy r ih =>
    cases m with
    | loose choice other m =>
      obtain ⟨rfl, rfl, h⟩ := h
      refine ⟨rfl, rfl, ?_⟩
      rw [turn_eq h]
      exact ih h
    | _ => exact h.elim

/-! ### Outside of loose loops -/

/-- The notes of a machine for `r` are right at a place: each atom knows how the match goes on from
the places up to four bytes ahead, if `moved` is how it goes on behind `r`. -/
def Loaded : Machine → Regex → Continuation → Cursor → Prop
  | empty, .empty, _, _ => True
  | atom a ahead, .atom b, moved, c => a = b ∧ ahead.Loaded moved c
  | look l, .look k, _, _ => l = k
  | group name m, .group other r, moved, c =>
    name = other ∧ m.Loaded r (fun d => (moved d).map (.mark (.leave name d.after))) c
  | cat m k, .cat r s, moved, c =>
    m.Loaded r (fun d => s.run (moved d) moved d) c ∧ k.Loaded s moved c
  | alt _ m k, .alt r s, moved, c => m.Loaded r moved c ∧ k.Loaded s moved c
  | plus _ greedy m, .plus other r, moved, c
  | star _ greedy m, .star other r, moved, c =>
    greedy = other ∧ m.Loaded r (again r.run greedy moved) c
  | loose choice greedy m, .loose other r, moved, c =>
    (loose choice greedy m).LoadedTrial (.loose other r) 0 (fun d => .settled (moved d)) c
  | _, _, _, _ => False

/-- At the end of the byte string the notes are right. -/
theorem loaded_ofRegex (r : Regex) (moved : Continuation) (before : List UInt8) :
    (ofRegex r).Loaded r moved ⟨before, []⟩ := by
  induction r generalizing moved with
  | empty => trivial
  | atom a => exact ⟨rfl, Ahead.loaded_none _ _⟩
  | look l => rfl
  | group name r ih => exact ⟨rfl, ih _⟩
  | cat r s ihr ihs => exact ⟨ihr _, ihs _⟩
  | alt r s ihr ihs => exact ⟨ihr _, ihs _⟩
  | plus greedy r ih | star greedy r ih => exact ⟨rfl, ih _⟩
  | loose greedy r => exact loadedTrial_numbered (.loose greedy r) 0 _ before

/-- **Right notes give the right outcome.** -/
theorem value_eq_run {m : Machine} {r : Regex} {moved : Continuation} {c : Cursor}
    (h : m.Loaded r moved c) (still : Option Outcome) :
    m.value still c = r.run still moved c := by
  induction r generalizing m moved still with
  | empty => cases m <;> simp_all [Loaded, value, Regex.run]
  | atom b =>
    cases m with
    | atom a ahead =>
      obtain ⟨rfl, h⟩ := h
      simp only [value, Regex.run]
      cases hw : a.width? c.after with
      | none => rfl
      | some w =>
        have := Atom.width_bounds hw
        exact h w this.1 this.2.1 this.2.2
    | _ => exact h.elim
  | look l => cases m <;> simp_all [Loaded, value, Regex.run]
  | group name r ih =>
    cases m with
    | group other m =>
      obtain ⟨rfl, h⟩ := h
      simp only [value, Regex.run, ih h]
    | _ => exact h.elim
  | cat r s ihr ihs =>
    cases m with
    | cat m k => simp only [value, Regex.run, ihs h.2, ihr h.1]
    | _ => exact h.elim
  | alt r s ihr ihs =>
    cases m with
    | alt choice m k => simp only [value, Regex.run, ihs h.2, ihr h.1]
    | _ => exact h.elim
  | plus greedy r ih =>
    cases m with
    | plus choice other m =>
      obtain ⟨rfl, h⟩ := h
      simp only [value, Regex.run, ih h]
    | _ => exact h.elim
  | star greedy r ih =>
    cases m with
    | star choice other m =>
      obtain ⟨rfl, h⟩ := h
      simp only [value, Regex.run, ih h]
    | _ => exact h.elim
  | loose greedy r =>
    cases m with
    | loose choice other m => simp only [value, Regex.run, trial_eq_tryOut h]
    | _ => exact h.elim

/-- A repetition after a round that moved on, read off right notes. -/
theorem again_eq {m : Machine} {r : Regex} {greedy : Bool} {moved : Continuation} {c : Cursor}
    (h : m.Loaded r (again r.run greedy moved) c) :
    prefer greedy (m.value none c) (moved c) = again r.run greedy moved c := by
  rw [again, value_eq_run h]
  congr 1
  exact Regex.run_congr fun d hd => by rw [if_pos hd]

/-- **Latching keeps the notes right** one place further to the left. -/
theorem Loaded.latch {m : Machine} {r : Regex} {moved : Continuation} {before : List UInt8}
    {b : UInt8} {after : List UInt8} (h : m.Loaded r moved ⟨b :: before, after⟩) :
    (m.latch (moved ⟨b :: before, after⟩) ⟨b :: before, after⟩).Loaded r moved
      ⟨before, b :: after⟩ := by
  induction r generalizing m moved with
  | empty => cases m <;> simp_all [Loaded, Machine.latch]
  | atom a =>
    cases m with
    | atom a' ahead => exact ⟨h.1, h.2.push⟩
    | _ => exact h.elim
  | look l => cases m <;> simp_all [Loaded, Machine.latch]
  | group name r ih =>
    cases m with
    | group other m =>
      obtain ⟨rfl, h⟩ := h
      exact ⟨rfl, ih h⟩
    | _ => exact h.elim
  | cat r s ihr ihs =>
    cases m with
    | cat m k =>
      refine ⟨?_, ihs h.2⟩
      rw [value_eq_run h.2]
      exact ihr h.1
    | _ => exact h.elim
  | alt r s ihr ihs =>
    cases m with
    | alt choice m k => exact ⟨ihr h.1, ihs h.2⟩
    | _ => exact h.elim
  | plus greedy r ih =>
    cases m with
    | plus choice other m =>
      obtain ⟨rfl, h⟩ := h
      refine ⟨rfl, ?_⟩
      rw [again_eq h]
      exact ih h
    | _ => exact h.elim
  | star greedy r ih =>
    cases m with
    | star choice other m =>
      obtain ⟨rfl, h⟩ := h
      refine ⟨rfl, ?_⟩
      rw [again_eq h]
      exact ih h
    | _ => exact h.elim
  | loose greedy r =>
    cases m with
    | loose choice other m => exact LoadedTrial.latch h
    | _ => exact h.elim

/-! ### The whole pass -/

/-- The sweep from a place leftwards finds the first match from the left, if `best` is the first
match behind the place. -/
theorem sweep_eq {m : Machine} {r : Regex} {best : Option Found} {before after : List UInt8}
    (h : m.Loaded r (fun c => some (.finish c)) ⟨before, after⟩)
    (hbest : ((r.matchAt ⟨before, after⟩).map (Found.mk after)).or best =
      r.searchFrom before after) :
    m.sweep best before after = r.search (before.reverse ++ after) := by
  induction before generalizing m best after with
  | nil =>
    rw [sweep, visit_eq, value_eq_run h]
    exact hbest
  | cons b before ih =>
    rw [sweep, visit_eq, value_eq_run h, List.reverse_cons, List.append_assoc]
    refine ih h.latch ?_
    rw [Regex.searchFrom, ← hbest]
    rfl

/-- **The machine of a regular expression finds the leftmost match.** -/
theorem search_ofRegex (r : Regex) (haystack : List UInt8) :
    (ofRegex r).search haystack = r.search haystack := by
  rw [Machine.search, sweep_eq (loaded_ofRegex r _ haystack.reverse) Option.or_none,
    List.reverse_reverse, List.append_nil]

end Machine

end MudDialogue.Pattern
