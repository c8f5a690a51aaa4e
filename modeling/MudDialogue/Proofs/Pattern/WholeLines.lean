import Mathlib.Data.List.Basic
import MudDialogue.Proofs.Pattern.FoundWords

/-!
# Patterns for a whole line

A pattern that ends with LF and has no other LF in it, and that never looks around, decides at every
place by the bytes up to the next LF. So text that comes later changes nothing in a match: what was
found of the pattern is found again, at the same place and with the same groups. This is what a
prompt at the very end of the text does not have.

## Main definitions

* `Cursor.more`, `Outcome.more`, `Found.more` — the same with more text behind.
* `Regex.staysInLine` — a part of a pattern that looks at nothing and takes up no LF.
* `Regex.line` — a pattern for a whole line.

## Main results

* `Regex.run_more` — a match that has an LF ahead does not depend on the text behind.
* `Regex.search_more`, `Prompts.find_append_of_line` — what is found of a whole line stays found.
-/

namespace MudDialogue.Pattern

open Text Text.Utf8

/-- What ends a line. -/
abbrev newline : UInt8 := 0x0A

/-! ### More text behind -/

section More

variable (later : List UInt8)

/-- The same place with more text behind. -/
def Cursor.more (c : Cursor) : Cursor := ⟨c.before, c.after ++ later⟩

/-- The same passage with more text behind. -/
def Mark.more : Mark → Mark
  | .enter name rest => .enter name (rest ++ later)
  | .leave name rest => .leave name (rest ++ later)

/-- The same match with more text behind. -/
def Outcome.more (o : Outcome) : Outcome := ⟨o.marks.map (·.more later), o.rest ++ later⟩

/-- The same stretch with more text behind. -/
def Found.more (f : Found) : Found := ⟨f.start ++ later, f.outcome.more later⟩

theorem Outcome.more_mark (m : Mark) (found? : Option Outcome) :
    (found?.map (Outcome.more later)).map (Outcome.mark (m.more later)) =
      (found?.map (Outcome.mark m)).map (Outcome.more later) := by
  cases found? <;> rfl

theorem map_prefer (greedy : Bool) (further enough : Option Outcome) :
    prefer greedy (further.map (.more later)) (enough.map (.more later)) =
      (prefer greedy further enough).map (.more later) := by
  cases greedy <;> cases further <;> cases enough <;> rfl

theorem Cursor.more_forward {c : Cursor} {n : Nat} (hn : n ≤ c.after.length) :
    (c.more later).forward n = (c.forward n).more later := by
  simp only [Cursor.more, Cursor.forward, List.take_append_of_le_length hn,
    List.drop_append_of_le_length hn]

theorem stretch_more (start rest : List UInt8) :
    stretch (start ++ later) (rest ++ later) = stretch start rest := by
  have hlength : (start ++ later).length - (rest ++ later).length = start.length - rest.length := by
    simp only [List.length_append]
    omega
  rw [stretch, hlength, List.take_append_of_le_length (Nat.sub_le _ _), stretch]

end More

/-! ### Atoms -/

section Atoms

variable {a : Atom} {bytes : List UInt8} {n : Nat}

/-- With an LF ahead, whether an atom matches does not depend on the text behind the LF. -/
theorem Atom.width_append_of_mem (h : newline ∈ bytes) (later : List UInt8) :
    a.width? (bytes ++ later) = a.width? bytes := by
  cases bytes with
  | nil => cases h
  | cons b rest =>
    cases a with
    | byte accepts => rfl
    | scalar accepts =>
      have hcut : front b rest ≠ .cut := by
        intro hcut
        rcases List.mem_cons.mp h with rfl | hrest
        · cases hcut
        · exact absurd (le_of_front_cut hcut newline hrest) (by decide)
      simp only [List.cons_append, Atom.width?, front_append hcut]

/-- The atom does not match LF. -/
def Atom.staysInLine : Atom → Bool
  | .scalar accepts | .byte accepts => !accepts.contains newline.toNat

/-- An LF ahead is still ahead behind an atom that does not match it. -/
theorem Atom.mem_drop_width (ha : a.staysInLine) (h : newline ∈ bytes)
    (hwidth : a.width? bytes = some n) : newline ∈ bytes.drop n := by
  cases bytes with
  | nil => cases h
  | cons b rest =>
    have hfirst : b ≠ newline := by
      rintro rfl
      have hnone : a.width? (newline :: rest) = none := by
        cases a with
        | byte accepts => exact if_neg (ne_true_of_eq_false ((Bool.not_eq_true' _).mp ha))
        | scalar accepts => exact if_neg (ne_true_of_eq_false ((Bool.not_eq_true' _).mp ha))
      rw [hnone] at hwidth
      cases hwidth
    have hrest : newline ∈ rest := List.mem_of_ne_of_mem hfirst.symm h
    have hsplit : ∀ k, (∀ x ∈ rest.take k, 0x80 ≤ x) → newline ∈ rest.drop k := by
      intro k hhigh
      rw [← List.take_append_drop k rest, List.mem_append] at hrest
      exact hrest.resolve_left fun htaken => absurd (hhigh newline htaken) (by decide)
    obtain ⟨hpos, -, -⟩ := Atom.width_bounds hwidth
    obtain ⟨k, rfl⟩ := Nat.exists_eq_add_of_le' hpos
    rw [List.drop_succ_cons]
    cases a with
    | byte accepts =>
      simp only [Atom.width?] at hwidth
      split_ifs at hwidth
      obtain rfl : 0 = k := Nat.succ.inj (Option.some.inj hwidth)
      exact hrest
    | scalar accepts =>
      cases hfront : front b rest with
      | invalid w => simp [Atom.width?, hfront] at hwidth
      | cut => simp [Atom.width?, hfront] at hwidth
      | scalar c w =>
        simp only [Atom.width?, hfront] at hwidth
        split_ifs at hwidth
        obtain rfl : w = k + 1 := Option.some.inj hwidth
        exact hsplit k (le_of_front_scalar hfront)

end Atoms

/-! ### Matches -/

namespace Regex

/-- The part looks at nothing, takes up no LF, and has no loops whose rounds may take up nothing. -/
def staysInLine : Regex → Bool
  | empty => true
  | atom a => a.staysInLine
  | look _ | loose _ _ => false
  | group _ r | plus _ r | star _ r => r.staysInLine
  | cat r s | alt r s => r.staysInLine && s.staysInLine

/-- The part and the end of the line behind it. -/
def line (r : Regex) : Regex := .cat r (.char '\n')

theorem isPlain_of_staysInLine {r : Regex} (h : r.staysInLine) : r.isPlain := by
  induction r with
  | empty | atom a => rfl
  | look l | loose greedy r ih => cases h
  | group name r ih | plus greedy r ih | star greedy r ih => exact ih h
  | cat r s ihr ihs | alt r s ihr ihs =>
    obtain ⟨hr, hs⟩ := Bool.and_eq_true_iff.mp h
    exact Bool.and_eq_true_iff.mpr ⟨ihr hr, ihs hs⟩

/-- Two ways to go on agree wherever an LF is ahead, but for the text behind. -/
def AgreeInLine (later : List UInt8) (moved moved' : Continuation) : Prop :=
  ∀ d : Cursor, newline ∈ d.after → moved' (d.more later) = (moved d).map (.more later)

section Rounds

variable {r : Regex} {later : List UInt8} {greedy : Bool} {exit exit' : Continuation}
  (hround : ∀ {moved moved' : Continuation} {c : Cursor}, newline ∈ c.after →
    AgreeInLine later moved moved' →
    r.run none moved' (c.more later) = (r.run none moved c).map (.more later))
include hround

/-- A repetition agrees if its rounds and the way out of it do. -/
theorem agreeInLine_again (hexit : AgreeInLine later exit exit') :
    AgreeInLine later (again r.run greedy exit) (again r.run greedy exit') := by
  intro c hc
  induction hn : c.after.length using Nat.strongRecOn generalizing c with
  | ind n ih =>
    rw [again, again, ← map_prefer, hexit c hc]
    refine congrArg (prefer greedy · _) (hround hc fun d hd => ?_)
    have hlength : (d.more later).after.length < (c.more later).after.length ↔
        d.after.length < c.after.length := by
      simp only [Cursor.more, List.length_append]
      omega
    by_cases hlt : d.after.length < c.after.length
    · rw [if_pos hlt, if_pos (hlength.mpr hlt)]
      exact ih d.after.length (hn ▸ hlt) d hd rfl
    · rw [if_neg hlt, if_neg (mt hlength.mp hlt)]
      rfl

end Rounds

/-- **A match that has an LF ahead does not depend on the text behind.** -/
theorem run_more {r : Regex} (hr : r.staysInLine) {later : List UInt8}
    {still still' : Option Outcome} {moved moved' : Continuation} {c : Cursor}
    (hc : newline ∈ c.after) (hstill : still' = still.map (.more later))
    (hmoved : AgreeInLine later moved moved') :
    r.run still' moved' (c.more later) = (r.run still moved c).map (.more later) := by
  induction r generalizing still still' moved moved' c with
  | empty => exact hstill
  | atom a =>
    simp only [run]
    have hwidth : a.width? (c.more later).after = a.width? c.after :=
      Atom.width_append_of_mem hc later
    rw [hwidth]
    cases h : a.width? c.after with
    | none => rfl
    | some n =>
      obtain ⟨-, -, hle⟩ := Atom.width_bounds h
      change moved' ((c.more later).forward n) = (moved (c.forward n)).map (.more later)
      rw [Cursor.more_forward later hle]
      exact hmoved _ (Atom.mem_drop_width hr hc h)
  | look l => cases hr
  | group name r ih =>
    simp only [run]
    rw [← Outcome.more_mark]
    refine congrArg (Option.map _) (ih hr hc ?_ fun d hd => ?_)
    · rw [hstill]
      exact Outcome.more_mark later (.leave name c.after) still
    · rw [hmoved d hd]
      exact Outcome.more_mark later (.leave name d.after) (moved d)
  | cat r s ihr ihs =>
    obtain ⟨hr, hs⟩ := Bool.and_eq_true_iff.mp hr
    exact ihr hr hc (ihs hs hc hstill hmoved) fun d hd => ihs hs hd (hmoved d hd) hmoved
  | alt r s ihr ihs =>
    obtain ⟨hr, hs⟩ := Bool.and_eq_true_iff.mp hr
    simp only [run]
    rw [ihr hr hc hstill hmoved, ihs hs hc hstill hmoved, Option.map_or]
  | plus greedy r ih =>
    exact ih hr hc rfl (agreeInLine_again (fun hc hmoved => ih hr hc rfl hmoved) hmoved)
  | star greedy r ih =>
    simp only [run]
    have hround {moved moved' : Continuation} {c : Cursor} (hc : newline ∈ c.after)
        (hmoved : AgreeInLine later moved moved') :
        r.run none moved' (c.more later) = (r.run none moved c).map (.more later) :=
      ih hr hc rfl hmoved
    rw [hround hc (agreeInLine_again hround hmoved), hstill, map_prefer]
  | loose greedy r ih => cases hr

variable {r : Regex} {later : List UInt8}

/-- The end of a line is where the next byte is LF. -/
theorem run_newline (still : Option Outcome) (moved : Continuation) (c : Cursor) :
    (char '\n').run still moved c =
      if c.after.head? = some newline then moved (c.forward 1) else none := by
  have hnewline : char '\n' = atom (.byte (.single newline.toNat)) := rfl
  rw [hnewline, run]
  cases c.after with
  | nil => rfl
  | cons b rest =>
    have hwidth : (Atom.byte (.single newline.toNat)).width? (b :: rest) =
        if b = newline then some 1 else none := by
      simp only [Atom.width?, CodeSet.single, CodeSet.contains, Bool.or_false, Bool.and_eq_true,
        decide_eq_true_eq, ← UInt8.le_iff_toNat_le, UInt8.le_antisymm_iff (a := b), and_comm]
    rw [hwidth, List.head?_cons]
    by_cases hb : b = newline
    · rw [if_pos hb, if_pos (congrArg some hb)]
    · rw [if_neg hb, if_neg fun h => hb (Option.some.inj h)]

theorem matchAt_more (hr : r.staysInLine) {c : Cursor} (hc : newline ∈ c.after) :
    r.line.matchAt (c.more later) = (r.line.matchAt c).map (.more later) := by
  have hend (still still' : Option Outcome) : AgreeInLine later
      (fun d => (char '\n').run still (fun e => some (.finish e)) d)
      (fun d => (char '\n').run still' (fun e => some (.finish e)) d) := by
    intro d hd
    have hhead : (d.more later).after.head? = d.after.head? :=
      List.head?_append_of_ne_nil _ (List.ne_nil_of_mem hd)
    simp only [run_newline, hhead]
    split_ifs
    · rw [Cursor.more_forward later (List.length_pos_of_mem hd)]
      rfl
    · rfl
  exact run_more hr hc (hend _ _ c hc) fun d hd => hend (some (.finish d)) _ d hd

/-- A whole line ends with LF. -/
theorem newline_mem_of_accepts {word rest : List UInt8} (h : r.line.Accepts word rest) :
    newline ∈ word := by
  obtain ⟨u, v, rfl, -, hv⟩ := accepts_cat_iff.mp h
  obtain rfl : v = [newline] := accepts_byte_iff.mp hv
  exact List.mem_append_right u List.mem_cons_self

theorem isPlain_line (hr : r.staysInLine) : r.line.isPlain :=
  Bool.and_eq_true_iff.mpr ⟨isPlain_of_staysInLine hr, rfl⟩

theorem newline_mem_of_searchFrom (hr : r.staysInLine) {before after : List UInt8} {f : Found}
    (h : r.line.searchFrom before after = some f) : newline ∈ after := by
  obtain ⟨word, hword, hsuffix⟩ := exists_word_of_searchFrom (isPlain_line hr) h
  exact hsuffix.mem (List.mem_append_left _ (newline_mem_of_accepts hword))

theorem searchFrom_more (hr : r.staysInLine) {before after : List UInt8} {f : Found}
    (h : r.line.searchFrom before after = some f) :
    r.line.searchFrom before (after ++ later) = some (f.more later) := by
  have hline : newline ∈ after := newline_mem_of_searchFrom hr h
  have hhere : r.line.matchAt ⟨before, after ++ later⟩ =
      (r.line.matchAt ⟨before, after⟩).map (.more later) :=
    matchAt_more hr (c := ⟨before, after⟩) hline
  induction after generalizing before with
  | nil => cases hline
  | cons b rest ih =>
    rw [searchFrom, Option.or_eq_some_iff] at h
    rw [List.cons_append] at hhere ⊢
    rw [searchFrom, hhere]
    rcases h with hfirst | ⟨hnone, hlater⟩
    · obtain ⟨o, ho, rfl⟩ := Option.map_eq_some_iff.mp hfirst
      rw [ho]
      rfl
    · rw [Option.map_eq_none_iff.mp hnone]
      have hrest : newline ∈ rest := newline_mem_of_searchFrom hr hlater
      exact ih hlater hrest (matchAt_more hr (c := ⟨b :: before, rest⟩) hrest)

/-- **What is found of a whole line stays found**, whatever text comes later. -/
theorem search_more (hr : r.staysInLine) {text : List UInt8} {f : Found}
    (h : r.line.search text = some f) (later : List UInt8) :
    r.line.search (text ++ later) = some (f.more later) :=
  searchFrom_more hr h

end Regex

/-! ### Prompts -/

section Groups

variable (later : List UInt8) (name : String)

/-- What is picked among the marks of a match is picked again with more text behind them. -/
theorem foldl_more {pick : Option (List UInt8) → Mark → Option (List UInt8)}
    (hpick : ∀ found? m, pick (found?.map (· ++ later)) (m.more later) =
      (pick found? m).map (· ++ later)) (marks : List Mark) (found? : Option (List UInt8)) :
    (marks.map (·.more later)).foldl pick (found?.map (· ++ later)) =
      (marks.foldl pick found?).map (· ++ later) := by
  induction marks generalizing found? with
  | nil => rfl
  | cons m marks ih =>
    rw [List.map_cons, List.foldl_cons, hpick, ih]
    rfl

theorem Outcome.lastEntered_more (o : Outcome) :
    (o.more later).lastEntered? name = (o.lastEntered? name).map (· ++ later) := by
  refine foldl_more later (fun found? m => ?_) o.marks none
  cases m with
  | enter n rest =>
    simp only [Mark.more]
    split_ifs <;> rfl
  | leave n rest => rfl

theorem Outcome.lastLeft_more (o : Outcome) :
    (o.more later).lastLeft? name = (o.lastLeft? name).map (· ++ later) := by
  refine foldl_more later (fun found? m => ?_) o.marks none
  cases m with
  | leave n rest =>
    simp only [Mark.more]
    split_ifs <;> rfl
  | enter n rest => rfl

theorem Outcome.capture_more (o : Outcome) : (o.more later).capture? name = o.capture? name := by
  simp only [Outcome.capture?, lastEntered_more, lastLeft_more]
  cases o.lastEntered? name with
  | none => rfl
  | some start =>
    cases o.lastLeft? name with
    | none => rfl
    | some rest => exact congrArg some (stretch_more later start rest)

end Groups

theorem Found.toMatch_more {τ : Type} (f : Found) (later : List UInt8) (tag : τ)
    (names : List String) : (f.more later).toMatch tag names = f.toMatch tag names := by
  have hbytes : (f.more later).bytes = f.bytes := stretch_more later f.start f.outcome.rest
  have hgroup (name : String) :
      (f.more later).outcome.capture? name = f.outcome.capture? name :=
    f.outcome.capture_more later name
  simp only [Found.toMatch, hbytes, hgroup]

/-- **So does a prompt for a whole line**, and just as much is given up for it. -/
theorem Prompts.find_append_of_line {τ : Type} {tag : τ} {r : Regex} (hr : r.staysInLine)
    {text : List UInt8} {found : Match τ} {stop : Nat}
    (h : (⟨[(tag, r.line)]⟩ : Prompts τ).find text = some (found, stop)) (later : List UInt8) :
    (⟨[(tag, r.line)]⟩ : Prompts τ).find (text ++ later) = some (found, stop) := by
  simp only [find_eq, List.findSome?_singleton, Option.map_eq_some_iff] at h ⊢
  obtain ⟨f, hf, hmatch⟩ := h
  obtain ⟨rfl, rfl⟩ := Prod.mk.inj hmatch
  refine ⟨f.more later, Regex.search_more hr hf later, ?_⟩
  have hlength : (text ++ later).length - (f.more later).outcome.rest.length =
      text.length - f.outcome.rest.length := by
    simp only [Found.more, Outcome.more, List.length_append]
    omega
  rw [Found.toMatch_more, hlength]

end MudDialogue.Pattern
