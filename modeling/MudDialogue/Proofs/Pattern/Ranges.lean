import MudDialogue.Pattern.Prompts

/-!
# Matches lie within the text

Whatever a regular expression is, loose loops and looks included, its match is a range of the text
that is searched: it starts somewhere in the text and ends at the same place or behind it. What is
told of a prompt is therefore told of bytes that are there.

## Main definitions

* `EndsIn` — nothing of what is left behind a match is outside of a text.

## Main results

* `Regex.endsIn_run` — a match ends in what stands behind its start.
* `Prompts.exists_range_of_find` — what is recognised is a range of the text, and everything through
  the end of the range is given up.
-/

namespace MudDialogue.Pattern

open Text

/-- If this is a match, then it ends in the text or right before it. -/
def EndsIn (text : List UInt8) (found? : Option Outcome) : Prop :=
  ∀ o, found? = some o → o.rest <:+ text

variable {text : List UInt8} {found? : Option Outcome}

theorem endsIn_none : EndsIn text none := fun _ h => nomatch h

theorem EndsIn.mark (h : EndsIn text found?) (m : Mark) : EndsIn text (found?.map (.mark m)) := by
  intro o ho
  obtain ⟨o, hfound, rfl⟩ := Option.map_eq_some_iff.mp ho
  exact h o hfound

theorem EndsIn.or {first second : Option Outcome} (h : EndsIn text first)
    (h' : EndsIn text second) : EndsIn text (first.or second) := by
  intro o ho
  rcases Option.or_eq_some_iff.mp ho with hfirst | ⟨-, hsecond⟩
  · exact h o hfirst
  · exact h' o hsecond

theorem EndsIn.prefer {more enough : Option Outcome} (h : EndsIn text more)
    (h' : EndsIn text enough) (greedy : Bool) : EndsIn text (prefer greedy more enough) := by
  cases greedy with
  | true => exact h.or h'
  | false => exact h'.or h

/-- What stands behind a place further on stands behind the place. -/
theorem Cursor.after_forward_suffix (c : Cursor) (n : Nat) : (c.forward n).after <:+ c.after :=
  List.drop_suffix n c.after

/-! ### Inside of loose loops -/

namespace Trial

/-- Whatever has been tried, the trial does not lead out of the text. -/
def EndsIn (text : List UInt8) (x : Trial) : Prop := ∀ tried, Pattern.EndsIn text (x tried).1

variable {x y : Trial}

theorem endsIn_settled (h : Pattern.EndsIn text found?) : (settled found?).EndsIn text :=
  fun _ => h

theorem EndsIn.orElse (h : x.EndsIn text) (h' : y.EndsIn text) : (x.orElse y).EndsIn text := by
  intro tried
  have hfirst := h tried
  simp only [Trial.orElse]
  cases hx : x tried with
  | mk found? later =>
    rw [hx] at hfirst
    cases found? with
    | none => exact h' later
    | some o => exact hfirst

theorem EndsIn.prefer (h : x.EndsIn text) (h' : y.EndsIn text) (greedy : Bool) :
    (Trial.prefer greedy x y).EndsIn text := by
  cases greedy with
  | true => exact h.orElse h'
  | false => exact h'.orElse h

theorem EndsIn.once (h : x.EndsIn text) (choice : Nat) : (Trial.once choice x).EndsIn text := by
  intro tried
  unfold Trial.once
  split
  · exact endsIn_none
  · exact h _

theorem EndsIn.mark (h : x.EndsIn text) (m : Mark) : (Trial.mark m x).EndsIn text :=
  fun tried => (h tried).mark m

end Trial

/-- From every place in the text, the way to go on stays in it. -/
def StaysIn (text : List UInt8) (moved : Continuation) : Prop :=
  ∀ d : Cursor, d.after <:+ text → EndsIn text (moved d)

/-- From every place in the text, the trial stays in it. -/
def TriesIn (text : List UInt8) (moved : Cursor → Trial) : Prop :=
  ∀ d : Cursor, d.after <:+ text → (moved d).EndsIn text

theorem triesIn_turn {round : Trial → (Cursor → Trial) → Cursor → Trial} {choice : Nat}
    {greedy : Bool} {exit : Cursor → Trial}
    (hround : ∀ (moved : Cursor → Trial) (c : Cursor), c.after <:+ text → TriesIn text moved →
      (round (.settled none) moved c).EndsIn text)
    (hexit : TriesIn text exit) : TriesIn text (turn round choice greedy exit) := by
  intro c hc
  induction hn : c.after.length using Nat.strongRecOn generalizing c with
  | ind n ih =>
    rw [turn]
    refine ((hround _ c hc fun d hd => ?_).prefer (hexit c hc) greedy).once choice
    split
    · rename_i hlt
      exact ih d.after.length (hn ▸ hlt) d hd rfl
    · exact Trial.endsIn_settled endsIn_none

/-- **Inside of a loose loop a match stays in the text.** -/
theorem Regex.endsIn_tryOut {r : Regex} {n : Nat} {still : Trial} {moved : Cursor → Trial}
    {c : Cursor} (hc : c.after <:+ text) (hstill : still.EndsIn text) (hmoved : TriesIn text moved) :
    (r.tryOut n still moved c).EndsIn text := by
  induction r generalizing n still moved c with
  | empty => exact hstill
  | atom a =>
    simp only [tryOut]
    cases a.width? c.after with
    | none => exact Trial.endsIn_settled endsIn_none
    | some w =>
      exact Trial.endsIn_settled (hmoved _ ((c.after_forward_suffix w).trans hc) 0)
  | look l =>
    simp only [tryOut]
    split
    · exact hstill
    · exact Trial.endsIn_settled endsIn_none
  | group name r ih =>
    exact (ih hc (hstill.mark _) fun d hd => (hmoved d hd).mark _).mark _
  | cat r s ihr ihs => exact ihr hc (ihs hc hstill hmoved) fun d hd => ihs hd (hmoved d hd) hmoved
  | alt r s ihr ihs => exact ((ihr hc hstill hmoved).orElse (ihs hc hstill hmoved)).once n
  | plus greedy r ih =>
    have hround (moved : Cursor → Trial) (c : Cursor) (hc : c.after <:+ text)
        (hmoved : TriesIn text moved) : (r.tryOut (n + 1) (.settled none) moved c).EndsIn text :=
      ih hc (Trial.endsIn_settled endsIn_none) hmoved
    exact hround _ c hc (triesIn_turn hround hmoved)
  | star greedy r ih =>
    have hround (moved : Cursor → Trial) (c : Cursor) (hc : c.after <:+ text)
        (hmoved : TriesIn text moved) : (r.tryOut (n + 1) (.settled none) moved c).EndsIn text :=
      ih hc (Trial.endsIn_settled endsIn_none) hmoved
    exact ((hround _ c hc (triesIn_turn hround hmoved)).prefer hstill greedy).once n
  | loose greedy r ih =>
    have hround (moved : Cursor → Trial) (c : Cursor) (hc : c.after <:+ text)
        (hmoved : TriesIn text moved) : (r.tryOut (n + 1) (.settled none) moved c).EndsIn text :=
      ih hc (Trial.endsIn_settled endsIn_none) hmoved
    have hturn : TriesIn text (turn (r.tryOut (n + 1)) n greedy moved) :=
      triesIn_turn hround hmoved
    exact ih hc (((hround _ c hc hturn).prefer hstill greedy).once n) hturn

/-! ### Outside of loose loops -/

theorem staysIn_again {round : Option Outcome → Continuation → Continuation} {greedy : Bool}
    {exit : Continuation}
    (hround : ∀ (moved : Continuation) (c : Cursor), c.after <:+ text → StaysIn text moved →
      EndsIn text (round none moved c))
    (hexit : StaysIn text exit) : StaysIn text (again round greedy exit) := by
  intro c hc
  induction hn : c.after.length using Nat.strongRecOn generalizing c with
  | ind n ih =>
    rw [again]
    refine (hround _ c hc fun d hd => ?_).prefer (hexit c hc) greedy
    split
    · rename_i hlt
      exact ih d.after.length (hn ▸ hlt) d hd rfl
    · exact endsIn_none

/-- **A match stays in the text.** -/
theorem Regex.endsIn_run {r : Regex} {still : Option Outcome} {moved : Continuation} {c : Cursor}
    (hc : c.after <:+ text) (hstill : EndsIn text still) (hmoved : StaysIn text moved) :
    EndsIn text (r.run still moved c) := by
  induction r generalizing still moved c with
  | empty => exact hstill
  | atom a =>
    simp only [run]
    cases a.width? c.after with
    | none => exact endsIn_none
    | some w => exact hmoved _ ((c.after_forward_suffix w).trans hc)
  | look l =>
    simp only [run]
    split
    · exact hstill
    · exact endsIn_none
  | group name r ih =>
    exact (ih hc (hstill.mark _) fun d hd => (hmoved d hd).mark _).mark _
  | cat r s ihr ihs => exact ihr hc (ihs hc hstill hmoved) fun d hd => ihs hd (hmoved d hd) hmoved
  | alt r s ihr ihs => exact (ihr hc hstill hmoved).or (ihs hc hstill hmoved)
  | plus greedy r ih =>
    exact ih hc endsIn_none (staysIn_again (fun _ _ hc => ih hc endsIn_none) hmoved)
  | star greedy r ih =>
    have hagain : StaysIn text (again r.run greedy moved) :=
      staysIn_again (fun _ _ hc => ih hc endsIn_none) hmoved
    exact (ih hc endsIn_none hagain).prefer hstill greedy
  | loose greedy r ih =>
    exact endsIn_tryOut hc (Trial.endsIn_settled hstill)
      (fun d hd => Trial.endsIn_settled (hmoved d hd)) 0

namespace Regex

variable {r : Regex}

theorem rest_suffix_of_matchAt {c : Cursor} {o : Outcome} (h : r.matchAt c = some o) :
    o.rest <:+ c.after := by
  have hfinish (d : Cursor) (hd : d.after <:+ c.after) : EndsIn c.after (some (.finish d)) := by
    intro o ho
    obtain rfl := Option.some.inj ho
    exact hd
  exact endsIn_run (List.suffix_refl _) (hfinish c (List.suffix_refl _)) hfinish o h

/-- A match starts in the text and ends behind its start. -/
theorem suffix_of_searchFrom {before after : List UInt8} {f : Found}
    (h : r.searchFrom before after = some f) :
    f.start <:+ after ∧ f.outcome.rest <:+ f.start := by
  have hhere {before after : List UInt8}
      (h : (r.matchAt ⟨before, after⟩).map (Found.mk after) = some f) :
      f.start <:+ after ∧ f.outcome.rest <:+ f.start := by
    obtain ⟨o, ho, rfl⟩ := Option.map_eq_some_iff.mp h
    exact ⟨List.suffix_refl after, rest_suffix_of_matchAt ho⟩
  induction after generalizing before with
  | nil => exact hhere h
  | cons b after ih =>
    rw [searchFrom, Option.or_eq_some_iff] at h
    rcases h with h | ⟨-, h⟩
    · exact hhere h
    · obtain ⟨hstart, hrest⟩ := ih h
      exact ⟨hstart.trans (List.suffix_cons b after), hrest⟩

end Regex

/-- **What is recognised is a range of the text**, and everything through its end is given up. -/
theorem Prompts.exists_range_of_find {τ : Type} {set : Prompts τ} {haystack : List UInt8}
    {found : Match τ} {stop : Nat} (h : set.find haystack = some (found, stop)) :
    ∃ start, start ≤ stop ∧ stop ≤ haystack.length ∧
      found.matched = Utf8.text ((haystack.take stop).drop start) := by
  rw [find_eq] at h
  obtain ⟨p, -, h⟩ := List.exists_of_findSome?_eq_some h
  obtain ⟨f, hsearch, hf⟩ := Option.map_eq_some_iff.mp h
  obtain ⟨rfl, rfl⟩ := Prod.mk.inj hf
  obtain ⟨⟨before, rfl⟩, word, hword⟩ := Regex.suffix_of_searchFrom hsearch
  refine ⟨before.length, ?_, Nat.sub_le _ _, congrArg Utf8.text ?_⟩
  · rw [← hword, List.length_append, List.length_append]
    omega
  · have hstretch : f.bytes = word := by
      rw [Found.bytes, stretch, ← hword, List.length_append, Nat.add_sub_cancel, List.take_left]
    have hstop : (before ++ f.start).length - f.outcome.rest.length = (before ++ word).length := by
      rw [← hword]
      simp only [List.length_append]
      omega
    rw [hstretch, hstop, ← hword, ← List.append_assoc, List.take_left, List.drop_left]

end MudDialogue.Pattern
