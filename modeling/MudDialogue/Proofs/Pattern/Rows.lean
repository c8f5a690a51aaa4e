import MudDialogue.Pattern.Prompts

/-!
# Parts in a row

It does not matter how the parts of a regular expression that stand in a row are put together: two
and then a third, or one and then two others. The same places match, in the same order, and the same
groups take part. So regular expressions can be compared with all their rows put together in one
way.

## Main definitions

* `Regex.lined` — a regular expression with each part of a row put before all those behind it.
* `Prompts.lined` — prompts with such patterns.

## Main results

* `Regex.run_lined`, `Regex.tryOut_lined` — a match goes on as before.
* `Prompts.find_lined` — the same prompts are found.
-/

namespace MudDialogue.Pattern

namespace Regex

/-- A row of parts before one more part. -/
def before : Regex → Regex → Regex
  | cat r t, s => cat r (t.before s)
  | r, s => cat r s

/-- The same parts, with each part of a row put before all those behind it. -/
def lined : Regex → Regex
  | cat r s => r.lined.before s.lined
  | group name r => group name r.lined
  | alt r s => alt r.lined s.lined
  | plus greedy r => plus greedy r.lined
  | star greedy r => star greedy r.lined
  | loose greedy r => loose greedy r.lined
  | r => r

/-! ### What a row amounts to -/

section Before

variable (r s : Regex)

theorem choices_before : (r.before s).choices = (cat r s).choices := by
  induction r with
  | cat r t ihr iht => simp only [before, choices, iht, Nat.add_assoc]
  | _ => rfl

theorem groupNames_before : (r.before s).groupNames = (cat r s).groupNames := by
  induction r with
  | cat r t ihr iht => simp only [before, groupNames, iht, List.append_assoc]
  | _ => rfl

theorem tryOut_before : (r.before s).tryOut = (cat r s).tryOut := by
  induction r with
  | cat r t ihr iht =>
    funext n still moved c
    simp only [before, tryOut, iht, choices, Nat.add_assoc]
  | _ => rfl

theorem run_before : (r.before s).run = (cat r s).run := by
  induction r with
  | cat r t ihr iht =>
    funext still moved c
    simp only [before, run, iht]
  | _ => rfl

end Before

theorem choices_lined (r : Regex) : r.lined.choices = r.choices := by
  induction r with
  | cat r s ihr ihs => rw [lined, choices_before, choices, choices, ihr, ihs]
  | group name r ih => exact ih
  | alt r s ihr ihs => simp only [lined, choices, ihr, ihs]
  | plus greedy r ih | star greedy r ih | loose greedy r ih => simp only [lined, choices, ih]
  | _ => rfl

theorem groupNames_lined (r : Regex) : r.lined.groupNames = r.groupNames := by
  induction r with
  | cat r s ihr ihs => rw [lined, groupNames_before, groupNames, groupNames, ihr, ihs]
  | group name r ih => simp only [lined, groupNames, ih]
  | alt r s ihr ihs => simp only [lined, groupNames, ihr, ihs]
  | plus greedy r ih | star greedy r ih | loose greedy r ih => simp only [lined, groupNames, ih]
  | _ => rfl

/-- **Inside of a loose loop a match goes on as before.** -/
theorem tryOut_lined (r : Regex) : r.lined.tryOut = r.tryOut := by
  induction r with
  | cat r s ihr ihs =>
    rw [lined, tryOut_before]
    funext n still moved c
    simp only [tryOut, ihr, ihs, choices_lined]
  | group name r ih | plus greedy r ih | star greedy r ih | loose greedy r ih =>
    funext n still moved c
    simp only [lined, tryOut, ih]
  | alt r s ihr ihs =>
    funext n still moved c
    simp only [lined, tryOut, ihr, ihs, choices_lined]
  | _ => rfl

/-- **A match goes on as before.** -/
theorem run_lined (r : Regex) : r.lined.run = r.run := by
  induction r with
  | cat r s ihr ihs =>
    rw [lined, run_before]
    funext still moved c
    simp only [run, ihr, ihs]
  | group name r ih | plus greedy r ih | star greedy r ih =>
    funext still moved c
    simp only [lined, run, ih]
  | alt r s ihr ihs =>
    funext still moved c
    simp only [lined, run, ihr, ihs]
  | loose greedy r =>
    have hloop : (loose greedy r.lined).tryOut = (loose greedy r).tryOut :=
      tryOut_lined (loose greedy r)
    funext still moved c
    simp only [lined, run, hloop]
  | _ => rfl

theorem search_lined (r : Regex) (haystack : List UInt8) :
    r.lined.search haystack = r.search haystack := by
  have hfrom (before after : List UInt8) :
      r.lined.searchFrom before after = r.searchFrom before after := by
    induction after generalizing before with
    | nil => simp only [searchFrom, matchAt, run_lined]
    | cons b after ih => simp only [searchFrom, matchAt, run_lined, ih]
  exact hfrom [] haystack

end Regex

namespace Prompts

variable {τ : Type}

/-- The same prompts, with the rows of their patterns put together in one way. -/
def lined (set : Prompts τ) : Prompts τ := ⟨set.patterns.map fun p => (p.1, p.2.lined)⟩

/-- **The same prompts are found.** -/
theorem find_lined (set : Prompts τ) : set.lined.find = set.find := by
  funext haystack
  simp only [find_eq, lined, List.findSome?_map, Function.comp_def, Regex.search_lined,
    Regex.groupNames_lined]

end Prompts

end MudDialogue.Pattern
