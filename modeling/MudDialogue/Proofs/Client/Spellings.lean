import MudDialogue.Client.Login
import MudDialogue.Client.Signup
import MudDialogue.Client.Wander
import MudDialogue.Pattern.Parser
import MudDialogue.Proofs.Pattern.Bounds
import MudDialogue.Proofs.Pattern.Rows

/-!
# How the prompts are spelled

The patterns of the prompts are given here as regular expressions, but a program gives them as texts
to be read. Each of these texts is a pattern, fits, and reads as the regular expression in question,
or as one with its rows put together in another way, so that the same prompts are found.

## Main definitions

* `Form.ofChars?` — what a text spells, whatever room it takes.
* `Prompts.ofSpellings?` — prompts whose patterns are read from texts.
* `Prompts.SpelledAs` — prompts are found as if their patterns were read from some texts.
* `ExitLine.spelling` — the text of the pattern of a list of exits.

## Main results

* `Login.spelledAs_prompts`, `Signup.spelledAs_accountPrompts`, `Signup.spelledAs_characterPrompts`,
  `Wander.spelledAs_prompts` — how all prompts are spelled.
-/

namespace MudDialogue

namespace Pattern

/-- What some characters spell, whatever room it takes. -/
def Form.ofChars? (cs : List Char) : Option Form := do
  let ts ← tokens? .start cs
  let reading ← ts.foldlM Reading.step? .start
  if reading.outer.isEmpty && reading.inner.body.depth ≤ maxDepth then some reading.inner.body.form
  else none

theorem Regex.ofString?_eq (s : String) :
    Regex.ofString? s = (Form.ofChars? s.toList).bind fun f =>
      if f.fits then some f.toRegex else none := by
  unfold Regex.ofString? Form.ofChars?
  cases tokens? .start s.toList with
  | none => rfl
  | some ts =>
    cases hread : ts.foldlM Reading.step? .start with
    | none => simp [hread]
    | some reading =>
      simp only [hread, Option.bind_eq_bind, Option.bind_some, Reading.finish?]
      cases reading.outer.isEmpty && reading.inner.body.depth ≤ maxDepth <;> simp

namespace Prompts

variable {τ : Type}

/-- Prompts whose patterns are read from texts, if each text is a pattern. -/
def ofSpellings? (spelled : List (τ × String)) : Option (Prompts τ) :=
  (spelled.mapM fun p => (Regex.ofString? p.2).map (p.1, ·)).map Prompts.mk

/-- The texts are patterns, and the prompts are found as if their patterns were read from them. -/
def SpelledAs (set : Prompts τ) (spelled : List (τ × String)) : Prop :=
  ∃ read, ofSpellings? spelled = some read ∧ read.find = set.find

/-- It is enough that the patterns read as they are. -/
theorem spelledAs_of_patterns {set : Prompts τ} {spelled : List (τ × String)}
    (h : (ofSpellings? spelled).map patterns = some set.patterns) : set.SpelledAs spelled := by
  obtain ⟨read, hread, hpatterns⟩ := Option.map_eq_some_iff.mp h
  exact ⟨read, hread, congrArg (fun ps => find ⟨ps⟩) hpatterns⟩

end Prompts

end Pattern

open Pattern

theorem Login.spelledAs_prompts : Login.prompts.SpelledAs [
    (.inUse, "already online"),
    (.unknown, "User not found"),
    (.name, "Username: $"),
    (.password, "Password: $"),
    (.menu, "> $")] :=
  Prompts.spelledAs_of_patterns (by decide +kernel)

theorem Signup.spelledAs_accountPrompts : Signup.accountPrompts.SpelledAs [
    (.taken, "unavailable"),
    (.name, "Desired username"),
    (.password, "Desired password"),
    (.confirmation, "Confirm password"),
    (.menu, "> $")] :=
  Prompts.spelledAs_of_patterns (by decide +kernel)

theorem Signup.spelledAs_characterPrompts : Signup.characterPrompts.SpelledAs [
    (.name, "Desired character name"),
    (.menu, "> $")] :=
  Prompts.spelledAs_of_patterns (by decide +kernel)

/-! ### The line that lists the exits -/

namespace ExitLine

/-- The pattern of a list of exits as a text, piece by piece. -/
def spelling : List String := [
  "Exits:[ \\t]*",
  "(?:\\[(?P<n>N)\\][^\\[\\r\\n]*)?",
  "(?:\\[(?P<ne>NE)\\][^\\[\\r\\n]*)?",
  "(?:\\[(?P<e>E)\\][^\\[\\r\\n]*)?",
  "(?:\\[(?P<se>SE)\\][^\\[\\r\\n]*)?",
  "(?:\\[(?P<s>S)\\][^\\[\\r\\n]*)?",
  "(?:\\[(?P<sw>SW)\\][^\\[\\r\\n]*)?",
  "(?:\\[(?P<w>W)\\][^\\[\\r\\n]*)?",
  "(?:\\[(?P<nw>NW)\\][^\\[\\r\\n]*)?",
  "(?:\\[[UD]\\][^\\[\\r\\n]*)*",
  "(?:None)?[ \\t]*\\r?\\n"]

theorem exists_form_spelling : ∃ f, Form.ofChars? (spelling.flatMap String.toList) = some f ∧
    f.toRegex.lined = pattern.lined ∧
    ∀ backward, (f.most? backward).any (· + 240 ≤ Room.limit) := by
  have hform : (Form.ofChars? (spelling.flatMap String.toList)).any (fun f =>
      f.toRegex.lined = pattern.lined ∧
        ∀ backward, (f.most? backward).any (· + 240 ≤ Room.limit)) = true := by decide +kernel
  obtain ⟨f, hf, h⟩ := Option.any_eq_true _ _ |>.mp hform
  exact ⟨f, hf, of_decide_eq_true h⟩

end ExitLine

/-- **The list of exits is found as its pattern is spelled.** -/
theorem Wander.spelledAs_prompts :
    Wander.prompts.SpelledAs [(.exitLine, String.join ExitLine.spelling)] := by
  obtain ⟨f, hf, hlined, hmost⟩ := ExitLine.exists_form_spelling
  have hread : Regex.ofString? (String.join ExitLine.spelling) = some f.toRegex := by
    rw [Regex.ofString?_eq, String.toList_join, hf, Option.bind_some,
      if_pos (Form.fits_of_most hmost)]
  refine ⟨⟨[(.exitLine, f.toRegex)]⟩, ?_, ?_⟩
  · simp [Prompts.ofSpellings?, hread]
  · rw [← Prompts.find_lined, ← Prompts.find_lined Wander.prompts, Prompts.lined, Prompts.lined]
    simp [Wander.prompts, hlined]

end MudDialogue
