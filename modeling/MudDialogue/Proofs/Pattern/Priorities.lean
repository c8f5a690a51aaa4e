import Mathlib.Data.Nat.Find
import MudDialogue.Backlog
import MudDialogue.Proofs.Pattern.Texts

/-!
# Which prompt is recognised

A set of prompts goes by its order, not by the order in the text: the first pattern of the set that
matches anywhere is the one that is recognised. For the prompts of a login and of a signup this can
be said without patterns. A text that counts anywhere is recognised if it occurs, and everything
through its first occurrence is given up; a question is recognised if it stands at the very end, and
everything is given up. So a text that turns an account down goes before all questions, wherever the
two stand.

## Main definitions

* `Holds`, `EndsWith`, `FirstEnds` — where a text occurs.
* `Prompts.Reports` — which prompt is recognised, and how much goes up to the end of it.
* `Login.Prompt.Due`, `Signup.AccountPrompt.Due`, `Signup.CharacterPrompt.Due` — what is to be
  recognised as a prompt.

## Main results

* `Regex.stop_literal_iff`, `Regex.stop_question_iff` — how far texts and questions reach.
* `Prompts.reports_cons_iff` — the first pattern with a match counts.
* `reports_prompts_iff` — what is recognised during a login and a signup.
-/

namespace MudDialogue.Pattern

open Text

/-- A text occurs somewhere. -/
def Holds (text : String) (haystack : List UInt8) : Prop := Utf8.bytes text <:+: haystack

/-- A text stands at the very end. -/
def EndsWith (text : String) (haystack : List UInt8) : Prop := Utf8.bytes text <:+ haystack

/-- So many bytes go up to the end of the first occurrence of a text. -/
def FirstEnds (text : String) (haystack : List UInt8) (stop : Nat) : Prop :=
  ∃ n, Utf8.bytes text <+: haystack.drop n ∧ (∀ m < n, ¬ Utf8.bytes text <+: haystack.drop m) ∧
    stop = n + (Utf8.bytes text).length

variable {text other : String} {haystack : List UInt8} {stop : Nat}

theorem holds_iff : Holds text haystack ↔ ∃ stop, FirstEnds text haystack stop := by
  constructor
  · rintro ⟨u, v, rfl⟩
    have hoccurs : ∃ n, Utf8.bytes text <+: (u ++ Utf8.bytes text ++ v).drop n :=
      ⟨u.length, by rw [List.append_assoc, List.drop_left]; exact List.prefix_append _ v⟩
    classical exact ⟨_, Nat.find hoccurs, Nat.find_spec hoccurs, fun m => Nat.find_min hoccurs, rfl⟩
  · rintro ⟨stop, n, hn, -, -⟩
    exact hn.isInfix.trans (List.drop_suffix n haystack).isInfix

/-- Of two texts at the end the one is at the end of the other. -/
theorem EndsWith.not_endsWith (h : EndsWith text haystack)
    (htext : ¬ Utf8.bytes text <:+ Utf8.bytes other)
    (hother : ¬ Utf8.bytes other <:+ Utf8.bytes text) : ¬ EndsWith other haystack := by
  intro h'
  rcases Nat.le_total (Utf8.bytes text).length (Utf8.bytes other).length with hle | hle
  · exact htext (List.suffix_of_suffix_length_le h h' hle)
  · exact hother (List.suffix_of_suffix_length_le h' h hle)

/-! ### Patterns -/

namespace Regex

/-- How many bytes of a text go up to the end of the match of a pattern, if there is one. -/
def stop? (r : Regex) (haystack : List UInt8) : Option Nat :=
  (r.search haystack).map fun f => haystack.length - f.outcome.rest.length

/-- A text is found at its first occurrence. -/
theorem stop_literal_of_first {n : Nat} (hn : Utf8.bytes text <+: haystack.drop n)
    (hfirst : ∀ m < n, ¬ Utf8.bytes text <+: haystack.drop m) :
    (literal text).stop? haystack = some (n + (Utf8.bytes text).length) := by
  have hle : n ≤ haystack.length := by
    by_contra hless
    refine hfirst haystack.length (Nat.lt_of_not_le hless) ?_
    rwa [List.drop_length, ← List.drop_eq_nil_of_le (Nat.le_of_not_le hless)]
  obtain ⟨rest, hrest⟩ := hn
  have hearlier : ∀ z, z <:+ haystack.take n → z ≠ [] → ∀ word rest,
      (literal text).Accepts word rest → word ++ rest ≠ z ++ haystack.drop n := by
    rintro z ⟨w, hw⟩ hne word rest hword heq
    have hlength : w.length + z.length = n := by
      rw [← List.length_append, hw, List.length_take, Nat.min_eq_left hle]
    have hpos : 0 < z.length := List.length_pos_iff.mpr hne
    refine hfirst w.length (by omega) ⟨rest, ?_⟩
    rw [← accepts_literal_iff.mp hword, heq]
    have hwhole : haystack = w ++ (z ++ haystack.drop n) := by
      rw [← List.append_assoc, hw, List.take_append_drop]
    conv_rhs => rw [hwhole, List.drop_left]
  obtain ⟨o, names, taken, hsearch, htakes, htaken, -⟩ := exists_searchFrom_of_first
    (isPlain_literal text) hearlier (accepts_literal_iff.mpr rfl) hrest []
  rw [List.take_append_drop] at hsearch
  rw [accepts_literal_iff.mp htakes.accepts] at htaken
  have hlength := congrArg List.length htaken
  rw [List.length_append, List.length_drop] at hlength
  rw [stop?, search, hsearch, Option.map_some, Option.some.injEq]
  change haystack.length - o.rest.length = _
  omega

/-- **How far a text reaches**: to the end of its first occurrence. -/
theorem stop_literal_iff : (literal text).stop? haystack = some stop ↔
    FirstEnds text haystack stop := by
  constructor
  · intro h
    have hholds : Holds text haystack := by
      by_contra hnone
      rw [stop?, search_literal_eq_none hnone] at h
      cases h
    obtain ⟨_, n, hn, hfirst, rfl⟩ := holds_iff.mp hholds
    rw [stop_literal_of_first hn hfirst] at h
    exact ⟨n, hn, hfirst, (Option.some.inj h).symm⟩
  · rintro ⟨n, hn, hfirst, rfl⟩
    exact stop_literal_of_first hn hfirst

theorem stop_literal_eq_none_iff :
    (literal text).stop? haystack = none ↔ ¬ Holds text haystack := by
  rw [holds_iff, Option.eq_none_iff_forall_ne_some, not_exists]
  exact forall_congr' fun _ => not_congr stop_literal_iff

theorem stop_question_eq_none_iff :
    (question text).stop? haystack = none ↔ ¬ EndsWith text haystack := by
  rw [stop?, Option.map_eq_none_iff, ← Option.not_isSome_iff_eq_none, isSome_search_question_iff]
  rfl

/-- **How far a question reaches**: to the end, if it stands there. -/
theorem stop_question_iff : (question text).stop? haystack = some stop ↔
    EndsWith text haystack ∧ stop = haystack.length := by
  constructor
  · intro h
    refine ⟨by_contra fun hnone => ?_, ?_⟩
    · rw [stop_question_eq_none_iff.mpr hnone] at h
      cases h
    · obtain ⟨f, hf, rfl⟩ := Option.map_eq_some_iff.mp h
      obtain ⟨word, hword, -⟩ := exists_word_of_searchFrom isPlain_question hf
      rw [(accepts_question_iff.mp hword).2, List.length_nil, Nat.sub_zero]
  · rintro ⟨hend, rfl⟩
    obtain ⟨f, hf⟩ := Option.isSome_iff_exists.mp (isSome_search_question_iff.mpr hend)
    obtain ⟨word, hword, -⟩ := exists_word_of_searchFrom isPlain_question hf
    rw [stop?, hf, Option.map_some, (accepts_question_iff.mp hword).2, List.length_nil,
      Nat.sub_zero]

end Regex

/-! ### Sets of prompts -/

namespace Prompts

variable {τ : Type} {set : Prompts τ} {tag first : τ} {r : Regex} {rest : List (τ × Regex)}

/-- The prompt with this tag is recognised, and so many bytes go up to the end of it. -/
def Reports (set : Prompts τ) (haystack : List UInt8) (tag : τ) (stop : Nat) : Prop :=
  ∃ found, set.find haystack = some (found, stop) ∧ found.tag = tag

theorem find_eq_none_iff :
    set.find haystack = none ↔ ∀ p ∈ set.patterns, p.2.stop? haystack = none := by
  rw [find_eq, List.findSome?_eq_none_iff]
  simp only [Regex.stop?, Option.map_eq_none_iff]

/-- **The first pattern with a match counts.** -/
theorem reports_cons_iff : (⟨(first, r) :: rest⟩ : Prompts τ).Reports haystack tag stop ↔
    (first = tag ∧ r.stop? haystack = some stop) ∨
      (r.stop? haystack = none ∧ (⟨rest⟩ : Prompts τ).Reports haystack tag stop) := by
  simp only [Reports, find_eq, List.findSome?_cons, Regex.stop?]
  cases r.search haystack with
  | none => simp
  | some f =>
    simp only [Option.map_some, Option.some.injEq, Prod.mk.injEq, reduceCtorEq, false_and, or_false]
    constructor
    · rintro ⟨found, ⟨rfl, hstop⟩, rfl⟩
      exact ⟨rfl, hstop⟩
    · rintro ⟨rfl, hstop⟩
      exact ⟨_, ⟨rfl, hstop⟩, rfl⟩

theorem not_reports_nil : ¬ (⟨[]⟩ : Prompts τ).Reports haystack tag stop := by
  rintro ⟨found, h, -⟩
  cases h

end Prompts

end MudDialogue.Pattern

/-! ### The prompts of the clients -/

namespace MudDialogue

open Pattern

/-- A text that turns a login down occurs. -/
def Login.Refused (haystack : List UInt8) : Prop :=
  Holds "already online" haystack ∨ Holds "User not found" haystack

/-- What is to be recognised as a prompt of a login, with how much goes up to the end of it. -/
def Login.Prompt.Due (haystack : List UInt8) (stop : Nat) : Login.Prompt → Prop
  | inUse => FirstEnds "already online" haystack stop
  | unknown => ¬ Holds "already online" haystack ∧ FirstEnds "User not found" haystack stop
  | name => ¬ Refused haystack ∧ EndsWith "Username: " haystack ∧ stop = haystack.length
  | password => ¬ Refused haystack ∧ EndsWith "Password: " haystack ∧ stop = haystack.length
  | menu => ¬ Refused haystack ∧ EndsWith "> " haystack ∧ stop = haystack.length

/-- One of the texts of the dialogue for an account occurs. -/
def Signup.Addressed (haystack : List UInt8) : Prop :=
  Holds "unavailable" haystack ∨ Holds "Desired username" haystack ∨
    Holds "Desired password" haystack ∨ Holds "Confirm password" haystack

/-- What is to be recognised as a prompt of the dialogue for an account. -/
def Signup.AccountPrompt.Due (haystack : List UInt8) (stop : Nat) : Signup.AccountPrompt → Prop
  | taken => FirstEnds "unavailable" haystack stop
  | name => ¬ Holds "unavailable" haystack ∧ FirstEnds "Desired username" haystack stop
  | password => ¬ Holds "unavailable" haystack ∧ ¬ Holds "Desired username" haystack ∧
      FirstEnds "Desired password" haystack stop
  | confirmation => ¬ Holds "unavailable" haystack ∧ ¬ Holds "Desired username" haystack ∧
      ¬ Holds "Desired password" haystack ∧ FirstEnds "Confirm password" haystack stop
  | menu => ¬ Addressed haystack ∧ EndsWith "> " haystack ∧ stop = haystack.length

/-- What is to be recognised as a prompt of the dialogue for a character. -/
def Signup.CharacterPrompt.Due (haystack : List UInt8) (stop : Nat) :
    Signup.CharacterPrompt → Prop
  | name => FirstEnds "Desired character name" haystack stop
  | menu => ¬ Holds "Desired character name" haystack ∧ EndsWith "> " haystack ∧
      stop = haystack.length

variable {haystack : List UInt8} {stop : Nat}

theorem Login.reports_iff {tag : Login.Prompt} :
    Login.prompts.Reports haystack tag stop ↔ tag.Due haystack stop := by
  -- no two questions stand at the end together
  have hpassword (h : EndsWith "Password: " haystack) : ¬ EndsWith "Username: " haystack :=
    h.not_endsWith (by decide) (by decide)
  have hmenu (h : EndsWith "> " haystack) :
      ¬ EndsWith "Username: " haystack ∧ ¬ EndsWith "Password: " haystack :=
    ⟨h.not_endsWith (by decide) (by decide), h.not_endsWith (by decide) (by decide)⟩
  simp only [prompts, MudDialogue.menu, Prompts.reports_cons_iff, Prompts.not_reports_nil,
    Regex.stop_literal_iff, Regex.stop_literal_eq_none_iff, Regex.stop_question_iff,
    Regex.stop_question_eq_none_iff, and_false, or_false]
  cases tag with
  | inUse | unknown => simp [Prompt.Due]
  | name => simp [Prompt.Due, Refused, and_assoc]
  | password =>
    simp only [Prompt.Due, Refused, reduceCtorEq, false_and, false_or, true_and, and_false,
      or_false, not_or, and_assoc]
    exact and_congr_right fun _ => and_congr_right fun _ =>
      ⟨And.right, fun h => ⟨hpassword h.1, h⟩⟩
  | menu =>
    simp only [Prompt.Due, Refused, reduceCtorEq, false_and, false_or, true_and, not_or, and_assoc]
    exact and_congr_right fun _ => and_congr_right fun _ =>
      ⟨fun h => h.2.2, fun h => ⟨(hmenu h.1).1, (hmenu h.1).2, h⟩⟩

theorem Signup.reports_account_iff {tag : Signup.AccountPrompt} :
    Signup.accountPrompts.Reports haystack tag stop ↔ tag.Due haystack stop := by
  simp only [accountPrompts, MudDialogue.menu, Prompts.reports_cons_iff, Prompts.not_reports_nil,
    Regex.stop_literal_iff, Regex.stop_literal_eq_none_iff, Regex.stop_question_iff, and_false,
    or_false]
  cases tag <;> simp [AccountPrompt.Due, Addressed, and_assoc]

theorem Signup.reports_character_iff {tag : Signup.CharacterPrompt} :
    Signup.characterPrompts.Reports haystack tag stop ↔ tag.Due haystack stop := by
  simp only [characterPrompts, MudDialogue.menu, Prompts.reports_cons_iff, Prompts.not_reports_nil,
    Regex.stop_literal_iff, Regex.stop_literal_eq_none_iff, Regex.stop_question_iff, and_false,
    or_false]
  cases tag <;> simp [CharacterPrompt.Due]

/-- **What is recognised during a login and a signup.** A login is turned down if one of the two
texts for it occurs, the account in use before the account unknown; otherwise the question that
stands at the very end is recognised, if there is one. A signup likewise goes by the first of its
texts that occurs, and by the menu at the end if none does. Everything through the first occurrence
of a text is given up for it, and everything at all for a question. -/
theorem reports_prompts_iff (haystack : List UInt8) :
    (∀ tag stop, Login.prompts.Reports haystack tag stop ↔ tag.Due haystack stop) ∧
    (∀ tag stop, Signup.accountPrompts.Reports haystack tag stop ↔ tag.Due haystack stop) ∧
    (∀ tag stop, Signup.characterPrompts.Reports haystack tag stop ↔ tag.Due haystack stop) ∧
    (Login.prompts.find haystack = none ↔ ¬ Login.Refused haystack ∧
      ¬ EndsWith "Username: " haystack ∧ ¬ EndsWith "Password: " haystack ∧
      ¬ EndsWith "> " haystack) ∧
    (Signup.accountPrompts.find haystack = none ↔
      ¬ Signup.Addressed haystack ∧ ¬ EndsWith "> " haystack) ∧
    (Signup.characterPrompts.find haystack = none ↔
      ¬ Holds "Desired character name" haystack ∧ ¬ EndsWith "> " haystack) ∧
    (∀ text, Holds text haystack ↔ ∃ stop, FirstEnds text haystack stop) ∧
    ∀ (b : Backlog) {τ : Type} (set : Prompts τ) (tag : τ) (stop : Nat), b.content = haystack →
      set.Reports haystack tag stop → ∃ found left, b.search set = some (found, left) ∧
        found.tag = tag ∧ left.content = haystack.drop stop ∧
        (stop = haystack.length → left.content = []) := by
  refine ⟨fun _ _ => Login.reports_iff, fun _ _ => Signup.reports_account_iff,
    fun _ _ => Signup.reports_character_iff, ?_, ?_, ?_, fun _ => holds_iff, ?_⟩
  · simp [Prompts.find_eq_none_iff, Login.prompts, menu, Regex.stop_literal_eq_none_iff,
      Regex.stop_question_eq_none_iff, Login.Refused, and_assoc]
  · simp [Prompts.find_eq_none_iff, Signup.accountPrompts, menu, Regex.stop_literal_eq_none_iff,
      Regex.stop_question_eq_none_iff, Signup.Addressed, and_assoc]
  · simp [Prompts.find_eq_none_iff, Signup.characterPrompts, menu, Regex.stop_literal_eq_none_iff,
      Regex.stop_question_eq_none_iff]
  · rintro b τ set tag stop rfl ⟨found, hfind, htag⟩
    refine ⟨found, b.consume stop, ?_, htag, rfl, ?_⟩
    · rw [Backlog.search, hfind, Option.map_some]
    · rintro rfl
      exact List.drop_length

/-- A text that turns the login down wins over the question behind it. -/
example : (Login.prompts.find (Text.Utf8.bytes "User not found\r\nUsername: ")).map
    (fun p => (p.1.tag, p.2)) = some (.unknown, 14) := by decide +kernel

end MudDialogue
