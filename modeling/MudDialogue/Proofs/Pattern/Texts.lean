import Mathlib.Data.List.Induction
import MudDialogue.Client.Login
import MudDialogue.Client.Signup
import MudDialogue.Proofs.Pattern.FoundWords

/-!
# Sets of texts and questions

The prompts of a login and of a signup are texts. Some of them are recognised wherever they stand,
and then everything through the end of their first occurrence is given up; the others are questions,
which are recognised at the very end only, and then everything is given up. Which of several texts
is recognised is told by their order in the set alone, and a text anywhere goes before each
question.

## Main definitions

* `Prompts.ofTexts` — texts that count anywhere, and then questions.
* `Inert` — no text occurs in what is there, or begins at the end of it.

## Main results

* `Prompts.find_ofTexts_eq_none` — when nothing is recognised.
* `Prompts.exists_find_literal` — what is recognised of a text, and how much is given up for it.
* `Prompts.exists_find_question` — what is recognised of a question.
-/

namespace MudDialogue.Pattern

open Text

/-! ### Occurrences -/

/-- A list in which another one occurs has a first place at which it is complete. -/
theorem exists_first_occurrence {α : Type} {l text : List α} (hl : l ≠ []) (h : l <:+: text) :
    ∃ u v, text = u ++ l ++ v ∧ ¬ l <:+: (u ++ l).dropLast := by
  induction text using List.reverseRecOn with
  | nil => exact absurd (List.infix_nil.mp h) hl
  | append_singleton text b ih =>
    by_cases hbefore : l <:+: text
    · obtain ⟨u, v, rfl, hfirst⟩ := ih hbefore
      exact ⟨u, v ++ [b], List.append_assoc (u ++ l) v [b], hfirst⟩
    · rcases List.infix_concat_iff.mp h with ⟨u, hu⟩ | hoccurs
      · refine ⟨u, [], by rw [List.append_nil, hu], ?_⟩
        rw [hu, List.dropLast_concat]
        exact hbefore
      · exact absurd hoccurs hbefore

/-- None of the texts occurs in what is there, or has its beginning at the end of it. -/
def Inert (texts : List String) (left : List UInt8) : Prop :=
  ∀ text ∈ texts, ¬ Utf8.bytes text <:+: left ∧
    ∀ n < (Utf8.bytes text).length, ¬ (Utf8.bytes text).take (n + 1) <:+ left

instance (texts : List String) (left : List UInt8) : Decidable (Inert texts left) :=
  inferInstanceAs (Decidable (∀ text ∈ texts, _ ∧ ∀ n < (Utf8.bytes text).length, _))

/-- **What is inert does not make a text of what comes behind it.** -/
theorem Inert.infix_of_append {texts : List String} {left more : List UInt8} {text : String}
    (h : Inert texts left) (htext : text ∈ texts) (hoccurs : Utf8.bytes text <:+: left ++ more) :
    Utf8.bytes text <:+: more := by
  obtain ⟨hleft, hparts⟩ := h text htext
  rcases List.infix_append_iff_ne_nil.mp hoccurs with h | h | ⟨start, rest, hne, -, htext, h, -⟩
  · exact absurd h hleft
  · exact h
  · -- a text in both parts has its beginning at the end of the first one
    have hpos : 0 < start.length := List.length_pos_iff.mpr hne
    have htake : (Utf8.bytes text).take (start.length - 1 + 1) = start := by
      rw [Nat.sub_add_cancel hpos, htext, List.take_left]
    have hless : start.length - 1 < (Utf8.bytes text).length := by
      rw [htext, List.length_append]
      omega
    have hparted := hparts (start.length - 1) hless
    rw [htake] at hparted
    exact absurd h hparted

/-- Behind a byte that is in none of the texts, none of them can have its beginning. -/
theorem inert_concat {texts : List String} {left : List UInt8} {b : UInt8}
    (hb : ∀ text ∈ texts, b ∉ Utf8.bytes text)
    (hleft : ∀ text ∈ texts, ¬ Utf8.bytes text <:+: left ++ [b]) : Inert texts (left ++ [b]) := by
  refine fun text htext => ⟨hleft text htext, fun n hn hsuffix => hb text htext ?_⟩
  have hne : (Utf8.bytes text).take (n + 1) ≠ [] := by
    rw [Ne, List.take_eq_nil_iff]
    rintro (h | h)
    · exact Nat.succ_ne_zero n h
    · rw [h] at hn
      exact Nat.not_lt_zero n hn
  rcases List.suffix_concat_iff.mp hsuffix with h | ⟨start, h, -⟩
  · exact absurd h hne
  · exact List.mem_of_mem_take (h ▸ List.mem_concat_self)

/-! ### Searching for texts -/

namespace Regex

variable {r : Regex} {text : String} {haystack : List UInt8}

theorem search_literal_eq_none (h : ¬ Utf8.bytes text <:+: haystack) :
    (literal text).search haystack = none := by
  rw [← Option.not_isSome_iff_eq_none, isSome_search_iff (isPlain_literal text)]
  rintro ⟨word, rest, hword, hsuffix⟩
  rw [accepts_literal_iff.mp hword] at hsuffix
  exact h ((List.prefix_append (Utf8.bytes text) rest).isInfix.trans hsuffix.isInfix)

/-- **The first occurrence of a text is the one that is found.** -/
theorem exists_searchFrom_literal {u : List UInt8} (before v : List UInt8)
    (hfirst : ¬ Utf8.bytes text <:+: (u ++ Utf8.bytes text).dropLast) :
    ∃ f, (literal text).searchFrom before (u ++ Utf8.bytes text ++ v) = some f ∧
      f.outcome.rest = v := by
  have hearlier : ∀ z, z <:+ u → z ≠ [] → ∀ word rest, (literal text).Accepts word rest →
      word ++ rest ≠ z ++ (Utf8.bytes text ++ v) := by
    rintro z ⟨w, rfl⟩ hne word rest hword hrest
    rw [accepts_literal_iff.mp hword] at hrest
    have hpos : 0 < z.length := List.length_pos_iff.mpr hne
    have hparts : z ++ Utf8.bytes text ≠ [] := List.append_ne_nil_of_left_ne_nil hne _
    -- an occurrence that starts here would be complete too early
    have hstart : Utf8.bytes text <+: (z ++ Utf8.bytes text).dropLast := by
      refine List.prefix_of_prefix_length_le ⟨rest, hrest⟩ ?_ ?_
      · exact (List.dropLast_prefix _).trans ⟨v, List.append_assoc _ _ _⟩
      · rw [List.length_dropLast, List.length_append]
        omega
    rw [List.append_assoc, List.dropLast_append_of_ne_nil hparts] at hfirst
    exact hfirst (hstart.isInfix.trans (List.suffix_append w _).isInfix)
  obtain ⟨o, names, taken, hsearch, htakes, htaken, -⟩ := exists_searchFrom_of_first
    (isPlain_literal text) hearlier (accepts_literal_iff.mpr rfl) rfl before
  rw [accepts_literal_iff.mp htakes.accepts] at htaken
  have hrest : o.rest = v := List.append_cancel_left htaken
  rw [List.append_assoc]
  exact ⟨_, hsearch, hrest⟩

/-- A question takes up its text, and nothing may stand behind it. -/
theorem accepts_question_iff {word rest : List UInt8} :
    (question text).Accepts word rest ↔ word = Utf8.bytes text ∧ rest = [] := by
  rw [question, accepts_cat_iff]
  constructor
  · rintro ⟨u, v, rfl, hu, hv⟩
    cases hv
    exact ⟨(List.append_nil u).trans (accepts_literal_iff.mp hu), rfl⟩
  · rintro ⟨rfl, rfl⟩
    exact ⟨_, [], (List.append_nil _).symm, accepts_literal_iff.mpr rfl, .textEnd⟩

theorem isPlain_question : (question text).isPlain :=
  Bool.and_eq_true_iff.mpr ⟨isPlain_literal text, rfl⟩

theorem isSome_search_question_iff :
    ((question text).search haystack).isSome ↔ Utf8.bytes text <:+ haystack := by
  rw [isSome_search_iff isPlain_question]
  constructor
  · rintro ⟨word, rest, hword, hsuffix⟩
    obtain ⟨rfl, rfl⟩ := accepts_question_iff.mp hword
    exact List.append_nil (Utf8.bytes text) ▸ hsuffix
  · intro hsuffix
    exact ⟨_, [], accepts_question_iff.mpr ⟨rfl, rfl⟩, (List.append_nil _).symm ▸ hsuffix⟩

theorem search_question_eq_none (h : ¬ Utf8.bytes text <:+ haystack) :
    (question text).search haystack = none := by
  rw [← Option.not_isSome_iff_eq_none, isSome_search_question_iff]
  exact h

end Regex

/-! ### Sets of texts -/

namespace Prompts

variable {τ : Type} {anywhere atEnd earlier : List (τ × String)} {tag : τ} {text : String}
  {haystack : List UInt8}

/-- Texts that are recognised wherever they stand, and questions. -/
def ofTexts (anywhere atEnd : List (τ × String)) : Prompts τ :=
  ⟨anywhere.map (fun p => (p.1, .literal p.2)) ++ atEnd.map (fun p => (p.1, question p.2))⟩

/-- The first pattern of a set with a match is the one that is recognised. -/
theorem exists_find_of_search {before after : List (τ × Regex)} {r : Regex} {f : Found}
    (hbefore : ∀ p ∈ before, p.2.search haystack = none) (hf : r.search haystack = some f) :
    ∃ found, find ⟨before ++ (tag, r) :: after⟩ haystack =
      some (found, haystack.length - f.outcome.rest.length) ∧ found.tag = tag := by
  have hnone : (before.findSome? fun p => (p.2.search haystack).map fun f =>
      (f.toMatch p.1 p.2.groupNames.eraseDups, haystack.length - f.outcome.rest.length)) = none :=
    List.findSome?_eq_none_iff.mpr fun p hp => Option.map_eq_none_iff.mpr (hbefore p hp)
  refine ⟨f.toMatch tag r.groupNames.eraseDups, ?_, rfl⟩
  rw [find_eq, List.findSome?_append, hnone, Option.none_or, List.findSome?_cons]
  simp only [hf, Option.map_some]

/-- Nothing is recognised if none of the texts is there and no question stands at the end. -/
theorem find_ofTexts_eq_none (hanywhere : ∀ p ∈ anywhere, ¬ Utf8.bytes p.2 <:+: haystack)
    (hatEnd : ∀ p ∈ atEnd, ¬ Utf8.bytes p.2 <:+ haystack) :
    (ofTexts anywhere atEnd).find haystack = none := by
  rw [find_eq, List.findSome?_eq_none_iff]
  intro p hp
  rw [Option.map_eq_none_iff]
  rcases List.mem_append.mp hp with hp | hp
  · obtain ⟨q, hq, rfl⟩ := List.mem_map.mp hp
    exact Regex.search_literal_eq_none (hanywhere q hq)
  · obtain ⟨q, hq, rfl⟩ := List.mem_map.mp hp
    exact Regex.search_question_eq_none (hatEnd q hq)

/-- **What is recognised of a text.** If none of the earlier texts is there, everything through its
first occurrence is given up for it. -/
theorem exists_find_literal (tag : τ) (more atEnd : List (τ × String)) {u v : List UInt8}
    (hearlier : ∀ p ∈ earlier, ¬ Utf8.bytes p.2 <:+: u ++ Utf8.bytes text ++ v)
    (hfirst : ¬ Utf8.bytes text <:+: (u ++ Utf8.bytes text).dropLast) :
    ∃ found, (ofTexts (earlier ++ (tag, text) :: more) atEnd).find (u ++ Utf8.bytes text ++ v) =
      some (found, (u ++ Utf8.bytes text).length) ∧ found.tag = tag := by
  obtain ⟨f, hf, hrest⟩ := Regex.exists_searchFrom_literal [] v hfirst
  have hbefore : ∀ p ∈ earlier.map fun p => (p.1, Regex.literal p.2),
      p.2.search (u ++ Utf8.bytes text ++ v) = none := by
    intro p hp
    obtain ⟨q, hq, rfl⟩ := List.mem_map.mp hp
    exact Regex.search_literal_eq_none (hearlier q hq)
  obtain ⟨found, hfound, htag⟩ := exists_find_of_search hbefore hf
  refine ⟨found, ?_, htag⟩
  rw [ofTexts, List.map_append, List.map_cons, List.append_assoc, List.cons_append, hfound, hrest,
    List.length_append, Nat.add_sub_cancel]

/-- **What is recognised of a question.** If no text that counts anywhere is there and no earlier
question stands at the end, everything is given up for it. -/
theorem exists_find_question (tag : τ) (more : List (τ × String))
    (hanywhere : ∀ p ∈ anywhere, ¬ Utf8.bytes p.2 <:+: haystack)
    (hearlier : ∀ p ∈ earlier, ¬ Utf8.bytes p.2 <:+ haystack)
    (hend : Utf8.bytes text <:+ haystack) :
    ∃ found, (ofTexts anywhere (earlier ++ (tag, text) :: more)).find haystack =
      some (found, haystack.length) ∧ found.tag = tag := by
  obtain ⟨f, hf⟩ := Option.isSome_iff_exists.mp (Regex.isSome_search_question_iff.mpr hend)
  obtain ⟨word, hword, -⟩ := Regex.exists_word_of_searchFrom Regex.isPlain_question hf
  have hbefore : ∀ p ∈ (anywhere.map fun p => (p.1, Regex.literal p.2)) ++
      earlier.map fun p => (p.1, question p.2), p.2.search haystack = none := by
    intro p hp
    rcases List.mem_append.mp hp with hp | hp
    · obtain ⟨q, hq, rfl⟩ := List.mem_map.mp hp
      exact Regex.search_literal_eq_none (hanywhere q hq)
    · obtain ⟨q, hq, rfl⟩ := List.mem_map.mp hp
      exact Regex.search_question_eq_none (hearlier q hq)
  obtain ⟨found, hfound, htag⟩ := exists_find_of_search hbefore hf
  refine ⟨found, ?_, htag⟩
  rw [ofTexts, List.map_append, List.map_cons, ← List.append_assoc, hfound,
    (Regex.accepts_question_iff.mp hword).2, List.length_nil, Nat.sub_zero]

end Prompts

end MudDialogue.Pattern
