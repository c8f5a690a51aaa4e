import MudDialogue.Proofs.Pattern.Groups

/-!
# The words that are found

That a plain pattern matches somewhere is told by its words (`Regex.isSome_search_iff`), and so is
how far its match goes: whichever of several ways to match counts, it takes up a word and ends right
behind it. A prompt whose words are not empty can therefore only be recognised in something, and
something is given up when it is.

## Main definitions

* `Prompts.TakesUp` — none of the words of a set is empty.
* `Prompts.OpensWith` — each of them begins with a text of some length.

## Main results

* `Regex.exists_word_of_matchAt` — a match ends behind a word.
* `Prompts.exists_word_of_find` — what is given up for a prompt ends with a word.
* `Prompts.OpensWith.le_stop` — how much is given up for a prompt.
-/

namespace MudDialogue.Pattern

open Text

namespace Regex

variable {r : Regex}

/-- What a sequence of parts takes up begins with what its first part takes up. -/
theorem exists_prefix_of_foldl {rs : List Regex} {word rest : List UInt8}
    (h : (rs.foldl cat r).Accepts word rest) : ∃ first behind, first <+: word ∧
      r.Accepts first behind := by
  induction rs generalizing r with
  | nil => exact ⟨word, rest, List.prefix_refl word, h⟩
  | cons s rs ih =>
    obtain ⟨both, _, hboth, hcat⟩ := ih h
    obtain ⟨first, second, rfl, hfirst, -⟩ := accepts_cat_iff.mp hcat
    exact ⟨first, _, (List.prefix_append first second).trans hboth, hfirst⟩

/-- The match at a place takes up a word. -/
theorem exists_word_of_matchAt (hr : r.isPlain) {c : Cursor} {o : Outcome}
    (h : r.matchAt c = some o) : ∃ word, r.Accepts word o.rest ∧ word ++ o.rest = c.after := by
  obtain ⟨names, word, htakes, hafter, -⟩ := exists_takes_of_matchAt hr h
  exact ⟨word, htakes.accepts, hafter⟩

theorem exists_word_of_searchFrom (hr : r.isPlain) {before after : List UInt8} {f : Found}
    (h : r.searchFrom before after = some f) :
    ∃ word, r.Accepts word f.outcome.rest ∧ word ++ f.outcome.rest <:+ after := by
  have hhere {after : List UInt8} {before : List UInt8}
      (h : (r.matchAt ⟨before, after⟩).map (Found.mk after) = some f) :
      ∃ word, r.Accepts word f.outcome.rest ∧ word ++ f.outcome.rest <:+ after := by
    obtain ⟨o, hmatch, rfl⟩ := Option.map_eq_some_iff.mp h
    obtain ⟨word, hword, hafter⟩ := exists_word_of_matchAt hr hmatch
    exact ⟨word, hword, hafter ▸ List.suffix_refl _⟩
  induction after generalizing before with
  | nil => exact hhere h
  | cons b after ih =>
    rw [searchFrom, Option.or_eq_some_iff] at h
    rcases h with h | ⟨-, h⟩
    · exact hhere h
    · obtain ⟨word, hword, hsuffix⟩ := ih h
      exact ⟨word, hword, hsuffix.trans (List.suffix_cons b after)⟩

theorem searchFrom_of_matchAt {before after : List UInt8} {o : Outcome}
    (h : r.matchAt ⟨before, after⟩ = some o) : r.searchFrom before after = some ⟨after, o⟩ := by
  cases after with
  | nil => rw [searchFrom, h]; rfl
  | cons b after => rw [searchFrom, h]; rfl

/-- A word at the first place where there is one is found, on one of its ways. -/
theorem exists_searchFrom_of_first (hr : r.isPlain) {u after : List UInt8}
    (hfirst : ∀ z, z <:+ u → z ≠ [] → ∀ word rest, r.Accepts word rest → word ++ rest ≠ z ++ after)
    {word rest : List UInt8} (hword : r.Accepts word rest) (hafter : word ++ rest = after)
    (before : List UInt8) : ∃ o names taken, r.searchFrom before (u ++ after) = some ⟨after, o⟩ ∧
      r.Takes names taken o.rest ∧ taken ++ o.rest = after ∧ Through o.marks names := by
  induction u generalizing before with
  | nil =>
    have hsome : (r.matchAt ⟨before, after⟩).isSome :=
      (isSome_matchAt_iff hr _).mpr ⟨word, rest, hword, hafter⟩
    obtain ⟨o, ho⟩ := Option.isSome_iff_exists.mp hsome
    obtain ⟨names, taken, htakes, htaken, hmarks⟩ := exists_takes_of_matchAt hr ho
    exact ⟨o, names, taken, searchFrom_of_matchAt ho, htakes, htaken, hmarks⟩
  | cons b u ih =>
    have hhere : r.matchAt ⟨before, b :: (u ++ after)⟩ = none := by
      rw [← Option.not_isSome_iff_eq_none, isSome_matchAt_iff hr]
      rintro ⟨word, rest, hword, hrest⟩
      exact hfirst (b :: u) (List.suffix_refl _) (List.cons_ne_nil b u) word rest hword hrest
    obtain ⟨o, names, taken, hsearch, h⟩ :=
      ih (fun z hz => hfirst z (hz.trans (List.suffix_cons b u))) (b :: before)
    refine ⟨o, names, taken, ?_, h⟩
    rw [List.cons_append, searchFrom, hhere]
    exact hsearch

end Regex

namespace Prompts

variable {τ : Type} {set : Prompts τ}

/-- **What is given up for a prompt ends with a word.** -/
theorem exists_word_of_find (hset : set.IsPlain) {text : List UInt8} {found : Match τ} {stop : Nat}
    (h : set.find text = some (found, stop)) :
    ∃ word rest, set.Accepts word rest ∧ word ++ rest <:+ text ∧
      stop = text.length - rest.length := by
  rw [find_eq] at h
  obtain ⟨p, hp, h⟩ := List.exists_of_findSome?_eq_some h
  obtain ⟨f, hsearch, hf⟩ := Option.map_eq_some_iff.mp h
  obtain ⟨word, hword, hsuffix⟩ := Regex.exists_word_of_searchFrom (hset p hp) hsearch
  exact ⟨word, f.outcome.rest, ⟨p, hp, hset p hp, hword⟩, hsuffix, (congrArg Prod.snd hf).symm⟩

/-- No prompt of the set is recognised in nothing: none of its words is empty. -/
def TakesUp (set : Prompts τ) : Prop := set.IsPlain ∧ ∀ rest, ¬ set.Accepts [] rest

/-- Each pattern of a plain set begins with a text of so many bytes. -/
def OpensWith (set : Prompts τ) (n : Nat) : Prop :=
  set.IsPlain ∧ ∀ p ∈ set.patterns, ∃ (text : String) (rs : List Regex),
    n ≤ (Utf8.bytes text).length ∧ p.2 = .concat (.literal text :: rs)

theorem OpensWith.length_le {n : Nat} (hset : set.OpensWith n) {word rest : List UInt8}
    (hword : set.Accepts word rest) : n ≤ word.length := by
  obtain ⟨p, hp, -, hword⟩ := hword
  obtain ⟨text, rs, hle, hpattern⟩ := hset.2 p hp
  rw [hpattern] at hword
  obtain ⟨first, _, hprefix, hfirst⟩ := Regex.exists_prefix_of_foldl hword
  rw [Regex.accepts_literal_iff.mp hfirst] at hprefix
  exact Nat.le_trans hle hprefix.length_le

theorem OpensWith.takesUp {n : Nat} (hset : set.OpensWith n) (hn : 0 < n) : set.TakesUp :=
  ⟨hset.1, fun _ hword => Nat.not_lt_zero 0 (Nat.lt_of_lt_of_le hn (hset.length_le hword))⟩

/-- So many bytes are given up for a prompt, at least. -/
theorem OpensWith.le_stop {n : Nat} (hset : set.OpensWith n) {text : List UInt8} {found : Match τ}
    {stop : Nat} (h : set.find text = some (found, stop)) : n ≤ stop ∧ stop ≤ text.length := by
  obtain ⟨word, rest, hword, hsuffix, rfl⟩ := exists_word_of_find hset.1 h
  have hle : n ≤ word.length := hset.length_le hword
  have hlength : (word ++ rest).length ≤ text.length := hsuffix.length_le
  rw [List.length_append] at hlength
  omega

/-- Something is given up for a prompt. -/
theorem TakesUp.stop_pos (hset : set.TakesUp) {text : List UInt8} {found : Match τ} {stop : Nat}
    (h : set.find text = some (found, stop)) : 0 < stop ∧ stop ≤ text.length := by
  obtain ⟨word, rest, hword, hsuffix, rfl⟩ := exists_word_of_find hset.1 h
  have hne : word ≠ [] := fun hnil => hset.2 rest (hnil ▸ hword)
  have hpos : 0 < word.length := List.length_pos_iff.mpr hne
  have hlength : (word ++ rest).length ≤ text.length := hsuffix.length_le
  rw [List.length_append] at hlength
  omega

end Prompts

end MudDialogue.Pattern
