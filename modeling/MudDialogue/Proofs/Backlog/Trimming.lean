import MudDialogue.Backlog
import MudDialogue.Client.Login
import MudDialogue.Client.Signup
import MudDialogue.Client.Wander
import MudDialogue.Proofs.Pattern.Language

/-!
# Prompts in a backlog that is trimmed

A backlog is trimmed to its depth as soon as a read has been added, before anything is looked for in
it. What is found after the read is what lies within the newest bytes. A prompt that begins in the
backlog and ends in the read can lose its first bytes, although neither the prompt nor the read is
longer than the depth. As long as the two together exceed the depth by no more than one byte, this
does not happen to a prompt that has not been found before.

## Main results

* `Backlog.suffix_newest_iff` — the newest bytes.
* `Backlog.search_extend` — which prompts are found after a read, and when none is lost.
-/

namespace MudDialogue.Backlog

open Pattern Text

variable {τ : Type} {set : Prompts τ}

/-- **The newest bytes** end with what the whole ends with, as far as the depth allows. -/
theorem suffix_newest_iff {depth : Nat} {part text : List UInt8} :
    part <:+ newest depth text ↔ part <:+ text ∧ part.length ≤ depth := by
  have hnewest : newest depth text <:+ text := newest_suffix depth text
  constructor
  · intro h
    exact ⟨h.trans hnewest, Nat.le_trans h.length_le (length_newest_le depth text)⟩
  · rintro ⟨hpart, hdepth⟩
    refine List.suffix_of_suffix_length_le hpart hnewest ?_
    have hlength : part.length ≤ text.length := hpart.length_le
    rw [newest, List.length_drop]
    omega

theorem isSome_search (set : Prompts τ) (b : Backlog) :
    (b.search set).isSome = (set.find b.content).isSome :=
  Option.isSome_map

/-- A word that ends where the read begins, or before, was there to be found before the read. -/
theorem isSome_search_of_word {b : Backlog} {word rest cleaned : List UInt8}
    (hword : set.Accepts word rest) (hsuffix : word ++ rest <:+ b.content ++ cleaned)
    (hrest : cleaned.length ≤ rest.length) : (b.search set).isSome := by
  obtain ⟨p, hp, hplain, hword⟩ := hword
  obtain ⟨before, htext⟩ := hsuffix
  obtain ⟨more, rfl⟩ : cleaned <:+ rest :=
    List.suffix_of_suffix_length_le ⟨b.content, rfl⟩ ⟨before ++ word, by simp [← htext]⟩ hrest
  have hcontent : before ++ (word ++ more) = b.content :=
    List.append_cancel_right (by simpa only [List.append_assoc] using htext)
  rw [isSome_search]
  exact Prompts.isSome_find_of_accepts ⟨p, hp, hplain, hword.of_append⟩ ⟨before, hcontent⟩

/-- The prompts that the clients wait for are plain. -/
theorem isPlain_prompts : Login.prompts.IsPlain ∧ Signup.accountPrompts.IsPlain ∧
    Signup.characterPrompts.IsPlain ∧ Wander.prompts.IsPlain := by
  decide

/-- **Which prompts are found after a read.** If all patterns are plain, a text holds a prompt just
if there is a word in it, and after a read the prompt is found just if the depth leaves the word and
everything behind it. Whatever the other patterns are, this is so for every word of a plain one
that, together with what is added, is at most one byte longer than the depth, if nothing was found
before the read. -/
theorem search_extend (set : Prompts τ) (b : Backlog) (read : List UInt8) :
    let cleaned := (Terminal.clean b.mode read).2
    let text := b.content ++ cleaned
    (set.IsPlain →
      ((set.find text).isSome ↔ ∃ word rest, set.Accepts word rest ∧ word ++ rest <:+ text) ∧
      (((b.extend read).search set).isSome ↔
        ∃ word rest, set.Accepts word rest ∧ word ++ rest <:+ text ∧
          (word ++ rest).length ≤ b.depth)) ∧
    (b.search set = none → ∀ word rest, set.Accepts word rest → word ++ rest <:+ text →
      word.length + cleaned.length ≤ b.depth + 1 → ((b.extend read).search set).isSome) := by
  intro cleaned text
  have hcontent : (b.extend read).content = newest b.depth text := rfl
  constructor
  · intro hset
    refine ⟨Prompts.isSome_find_iff hset text, ?_⟩
    rw [isSome_search, hcontent, Prompts.isSome_find_iff hset]
    simp only [suffix_newest_iff]
  · intro hnone word rest hword hsuffix hlength
    by_cases hrest : cleaned.length ≤ rest.length
    · have hbefore : (b.search set).isSome := isSome_search_of_word hword hsuffix hrest
      rw [hnone] at hbefore
      cases hbefore
    · have hdepth : (word ++ rest).length ≤ b.depth := by
        rw [List.length_append]
        omega
      rw [isSome_search, hcontent]
      exact Prompts.isSome_find_of_accepts hword (suffix_newest_iff.mpr ⟨hsuffix, hdepth⟩)

/-- The depth leaves a prompt that comes in two reads. -/
theorem search_extend_of_two_reads :
    let b := (empty 21).extend (Utf8.bytes "unavail")
    let read := Utf8.bytes "able\nTry ag"
    Signup.accountPrompts.IsPlain ∧ b.search Signup.accountPrompts = none ∧
      ((b.extend read).search Signup.accountPrompts).isSome := by
  intro b read
  have hset : Signup.accountPrompts.IsPlain := isPlain_prompts.2.1
  have hnone : b.search Signup.accountPrompts = none := by decide +kernel
  have hword : Signup.accountPrompts.Accepts (Utf8.bytes "unavailable") (Utf8.bytes "\nTry ag") :=
    Prompts.accepts_literal (List.Mem.head _) _
  have hsuffix : Utf8.bytes "unavailable" ++ Utf8.bytes "\nTry ag" <:+
      b.content ++ (Terminal.clean b.mode read).2 := by decide +kernel
  have hlength : (Utf8.bytes "unavailable").length + (Terminal.clean b.mode read).2.length ≤
      b.depth + 1 := by decide +kernel
  exact ⟨hset, hnone, (search_extend _ b read).2 hnone _ _ hword hsuffix hlength⟩

/-- A prompt that comes in two reads is lost, although neither it nor a read exceeds the depth. -/
theorem search_extend_eq_none :
    let set : Prompts Nat := ⟨[(0, .literal "unavailable")]⟩
    let b := (empty 11).extend (Utf8.bytes "unavail")
    let read := Utf8.bytes "able\nTry ag"
    let text := b.content ++ (Terminal.clean b.mode read).2
    b.search set = none ∧ (Terminal.clean b.mode read).2.length ≤ b.depth ∧
      (∃ word rest, set.Accepts word rest ∧ word ++ rest <:+ text ∧ word.length ≤ b.depth) ∧
      (b.extend read).search set = none := by
  intro set b read text
  have hword : set.Accepts (Utf8.bytes "unavailable") (Utf8.bytes "\nTry ag") :=
    Prompts.accepts_literal (List.Mem.head _) _
  have hsuffix : Utf8.bytes "unavailable" ++ Utf8.bytes "\nTry ag" <:+ text := by decide +kernel
  exact ⟨by decide +kernel, by decide +kernel, ⟨_, _, hword, hsuffix, by decide +kernel⟩,
    by decide +kernel⟩

end MudDialogue.Backlog
