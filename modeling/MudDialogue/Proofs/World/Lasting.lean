import MudDialogue.Client.Rounds
import MudDialogue.Proofs.Pattern.WholeLines
import MudDialogue.Proofs.World.ExitLines

/-!
# Lists of exits last

The pattern for a list of exits is one for a whole line, so a list that is found stays found: text
that comes later changes neither which exits are read off it nor how much is given up for it. So a
list is found from its LF on, as soon as that is there, and not before. A prompt that counts at the
very end of the text has nothing of this.

## Main definitions

* `ExitLine.body` — a list of exits without the end of its line.
* `Found.range` — where a match lies in a text.

## Main results

* `ExitLine.find_take` — from where on a list of exits is found in a text that grows.
* `ExitLine.find_lasts` — a list of exits that is found stays found.
-/

namespace MudDialogue

open Pattern Text

/-- Where a match begins and ends: how many bytes of the text stand before it, and how many go up to
the end of it. -/
def Pattern.Found.range (f : Found) (text : List UInt8) : Nat × Nat :=
  (text.length - f.start.length, text.length - f.outcome.rest.length)

/-- More text behind does not move a match. -/
theorem Pattern.Found.range_more (f : Found) (text later : List UInt8) :
    (f.more later).range (text ++ later) = f.range text := by
  simp only [range, more, Outcome.more, List.length_append, Nat.add_sub_add_right]

namespace ExitLine

/-- A list of exits without the end of its line. -/
def body : Regex :=
  .concat ([.literal "Exits:", blanks] ++ Direction.all.map exit ++
    [ladders, .optional true (.literal "None"), blanks, .optional true (.char '\r')])

theorem pattern_eq : pattern = body.line := rfl

theorem staysInLine_body : body.staysInLine := by decide

variable {τ : Type} {tag : τ} {text : List UInt8} {found : Match τ} {stop : Nat}

theorem isPlain_prompts (tag : τ) : Prompts.IsPlain (⟨[(tag, pattern)]⟩ : Prompts τ) :=
  List.forall_mem_singleton.mpr isPlain_pattern

theorem stop_le_length (h : (⟨[(tag, pattern)]⟩ : Prompts τ).find text = some (found, stop)) :
    stop ≤ text.length := by
  obtain ⟨word, rest, -, -, rfl⟩ := Prompts.exists_word_of_find (isPlain_prompts tag) h
  exact Nat.sub_le _ _

/-- A list of exits that is found stays found. -/
theorem find_append (h : (⟨[(tag, pattern)]⟩ : Prompts τ).find text = some (found, stop))
    (later : List UInt8) :
    (⟨[(tag, pattern)]⟩ : Prompts τ).find (text ++ later) = some (found, stop) := by
  rw [pattern_eq] at h ⊢
  exact Prompts.find_append_of_line staysInLine_body h later

/-- **From where on a list of exits is found in a text that grows**: from the end of the list on,
and then it is always the same. -/
theorem find_take (h : (⟨[(tag, pattern)]⟩ : Prompts τ).find text = some (found, stop)) (n : Nat) :
    (⟨[(tag, pattern)]⟩ : Prompts τ).find (text.take n) =
      if stop ≤ n then some (found, stop) else none := by
  -- what is found of the first bytes is found of the whole text
  have hsame {first : Match τ × Nat}
      (hfirst : (⟨[(tag, pattern)]⟩ : Prompts τ).find (text.take n) = some first) :
      first = (found, stop) := by
    have hwhole := find_append hfirst (text.drop n)
    rw [List.take_append_drop, h] at hwhole
    exact (Option.some.inj hwhole).symm
  split_ifs with hn
  · obtain ⟨word, rest, ⟨p, hp, hplain, hword⟩, ⟨before, rfl⟩, rfl⟩ :=
      Prompts.exists_word_of_find (isPlain_prompts tag) h
    have hstop : (before ++ (word ++ rest)).length - rest.length = (before ++ word).length := by
      rw [← List.append_assoc, List.length_append, Nat.add_sub_cancel]
    rw [hstop] at hn
    obtain ⟨k, rfl⟩ := Nat.exists_eq_add_of_le hn
    have htake : (before ++ (word ++ rest)).take ((before ++ word).length + k) =
        before ++ (word ++ rest.take k) := by
      rw [← List.append_assoc, List.take_length_add_append, List.append_assoc]
    have hword : p.2.Accepts word (rest.take k) :=
      Regex.Accepts.of_append ((List.take_append_drop k rest).symm ▸ hword)
    have hsome := Prompts.isSome_find_of_accepts ⟨p, hp, hplain, hword⟩ ⟨before, htake.symm⟩
    obtain ⟨first, hfirst⟩ := Option.isSome_iff_exists.mp hsome
    rw [hfirst, hsame hfirst]
  · cases hfirst : (⟨[(tag, pattern)]⟩ : Prompts τ).find (text.take n) with
    | none => rfl
    | some first =>
      obtain rfl := hsame hfirst
      exact absurd (Nat.le_trans (stop_le_length hfirst) (List.length_take_le n text)) hn

/-- **A list of exits that is found stays found**, whatever text comes later: it is the same match
of the same bytes at the same place and with the same groups, so the same exits are read off it. In
the text as it grows it is found from its last byte on, and not while a part of it is missing. And
what is left when it is given up is the same but for the text that came later. -/
theorem find_lasts (tag : τ) {text : List UInt8} {found : Match τ} {stop : Nat}
    (h : (⟨[(tag, pattern)]⟩ : Prompts τ).find text = some (found, stop)) (later : List UInt8) :
    let set : Prompts τ := ⟨[(tag, pattern)]⟩
    set.find (text ++ later) = some (found, stop) ∧
    (∃ f g, pattern.search text = some f ∧ pattern.search (text ++ later) = some g ∧
      g.range (text ++ later) = f.range text ∧ (f.range text).2 = stop ∧ g.bytes = f.bytes ∧
      ∀ name, g.outcome.capture? name = f.outcome.capture? name) ∧
    (∀ n, set.find ((text ++ later).take n) = if stop ≤ n then some (found, stop) else none) ∧
    ∀ b b' : Backlog, b.content = text → b'.content = text ++ later →
      ∃ rest rest', b.search set = some (found, rest) ∧ b'.search set = some (found, rest') ∧
        rest'.content = rest.content ++ later := by
  intro set
  have hlater : set.find (text ++ later) = some (found, stop) := find_append h later
  refine ⟨hlater, ?_, find_take hlater, ?_⟩
  · have hfind := h
    rw [Prompts.find_eq, List.findSome?_singleton, Option.map_eq_some_iff] at hfind
    obtain ⟨f, hf, hmatch⟩ := hfind
    exact ⟨f, f.more later, hf, Regex.search_more staysInLine_body hf later,
      f.range_more text later, congrArg Prod.snd hmatch, stretch_more later f.start f.outcome.rest,
      f.outcome.capture_more later⟩
  · rintro b b' rfl hb'
    refine ⟨b.consume stop, b'.consume stop, ?_, ?_, ?_⟩
    · rw [Backlog.search, h, Option.map_some]
    · rw [Backlog.search, hb', hlater, Option.map_some]
    · rw [Backlog.consume, Backlog.consume, hb', List.drop_append_of_le_length (stop_le_length h)]

/-- The exits of the first room are found, whether those of the next one are there or not. -/
theorem find_lasts_of_two_rooms :
    let set : Prompts Unit := ⟨[((), pattern)]⟩
    let text := Utf8.bytes "A cave.\nExits: [N]orth [U]p\r\n> "
    let later := Utf8.bytes "A hut.\nExits: [S]outh\r\n> "
    let found : Match Unit := ⟨(), "Exits: [N]orth [U]p\r\n", [("n", "N")]⟩
    set.find text = some (found, 29) ∧ set.find (text ++ later) = some (found, 29) ∧
      ∀ n, set.find ((text ++ later).take n) = if 29 ≤ n then some (found, 29) else none := by
  intro set text later found
  have h : set.find text = some (found, 29) := by decide +kernel
  obtain ⟨hlater, -, htake, -⟩ := find_lasts () h later
  exact ⟨h, hlater, htake⟩

/-- A menu does not last: it counts only as long as nothing stands behind it. -/
example : ((⟨[((), menu)]⟩ : Prompts Unit).find (Utf8.bytes "> ")).isSome ∧
    (⟨[((), menu)]⟩ : Prompts Unit).find (Utf8.bytes "> " ++ Utf8.bytes "A") = none := by
  decide +kernel

end ExitLine

end MudDialogue
