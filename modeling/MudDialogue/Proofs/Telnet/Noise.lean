import MudDialogue.Proofs.Telnet.Grammar
import MudDialogue.Proofs.Telnet.Reads

/-!
# Commands that are added to a stream

A server may mix commands into its output wherever it likes, as long as it does not cut another
command in two. They say nothing to the application and leave the stream as it was, between
commands; all that comes of them are their own refusals, at their places among the other ones.

## Main definitions

* `Telnet.Noised` — whole commands are added to bytes, between their own commands.
* `Telnet.Interspersed` — blocks stand among bytes, each of them whole.

## Main results

* `Telnet.part_bytes` — what is made of a single token.
* `Telnet.Noised.part` — what added commands bring.
-/

namespace MudDialogue.Telnet

/-- The bytes of a token between commands bring what the token stands for. -/
theorem part_bytes (t : Token) : part .data t.bytes = (.data, ⟨t.data, t.replies⟩) := by
  obtain ⟨ts, tail, hbytes, hunder, hout⟩ := run_underway .data t.bytes
  have hone : Parses t.bytes [t] [] := ⟨by simp, Underway.data.isIncomplete⟩
  obtain ⟨rfl, rfl⟩ := hone.unique ⟨hbytes, hunder.isIncomplete⟩
  have hmode : (Transducer.run step .data t.bytes).1 = .data := hunder.eq_data_iff.mpr rfl
  change ((Transducer.run step .data t.bytes).1, Parted.ofEmissions _) = _
  rw [hmode, hout, ofEmissions_flatMap, List.flatMap_singleton, List.flatMap_singleton]

/-- A token that is no text: a negotiation, a command of a single byte, or a block. -/
def Token.IsCommand : Token → Prop
  | text _ _ | escape => False
  | negotiation _ _ | command _ _ | block _ => True

theorem Token.IsCommand.data_eq {t : Token} (h : t.IsCommand) : t.data = [] := by
  cases t with
  | text | escape => cases h
  | negotiation | command | block => rfl

/-- Whole commands are added to the bytes of a stream that stands in a mode, wherever the stream is
between commands. -/
inductive Noised : Mode → List UInt8 → List Token → List UInt8 → Prop where
  | nil {mode} : Noised mode [] [] []
  | byte {mode b bytes added noisy} (h : Noised (step mode b).1 bytes added noisy) :
      Noised mode (b :: bytes) added (b :: noisy)
  | command {t bytes added noisy} (ht : t.IsCommand) (h : Noised .data bytes added noisy) :
      Noised .data bytes (t :: added) (t.bytes ++ noisy)

/-- The blocks stand among the bytes, each of them whole, and all in order. -/
inductive Interspersed : List UInt8 → List (List UInt8) → List UInt8 → Prop where
  | nil : Interspersed [] [] []
  | byte {b bytes blocks mixed} (h : Interspersed bytes blocks mixed) :
      Interspersed (b :: bytes) blocks (b :: mixed)
  | block {block bytes blocks mixed} (h : Interspersed bytes blocks mixed) :
      Interspersed bytes (block :: blocks) (block ++ mixed)

theorem Interspersed.append {bytes more mixed after : List UInt8} {blocks later : List (List UInt8)}
    (h : Interspersed bytes blocks mixed) (h' : Interspersed more later after) :
    Interspersed (bytes ++ more) (blocks ++ later) (mixed ++ after) := by
  induction h with
  | nil => exact h'
  | byte h ih => exact .byte ih
  | @block block bytes blocks mixed h ih =>
    rw [List.append_assoc]
    exact .block ih

/-- Nothing is added. -/
theorem Interspersed.refl (bytes : List UInt8) : Interspersed bytes [] bytes := by
  induction bytes with
  | nil => exact .nil
  | cons b bytes ih => exact .byte ih

namespace Noised

variable {mode : Mode} {bytes noisy : List UInt8} {added : List Token}

theorem length_le (h : Noised mode bytes added noisy) : bytes.length ≤ noisy.length := by
  induction h with
  | nil => exact Nat.le_refl 0
  | byte h ih => exact Nat.succ_le_succ ih
  | command ht h ih =>
    rw [List.length_append]
    exact Nat.le_trans ih (Nat.le_add_left _ _)

/-- **What added commands bring.** The stream is left in the mode in which it is left without them,
with the same text, and the refusals of the commands stand among the other ones. -/
theorem part (h : Noised mode bytes added noisy) :
    (part mode noisy).1 = (part mode bytes).1 ∧
      (part mode noisy).2.text = (part mode bytes).2.text ∧
      Interspersed (part mode bytes).2.refusals (added.map Token.replies)
        (part mode noisy).2.refusals := by
  induction h with
  | nil => exact ⟨rfl, rfl, .nil⟩
  | @byte mode b bytes added noisy h ih =>
    obtain ⟨hmode, htext, hrefusals⟩ := ih
    have hone : (Telnet.part mode [b]).1 = (step mode b).1 := by
      simp [Telnet.part]
    rw [← List.singleton_append, part_append, ← List.singleton_append (l := bytes), part_append,
      hone]
    refine ⟨hmode, congrArg ((Telnet.part mode [b]).2.text ++ ·) htext, ?_⟩
    exact (Interspersed.refl (Telnet.part mode [b]).2.refusals).append hrefusals
  | @command t bytes added noisy ht h ih =>
    obtain ⟨hmode, htext, hrefusals⟩ := ih
    rw [part_append, part_bytes, ht.data_eq]
    exact ⟨hmode, htext, .block hrefusals⟩

end Noised

end MudDialogue.Telnet
