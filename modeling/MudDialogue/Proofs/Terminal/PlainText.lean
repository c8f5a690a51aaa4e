import MudDialogue.Telnet
import MudDialogue.Terminal

/-!
# Plain text

Text of printable ASCII characters and line ends comes through as it is: it holds no telnet command,
no control sequence and no character of more than one byte, so it does not matter either where a
read ends in it.

## Main definitions

* `Terminal.IsPlain` — printable ASCII characters, TAB, LF and CR.

## Main results

* `Terminal.clean_of_isPlain` — cleaning leaves plain text as it is.
* `Terminal.part_of_isPlain` — plain text holds no telnet command.
-/

namespace MudDialogue.Terminal

open Transducer

/-- A byte is a printable ASCII character, or it shapes lines. -/
def isPlainByte (b : UInt8) : Bool := (0x20 ≤ b && b ≤ 0x7E) || shapesLines b

/-- Text of printable ASCII characters, TAB, LF and CR. -/
def IsPlain (text : List UInt8) : Prop := ∀ b ∈ text, isPlainByte b

instance (text : List UInt8) : Decidable (IsPlain text) :=
  List.decidableBAll (fun b => isPlainByte b) text

variable {text more : List UInt8} {b : UInt8}

theorem isPlain_append : IsPlain (text ++ more) ↔ IsPlain text ∧ IsPlain more :=
  List.forall_mem_append

theorem step_start (h : isPlainByte b) : step .start b = (.start, [b]) := by
  have hall : ∀ n : Fin 256, isPlainByte (.ofFin n) →
      step .start (.ofFin n) = (.start, [.ofFin n]) := by decide +kernel
  exact hall b.toFin h

/-- **Plain text is left as it is.** -/
theorem clean_of_isPlain (h : IsPlain text) : clean .start text = (.start, text) := by
  have hrun : run step .start text = (.start, text) := by
    induction text with
    | nil => rfl
    | cons b text ih =>
      rw [run_cons, step_start (h b List.mem_cons_self),
        ih fun c hc => h c (List.mem_cons_of_mem b hc)]
      rfl
  simp only [clean, resume, Mode.start] at hrun ⊢
  rw [hrun]
  rfl

/-- Plain text holds no telnet command. -/
theorem part_of_isPlain (h : IsPlain text) :
    Telnet.part .data text = (.data, ⟨text, []⟩) :=
  Telnet.part_of_notMem fun hmem => absurd (h _ hmem) (by decide)

end MudDialogue.Terminal
