import Mathlib.Tactic.SplitIfs
import MudDialogue.Telnet

/-!
# Telnet streams that come in several reads

Where a telnet stream is cut by the reads makes no difference. A cut may fall anywhere inside a
command; the mode in which one read leaves the stream is all that the next one has to know. The same
holds of the reads that are passed on without a look at their bytes.

The refusals that a stream brings are a telnet stream themselves. They are whole commands, and none
of them has to be answered, so the other end is between commands again when it has read them.

## Main definitions

* `Telnet.partReads` — several reads are parted one after the other.
* `Telnet.Says` — bytes that say a text and ask for nothing.

## Main results

* `Telnet.part_append` — a stream may be cut anywhere.
* `Telnet.partReads_flatten` — the reads bring what the whole stream brings.
* `Telnet.says_refusals` — refusals say nothing and ask for nothing.
-/

namespace MudDialogue.Telnet

/-- What was parted first, with what was parted after it behind. -/
instance : Append Parted := ⟨fun p q => ⟨p.text ++ q.text, p.refusals ++ q.refusals⟩⟩

namespace Parted

theorem ofEmissions_append (es fs : List Emission) :
    ofEmissions (es ++ fs) = ofEmissions es ++ ofEmissions fs := by
  change Parted.mk _ _ = Parted.mk _ _
  rw [List.filterMap_append, List.flatMap_append]
  rfl

end Parted

/-- **A stream may be cut anywhere.** -/
theorem part_append (mode : Mode) (first rest : List UInt8) :
    part mode (first ++ rest) = ((part (part mode first).1 rest).1,
      (part mode first).2 ++ (part (part mode first).1 rest).2) := by
  calc part mode (first ++ rest)
      = ((Transducer.run step mode (first ++ rest)).1,
          .ofEmissions (Transducer.run step mode (first ++ rest)).2) := rfl
    _ = _ := by
      rw [Transducer.run_append, Parted.ofEmissions_append]
      rfl

/-- Takes the commands out of several reads, one after the other. -/
def partReads (mode : Mode) : List (List UInt8) → Mode × Parted
  | [] => (mode, ⟨[], []⟩)
  | read :: reads =>
    let (mode, first) := partRead mode read
    let (mode, rest) := partReads mode reads
    (mode, first ++ rest)

/-- What the reads bring is what the automaton makes of all their bytes. -/
theorem partReads_eq (mode : Mode) (reads : List (List UInt8)) :
    partReads mode reads = part mode reads.flatten := by
  induction reads generalizing mode with
  | nil => rfl
  | cons read reads ih =>
    have hread : partRead mode read = part mode read := partRead_eq mode read
    simp only [partReads, hread, ih]
    rw [List.flatten_cons, part_append]

/-- A byte brings out one thing at most. -/
theorem length_step_le (mode : Mode) (b : UInt8) : (step mode b).2.length ≤ 1 := by
  cases mode with
  | data =>
    simp only [step]
    split_ifs <;> exact Nat.le_of_ble_eq_true rfl
  | command =>
    simp only [step]
    split_ifs
    · exact Nat.le_refl 1
    · exact Nat.zero_le 1
    · cases Verb.ofByte? b <;> exact Nat.zero_le 1
  | negotiation verb => exact Option.length_toList_le
  | block | blockCommand => exact Nat.zero_le 1

/-- No more text is made of a stream than it has bytes. -/
theorem length_text_part_le (mode : Mode) (bytes : List UInt8) :
    (part mode bytes).2.text.length ≤ bytes.length := by
  induction bytes generalizing mode with
  | nil => exact Nat.le_refl 0
  | cons b bytes ih =>
    have hcut : (part mode (b :: bytes)).2.text =
        (step mode b).2.filterMap Emission.text? ++ (part (step mode b).1 bytes).2.text :=
      List.filterMap_append
    have hone : ((step mode b).2.filterMap Emission.text?).length ≤ 1 :=
      Nat.le_trans (List.length_filterMap_le _ _) (length_step_le mode b)
    have hrest := ih (step mode b).1
    rw [hcut, List.length_append, List.length_cons]
    omega

/-- **The reads bring what the whole stream brings.** However a stream is cut into reads, and in
whatever mode it stands before them, the reads taken one after the other leave it in the same mode
and bring the same text and the same refusals as a single read of everything, and as the automaton
byte by byte. -/
theorem partReads_flatten (mode : Mode) (reads : List (List UInt8)) :
    partReads mode reads = partRead mode reads.flatten ∧
      partRead mode reads.flatten = part mode reads.flatten := by
  have hwhole : partRead mode reads.flatten = part mode reads.flatten := partRead_eq mode _
  exact ⟨(partReads_eq mode reads).trans hwhole.symm, hwhole⟩

/-- The end of a block and a demand, each cut in two, with a read of nothing but text between. -/
example : partReads .block [[24, 255], [240, 104], [105], [255, 253], [], [1]] =
    (.data, ⟨[104, 105], [255, 252, 1]⟩) := by decide

/-! ### What is written back -/

/-- Read between commands, these bytes are the text, there is nothing to answer, and the stream is
between commands again. -/
def Says (bytes text : List UInt8) : Prop := part .data bytes = (.data, ⟨text, []⟩)

theorem Says.append {first rest text more : List UInt8} (h : Says first text)
    (hrest : Says rest more) : Says (first ++ rest) (text ++ more) := by
  unfold Says at h hrest
  rw [Says, part_append, h, hrest]
  rfl

theorem says_nil : Says [] [] := rfl

/-- The refusal that a byte brings out asks for nothing. -/
theorem says_wire_step (mode : Mode) (b : UInt8) :
    Says ((step mode b).2.flatMap Emission.wire) [] := by
  cases mode with
  | data =>
    by_cases hb : b = interpret
    · rw [step, if_pos hb]
      exact says_nil
    · rw [step, if_neg hb]
      exact says_nil
  | command =>
    -- whatever the byte brings out here, it is text
    have hwire : (step .command b).2.flatMap Emission.wire = [] := by
      simp only [step]
      split_ifs
      · rfl
      · rfl
      · cases Verb.ofByte? b <;> rfl
    rw [hwire]
    exact says_nil
  | negotiation verb => cases verb <;> rfl
  | block => exact says_nil
  | blockCommand => exact says_nil

/-- **Refusals say nothing and ask for nothing.** -/
theorem says_refusals (mode : Mode) (bytes : List UInt8) :
    Says (part mode bytes).2.refusals [] := by
  induction bytes generalizing mode with
  | nil => exact says_nil
  | cons b bytes ih =>
    have hcut : (part mode (b :: bytes)).2.refusals =
        (step mode b).2.flatMap Emission.wire ++ (part (step mode b).1 bytes).2.refusals :=
      List.flatMap_append
    rw [hcut]
    exact (says_wire_step mode b).append (ih (step mode b).1)

end MudDialogue.Telnet
