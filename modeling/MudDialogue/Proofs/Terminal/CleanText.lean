import MudDialogue.Proofs.Terminal.Reads
import MudDialogue.Proofs.Text.Encoding

/-!
# What remains of server output is clean text

Whatever bytes a server sends, what remains of them is the encoding of whole characters: no control
sequence is left, no piece of a damaged character, and of the control characters below the space
only those that shape lines. This holds from every mode in which a read can leave the output.

## Main definitions

* `Terminal.IsLegible` — the characters that may remain.
* `Terminal.IsClean` — bytes that encode such characters.

## Main results

* `Terminal.isClean_clean` — what remains of a read is clean.
* `Terminal.IsClean.byte` — which bytes clean text can have.
-/

namespace MudDialogue.Terminal

open Text Text.Utf8 Transducer

/-- A character that takes up room on a line, or one that shapes lines. -/
def IsLegible (c : Char) : Prop := 0x20 ≤ c.toNat ∨ c = '\t' ∨ c = '\n' ∨ c = '\r'

/-- The bytes encode legible characters. -/
def IsClean (bytes : List UInt8) : Prop :=
  ∃ text : String, (∀ c ∈ text.toList, IsLegible c) ∧ Utf8.bytes text = bytes

variable {bytes more : List UInt8} {c : Char} {b : UInt8}

/-! ### Pieces of clean text -/

theorem isClean_nil : IsClean [] := ⟨"", nofun, rfl⟩

theorem IsClean.append (h : IsClean bytes) (h' : IsClean more) : IsClean (bytes ++ more) := by
  obtain ⟨text, htext, rfl⟩ := h
  obtain ⟨text', htext', rfl⟩ := h'
  refine ⟨text ++ text', ?_, ?_⟩
  · rw [String.toList_append]
    exact List.forall_mem_append.mpr ⟨htext, htext'⟩
  · rw [Utf8.bytes, String.toList_append, List.flatMap_append]
    rfl

theorem isClean_encoding (h : IsLegible c) : IsClean (String.utf8EncodeChar c) := by
  refine ⟨String.ofList [c], ?_, ?_⟩
  · rw [String.toList_ofList]
    exact List.forall_mem_singleton.mpr h
  · rw [Utf8.bytes, String.toList_ofList, List.flatMap_singleton]

theorem isClean_execute (b : UInt8) : IsClean (execute b) := by
  unfold execute
  split_ifs with h
  · simp only [shapesLines, Bool.or_eq_true, beq_iff_eq] at h
    rcases h with (rfl | rfl) | rfl
    · exact isClean_encoding (c := '\t') (.inr (.inl rfl))
    · exact isClean_encoding (c := '\n') (.inr (.inr (.inl rfl)))
    · exact isClean_encoding (c := '\r') (.inr (.inr (.inr rfl)))
  · exact isClean_nil

/-- What remains of a whole character is clean. -/
theorem isClean_shown (h : bytes = String.utf8EncodeChar c) : IsClean (shown c bytes) := by
  unfold shown
  split_ifs with hcontrol hsecond
  · exact isClean_execute _
  · exact isClean_nil
  · rw [h]
    exact isClean_encoding (.inl (UInt32.not_lt.mp hcontrol))

theorem isClean_replacement : IsClean replacementBytes :=
  isClean_encoding (c := replacement) (.inl (by decide))

theorem isClean_shownInvalid (bytes : List UInt8) : IsClean (shownInvalid bytes) := by
  unfold shownInvalid
  split
  · split_ifs
    · exact isClean_nil
    · exact isClean_replacement
  · exact isClean_replacement

/-! ### The automaton -/

theorem isClean_groundStep (b : UInt8) : IsClean (groundStep b).2 := by
  unfold groundStep
  split_ifs
  · exact isClean_nil
  · cases h : front b [] with
    | scalar c w =>
      obtain rfl : w = 1 := Nat.le_antisymm (front_width h).2.2 (front_width h).1
      exact isClean_shown (take_of_front h)
    | invalid w => exact isClean_shownInvalid [b]
    | cut => exact isClean_nil

theorem isClean_pendingStep {p : UInt8} {ps : List UInt8} (hcut : front p ps = .cut) (b : UInt8) :
    IsClean (pendingStep p ps b).2 := by
  unfold pendingStep
  cases h : front p (ps ++ [b]) with
  | scalar c w =>
    obtain ⟨rfl, -, -⟩ := front_concat_of_scalar hcut h
    have hwhole : (p :: (ps ++ [b])).take (ps.length + 2) = p :: (ps ++ [b]) :=
      List.take_of_length_le (by simp)
    exact isClean_shown (hwhole.symm.trans (take_of_front h))
  | invalid w => exact (isClean_shownInvalid (p :: ps)).append (isClean_groundStep b)
  | cut => exact isClean_nil

/-- **What remains of a byte is clean.** -/
theorem isClean_step {mode : Mode} (hmode : mode.IsProper) (b : UInt8) :
    IsClean (step mode b).2 := by
  unfold step
  split
  · exact isClean_groundStep b
  · exact isClean_pendingStep hmode b
  · cases interrupt? b with
    | some next => exact isClean_nil
    | none =>
      dsimp only
      split_ifs
      · exact isClean_execute b
      · exact isClean_nil

theorem isClean_run {mode : Mode} (hmode : mode.IsProper) (bytes : List UInt8) :
    IsClean (run step mode bytes).2 := by
  induction bytes generalizing mode with
  | nil => exact isClean_nil
  | cons b bytes ih =>
    have hnext : (step mode b).1.IsProper := by
      have hone := isProper_run hmode [b]
      rwa [run_singleton] at hone
    rw [run_cons]
    exact (isClean_step hmode b).append (ih hnext)

/-! ### One read -/

/-- The control character that a read can show is a whole character. -/
theorem isClean_raised (mode : Mode) (read : List UInt8) : IsClean (raised mode read) := by
  unfold raised
  split
  · rename_i pending b rest
    split_ifs with h
    · obtain ⟨-, hlow, hhigh⟩ := h
      have hfront : front 0xC2 [b] = .scalar (Char.ofNat (64 * 2 + (b.toNat - 0x80))) 2 :=
        (front_control b).trans
          (if_pos ⟨hlow, UInt8.le_of_lt (UInt8.lt_trans hhigh (by decide))⟩)
      have hbound : 0x80 ≤ b.toNat ∧ b.toNat < 0xA0 := ⟨hlow, hhigh⟩
      have hlegible : 0x20 ≤ (Char.ofNat (64 * 2 + (b.toNat - 0x80))).toNat := by
        rw [toNat_ofNat (.inl (by omega))]
        omega
      have hwhole : [0xC2, b] = String.utf8EncodeChar _ := take_of_front hfront
      rw [hwhole]
      exact isClean_encoding (.inl hlegible)
    · exact isClean_nil
  · exact isClean_nil

/-- **What remains of a read is clean.** -/
theorem isClean_clean {mode : Mode} (hmode : mode.IsProper) (read : List UInt8) :
    IsClean (clean mode read).2 := by
  rw [clean_eq hmode]
  exact (isClean_raised mode read).append (isClean_run hmode _)

/-- **Which bytes clean text can have.** -/
theorem IsClean.byte (h : IsClean bytes) (hb : b ∈ bytes) :
    (b < 0x20 → b = 0x09 ∨ b = 0x0A ∨ b = 0x0D) ∧ b ≠ 0xC0 ∧ b ≠ 0xC1 ∧ b < 0xF5 := by
  obtain ⟨text, htext, rfl⟩ := h
  obtain ⟨c, hc, hb⟩ := List.mem_flatMap.mp hb
  obtain ⟨hascii, hrest⟩ := byte_of_mem_encoding hb
  refine ⟨fun hcontrol => ?_, hrest⟩
  have hnumber : c.toNat = b.toNat := hascii (UInt8.lt_trans hcontrol (by decide))
  have hlow : b.toNat < 0x20 := hcontrol
  rw [← UInt8.toNat_inj, ← UInt8.toNat_inj, ← UInt8.toNat_inj, ← hnumber]
  rcases htext c hc with hlegible | rfl | rfl | rfl
  · omega
  · exact .inl rfl
  · exact .inr (.inl rfl)
  · exact .inr (.inr rfl)

end MudDialogue.Terminal
