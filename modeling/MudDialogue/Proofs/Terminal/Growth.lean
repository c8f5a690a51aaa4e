import MudDialogue.Proofs.Terminal.Reads

/-!
# How much text a read makes

Cleaning a read removes bytes of it, but it can also make bytes: those of a replacement character,
where a byte encodes nothing. No byte makes more than three of text. The start of a character that a
read leaves behind may make three bytes later on, so it is counted as if it had made them.

## Main definitions

* `Terminal.Mode.held` — the bytes of text that what is pending may still make.

## Main results

* `Terminal.held_add_length_clean` — a read makes at most three bytes of text for each of its own.
-/

namespace MudDialogue.Terminal

open Text Text.Utf8 Transducer

/-- The bytes of text that what is pending may still make. -/
def Mode.held : Mode → Nat
  | .ground (_ :: _) => 3
  | _ => 0

variable {mode : Mode} {p : UInt8} {ps : List UInt8}

theorem held_of_ne (h : ∀ p ps, mode ≠ .ground (p :: ps)) : mode.held = 0 := by
  match mode with
  | .ground (p :: ps) => exact absurd rfl (h p ps)
  | .ground [] => rfl
  | .escape | .escapeIntermediate | .controlSequence | .deviceEntry | .deviceParameter
  | .deviceIntermediate | .deviceIgnored | .deviceData | .systemCommand | .characterString => rfl

theorem held_le (mode : Mode) : mode.held ≤ 3 := by
  unfold Mode.held
  split <;> omega

theorem length_execute_le (b : UInt8) : (execute b).length ≤ 1 := by
  unfold execute
  split_ifs
  · exact Nat.le_refl 1
  · exact Nat.zero_le 1

theorem length_shown_le (c : Char) (encoded : List UInt8) :
    (shown c encoded).length ≤ encoded.length + 1 := by
  unfold shown
  split_ifs
  · exact Nat.le_trans (length_execute_le _) (Nat.le_add_left 1 _)
  · exact Nat.zero_le _
  · exact Nat.le_succ _

theorem length_shownInvalid_le (bytes : List UInt8) : (shownInvalid bytes).length ≤ 3 := by
  unfold shownInvalid
  split
  · split_ifs
    · exact Nat.zero_le 3
    · exact Nat.le_refl 3
  · exact Nat.le_refl 3

/-! ### The automaton -/

theorem held_add_length_groundStep (b : UInt8) :
    (groundStep b).1.held + (groundStep b).2.length ≤ 3 := by
  unfold groundStep
  split_ifs
  · exact Nat.zero_le 3
  · cases front b [] with
    | scalar c w =>
      have hshown : (shown c [b]).length ≤ 2 := length_shown_le c [b]
      simp only [Mode.start, Mode.held]
      omega
    | invalid w =>
      have hshown : (shownInvalid [b]).length ≤ 3 := length_shownInvalid_le [b]
      simp only [Mode.start, Mode.held]
      omega
    | cut => exact Nat.le_refl 3

theorem held_add_length_pendingStep (hcut : front p ps = .cut) (b : UInt8) :
    (pendingStep p ps b).1.held + (pendingStep p ps b).2.length ≤ 6 := by
  have hpending : ps.length ≤ 2 := length_le_of_cut hcut
  unfold pendingStep
  cases front p (ps ++ [b]) with
  | scalar c w =>
    have hshown : (shown c (p :: ps ++ [b])).length ≤ (p :: ps ++ [b]).length + 1 :=
      length_shown_le c _
    have hlength : (p :: ps ++ [b]).length = ps.length + 2 := by simp
    simp only [Mode.start, Mode.held]
    omega
  | cut => exact Nat.le_of_ble_eq_true rfl
  | invalid w =>
    have hshown : (shownInvalid (p :: ps)).length ≤ 3 := length_shownInvalid_le _
    have hground := held_add_length_groundStep b
    simp only [List.length_append]
    omega

/-- A byte makes at most three bytes of text. -/
theorem held_add_length_step (hmode : mode.IsProper) (b : UInt8) :
    (step mode b).1.held + (step mode b).2.length ≤ mode.held + 3 := by
  unfold step
  split
  · exact held_add_length_groundStep b
  · exact held_add_length_pendingStep hmode b
  · rename_i hstart hpending
    have hground (pending : List UInt8) : mode ≠ .ground pending := by
      rintro rfl
      cases pending with
      | nil => exact hstart rfl
      | cons q qs => exact hpending q qs rfl
    cases hnext : interrupt? b with
    | some next =>
      have hheld : next.held = 0 := held_of_ne fun p ps h =>
        interrupt_ne_pending (hnext.trans (congrArg some h))
      simp only [hheld]
      exact Nat.zero_le _
    | none =>
      have hheld : (mode.next b).held = 0 := held_of_ne fun p ps => next_ne_pending hground
      have hout : (if mode.executesControls && b < 0x20 then execute b else []).length ≤ 1 := by
        split_ifs
        · exact length_execute_le b
        · exact Nat.zero_le 1
      simp only [hheld]
      omega

theorem held_add_length_run (hmode : mode.IsProper) (bytes : List UInt8) :
    (run step mode bytes).1.held + (run step mode bytes).2.length ≤
      mode.held + 3 * bytes.length := by
  induction bytes generalizing mode with
  | nil => exact Nat.le_refl _
  | cons b bytes ih =>
    have hproper : (step mode b).1.IsProper := by
      have hone := isProper_run hmode [b]
      rwa [run_singleton] at hone
    have hfirst := held_add_length_step hmode b
    have hrest := ih hproper
    rw [run_cons, List.length_append, List.length_cons]
    dsimp only
    omega

/-! ### One read -/

/-- A character that was cut by the read before makes what has been counted for it, and three bytes
at most for each byte that it takes from the read. -/
theorem held_add_length_resume (hmode : mode.IsProper) (read : List UInt8) :
    (resume mode read).1.held + (resume mode read).2.1.length + 3 * (resume mode read).2.2.length ≤
      mode.held + 3 * read.length := by
  match mode, hmode with
  | .ground (p :: ps), hcut =>
    have hpending : ps.length ≤ 2 := length_le_of_cut hcut
    simp only [resume]
    cases hfront : front p (ps ++ read.take (4 - (ps.length + 1))) with
    | scalar c w =>
      have hmore : ps.length + 1 < w := lt_width_of_cut hcut hfront
      obtain ⟨-, -, hwithin⟩ := front_width hfront
      have hsound := soundLength_of_scalar hfront
      have htake : ((p :: (ps ++ read.take (4 - (ps.length + 1)))).take w).length = w := by
        rw [List.length_take, List.length_cons]
        omega
      rw [List.length_append, List.length_take] at hwithin
      simp only [htake, Mode.start, Mode.held, List.length_drop]
      split_ifs <;> omega
    | invalid w =>
      have hout : replacementBytes.length = 3 := rfl
      simp only [hout, Mode.start, Mode.held, List.length_drop]
      omega
    | cut =>
      simp only [Mode.held, List.length_nil, List.length_drop]
      omega
  | .ground [], _ | .escape, _ | .escapeIntermediate, _ | .controlSequence, _ | .deviceEntry, _
  | .deviceParameter, _ | .deviceIntermediate, _ | .deviceIgnored, _ | .deviceData, _
  | .systemCommand, _ | .characterString, _ =>
    simp [resume]

theorem isProper_resume (hmode : mode.IsProper) (read : List UInt8) :
    (resume mode read).1.IsProper := by
  match mode, hmode with
  | .ground (p :: ps), hcut =>
    simp only [resume]
    cases hfront : front p (ps ++ read.take (4 - (ps.length + 1))) with
    | scalar c w => trivial
    | invalid w => trivial
    | cut => exact hfront
  | .ground [], _ | .escape, _ | .escapeIntermediate, _ | .controlSequence, _ | .deviceEntry, _
  | .deviceParameter, _ | .deviceIntermediate, _ | .deviceIgnored, _ | .deviceData, _
  | .systemCommand, _ | .characterString, _ => trivial

/-- **A read makes at most three bytes of text for each of its own**, and three more if a character
was cut before it. -/
theorem held_add_length_clean (hmode : mode.IsProper) (read : List UInt8) :
    (clean mode read).1.held + (clean mode read).2.length ≤ mode.held + 3 * read.length := by
  have hresume := held_add_length_resume hmode read
  have hproper := isProper_resume hmode read
  cases h : resume mode read with
  | mk after taken =>
    rw [h] at hresume hproper
    have hrun := held_add_length_run hproper taken.2
    simp only [clean, h, List.length_append]
    dsimp only at hresume hrun
    omega

end MudDialogue.Terminal
