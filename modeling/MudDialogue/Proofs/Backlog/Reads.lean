import MudDialogue.Backlog
import MudDialogue.Proofs.Terminal.Reads

/-!
# Backlogs that are filled in several reads

What a backlog holds after several reads depends on what the reads bring, not on where one ends and
the next begins: the bytes that are dropped after each read would be dropped in the end. What the
reads bring depends on the cuts only as far as a read loses a byte.

## Main definitions

* `Backlog.Reachable` — the backlogs that a program can come to have.

## Main results

* `Backlog.newest_append` — dropping bytes early makes no difference.
* `Backlog.foldl_extend` — a backlog after several reads, and when it is the one that a single read
  of all their bytes leaves.
-/

namespace MudDialogue.Backlog

open Terminal Transducer

/-- The backlogs that a program can come to have. -/
inductive Reachable : Backlog → Prop
  | empty (depth : Nat) : Reachable (empty depth)
  | extend {b : Backlog} (h : Reachable b) (read : List UInt8) : Reachable (b.extend read)
  | search {b rest : Backlog} (h : Reachable b) {τ : Type} {set : Pattern.Prompts τ}
      {found : Pattern.Match τ} (hfound : b.search set = some (found, rest)) : Reachable rest
  | clear {b : Backlog} (h : Reachable b) : Reachable b.clear

variable {b : Backlog} {reads : List (List UInt8)}

/-- No more is kept than the depth, and what is pending is the start of a character. -/
theorem Reachable.sound (h : b.Reachable) : b.content.length ≤ b.depth ∧ b.mode.IsProper := by
  induction h with
  | empty depth => exact ⟨Nat.zero_le _, trivial⟩
  | @extend b h read ih => exact ⟨length_content_extend_le b read, isProper_clean ih.2 read⟩
  | @search b rest h τ set found hfound ih =>
    obtain ⟨⟨_, stop⟩, -, hrest⟩ := Option.map_eq_some_iff.mp hfound
    obtain ⟨-, rfl⟩ := Prod.mk.inj hrest
    refine ⟨?_, ih.2⟩
    exact Nat.le_trans (List.drop_sublist stop b.content).length_le ih.1
  | clear h ih => exact ⟨Nat.zero_le _, trivial⟩

theorem newest_of_le {depth : Nat} {bytes : List UInt8} (h : bytes.length ≤ depth) :
    newest depth bytes = bytes := by
  rw [newest, Nat.sub_eq_zero_of_le h, List.drop_zero]

/-- **Dropping bytes early makes no difference.** -/
theorem newest_append (depth : Nat) (first rest : List UInt8) :
    newest depth (newest depth first ++ rest) = newest depth (first ++ rest) := by
  have hdrop : newest depth first ++ rest = (first ++ rest).drop (first.length - depth) := by
    rw [newest, List.drop_append_of_le_length (Nat.sub_le _ _)]
  rw [hdrop, newest, newest, List.drop_drop, List.length_drop, List.length_append]
  congr 1
  omega

/-- Reads are cleaned one after the other, and the newest bytes of all that they bring are kept. -/
theorem foldl_extend_eq (hb : b.content.length ≤ b.depth) (reads : List (List UInt8)) :
    reads.foldl extend b = { b with
      mode := (run clean b.mode reads).1
      content := newest b.depth (b.content ++ (run clean b.mode reads).2) } := by
  induction reads generalizing b with
  | nil =>
    rw [List.foldl_nil, run_nil, List.append_nil, newest_of_le hb]
  | cons read reads ih =>
    rw [List.foldl_cons, ih (length_content_extend_le b read), run_cons]
    simp only [extend, newest_append, List.append_assoc]

/-- **A backlog after several reads.** If the reads cut no control character, the backlog holds the
newest bytes of what it held before and what the automaton makes of the bytes that the reads keep.
If these are the bytes that a single read of everything keeps, the backlog is the one that the
single read leaves, so it takes up all later reads alike. -/
theorem foldl_extend (hb : b.Reachable) (hcontrol : ¬ CutsControl reads) :
    reads.foldl extend b = { b with
        mode := (run step b.mode (heard b.mode reads)).1
        content := newest b.depth (b.content ++ (raised b.mode reads.flatten ++
          (run step b.mode (heard b.mode reads)).2)) } ∧
      (heard b.mode reads = kept b.mode reads.flatten →
        reads.foldl extend b = b.extend reads.flatten) := by
  obtain ⟨hlength, hmode⟩ := hb.sound
  have hreads := foldl_extend_eq hlength reads
  refine ⟨?_, fun hheard => ?_⟩
  · rw [hreads, run_clean_eq hmode hcontrol]
  · rw [hreads, run_clean_eq_clean hmode hcontrol hheard]
    rfl

/-- Reads that end inside a character, a control sequence and a system command. -/
theorem foldl_extend_in_pieces :
    let b := (empty 8).extend [0xE2, 0x94]
    let reads := [[], [0x82, 0x1B, 0x5B], [0x33], [], [0x6D, 0x41, 0xC3],
      [0xA9, 0x1B, 0x5D, 0x30], [0x07, 0xFF]]
    b.Reachable ∧ ¬ CutsControl reads ∧ heard b.mode reads = kept b.mode reads.flatten ∧
      reads.foldl extend b = b.extend reads.flatten := by
  intro b reads
  have hb : b.Reachable := .extend (.empty 8) _
  have hcontrol : ¬ CutsControl reads := by decide
  have hheard : heard b.mode reads = kept b.mode reads.flatten := by decide
  exact ⟨hb, hcontrol, hheard, (foldl_extend hb hcontrol).2 hheard⟩

/-- Of "é à" the space is lost if the reads end after the first bytes of the two letters. -/
theorem foldl_extend_ne_extend_flatten :
    let reads := [[0xC3], [0xA9, 0x20, 0xC3], [0xA0]]
    (empty 100).Reachable ∧ ¬ CutsControl reads ∧
      reads.foldl extend (empty 100) ≠ (empty 100).extend reads.flatten :=
  ⟨.empty 100, by decide, by decide⟩

end MudDialogue.Backlog
