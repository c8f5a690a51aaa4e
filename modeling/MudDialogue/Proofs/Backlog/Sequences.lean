import MudDialogue.Proofs.Backlog.Reads
import MudDialogue.Proofs.Terminal.Sequences

/-!
# Sequences leave no trace in a backlog

A backlog that stands between characters is the same after a terminal sequence as before it, however
the reads cut the sequence. So what a server says comes to the same backlog with sequences among its
characters as without them.

## Main results

* `Backlog.foldl_extend_of_endsBetween` — a backlog after reads that end between characters.
* `Backlog.sequences_leave_no_trace` — sequences alone, and sequences in a text.
-/

namespace MudDialogue.Backlog

open Text Terminal Transducer

variable {b : Backlog} {reads : List (List UInt8)}

/-- A read that begins between characters. -/
theorem extend_of_start (hmode : b.mode = .start) (read : List UInt8) : b.extend read = { b with
    mode := (run step .start read).1
    content := newest b.depth (b.content ++ (run step .start read).2) } := by
  rw [extend, hmode, clean_of_isWhole isWhole_start]

/-- Reads that come to what the automaton makes of their bytes leave the backlog that a single read
of all of them leaves. -/
theorem foldl_extend_of_start (hb : b.Reachable) (hmode : b.mode = .start)
    (h : run clean .start reads = run step .start reads.flatten) :
    reads.foldl extend b = b.extend reads.flatten := by
  rw [foldl_extend_eq hb.sound.1, extend_of_start hmode, hmode, h]

/-- A text with sequences among its characters leaves what the bare text leaves. -/
theorem extend_of_decorated (hmode : b.mode = .start) {text : String} {bytes : List UInt8}
    (htext : '\x1b' ∉ text.toList) (h : Decorated text.toList bytes) :
    b.extend bytes = b.extend (Utf8.bytes text) := by
  have hrun : run step .start bytes = run step .start (Utf8.bytes text) := by
    rw [run_of_decorated htext h, Utf8.bytes, run_of_decorated htext (decorated_encoding _)]
  rw [extend_of_start hmode, extend_of_start hmode, hrun]

/-- **Sequences leave no trace.** A backlog that stands between characters is the same after a
sequence as before it, wherever the reads cut the sequence. After a text with sequences among its
characters it is the one that the bare text leaves, in a single read or in several ones that end
between characters. -/
theorem sequences_leave_no_trace (hb : b.Reachable) (hmode : b.mode = .start) :
    (∀ reads : List (List UInt8), IsSequence reads.flatten → reads.foldl extend b = b) ∧
    (∀ (text : String) (bytes : List UInt8), '\x1b' ∉ text.toList →
      Decorated text.toList bytes → b.extend bytes = b.extend (Utf8.bytes text)) ∧
    (∀ (text : String) (reads : List (List UInt8)), '\x1b' ∉ text.toList →
      Decorated text.toList reads.flatten →
      (∀ i < reads.length, EndsBetween (reads.take i).flatten) →
      reads.foldl extend b = b.extend (Utf8.bytes text)) := by
  refine ⟨fun reads hreads => ?_, fun text bytes => extend_of_decorated hmode,
    fun text reads htext hbytes hends => ?_⟩
  · have hsilent : Silent .start reads.flatten .start := silent_of_isSequence hreads
    have hwhole : run clean .start reads = run step .start reads.flatten := by
      refine run_clean_of_isWhole fun i _ => hsilent.isWhole_of_part ⟨(reads.drop i).flatten, ?_⟩
      rw [← List.flatten_append, List.take_append_drop]
    rw [foldl_extend_of_start hb hmode hwhole, extend_of_start hmode, hsilent.run_eq,
      List.append_nil, newest_of_le hb.sound.1, ← hmode]
  · rw [foldl_extend_of_start hb hmode (run_clean_of_endsBetween hends)]
    exact extend_of_decorated hmode htext hbytes

/-- A title is set between two letters, and its sequence ends in the next read. -/
theorem sequences_leave_no_trace_of_title :
    let b := (empty 16).extend (Utf8.bytes "ok ")
    let title := [[0x1B], [0x5D, 0x30], [0x07]]
    let reads := [[0x68, 0x1B, 0x5D], [0x30, 0x07, 0xC3, 0xA9]]
    b.Reachable ∧ b.mode = .start ∧ IsSequence title.flatten ∧ title.foldl extend b = b ∧
      Decorated "hé".toList reads.flatten ∧
      (∀ i < reads.length, EndsBetween (reads.take i).flatten) ∧
      b.extend reads.flatten = b.extend (Utf8.bytes "hé") ∧
      reads.foldl extend b = b.extend (Utf8.bytes "hé") := by
  intro b title reads
  have hb : b.Reachable := .extend (.empty 16) _
  have hmode : b.mode = .start := by decide
  have htitle : IsSequence title.flatten :=
    IsSequence.command (List.forall_mem_singleton.mpr (by decide)) (.inl rfl)
  have hbytes : Decorated "hé".toList reads.flatten :=
    .char 'h' (.sequence htitle (.char 'é' .nil))
  have hends : ∀ i < reads.length, EndsBetween (reads.take i).flatten := by
    intro i hi
    have hnil : '\x1b' ∉ [] := List.not_mem_nil
    have hh : '\x1b' ∉ ['h'] := by decide
    obtain rfl | rfl : i = 0 ∨ i = 1 := by
      have : i < 2 := hi
      omega
    · exact ⟨[], [], [], _, hnil, .nil, htitle, List.nil_prefix, rfl⟩
    · exact ⟨['h'], _, [0x1B, 0x5D], _, hh, .char 'h' .nil, htitle, ⟨[0x30, 0x07], rfl⟩, rfl⟩
  have htext : '\x1b' ∉ "hé".toList := by decide
  obtain ⟨hsequence, hbare, hreads⟩ := sequences_leave_no_trace hb hmode
  exact ⟨hb, hmode, htitle, hsequence title htitle, hbytes, hends, hbare _ _ htext hbytes,
    hreads _ _ htext hbytes hends⟩

end MudDialogue.Backlog
