import MudDialogue.Proofs.Terminal.Reads
import MudDialogue.Proofs.Text.Encoding

/-!
# Sequences leave no trace

A complete terminal sequence takes the automaton from plain text through some of its modes and back,
and nothing remains of it. On the way no character is pending, so a read may end anywhere in it. A
text therefore comes to the same whether sequences stand among its characters or not.

## Main definitions

* `Terminal.IsSequence` — the complete sequences, one constructor for each family.
* `Terminal.Silent` — bytes of which nothing remains, from one mode to another.
* `Terminal.Decorated` — a text with sequences among its characters.
* `Terminal.EndsBetween` — bytes that end between the characters of such a text.

## Main results

* `Terminal.silent_of_isSequence` — nothing remains of a sequence.
* `Terminal.run_of_decorated` — what remains of a text does not depend on the sequences in it.
* `Terminal.run_clean_of_endsBetween` — nor on the reads, if they end between characters.
-/

namespace MudDialogue.Terminal

open Text Text.Utf8 Transducer

/-- The byte that starts a sequence. -/
abbrev esc : UInt8 := 0x1B

/-- The end of a string. -/
def terminator : List UInt8 := [esc, '\\'.toUInt8]

/-- The bytes that open a sequence of a kind of its own right behind ESC. -/
def openers : List UInt8 := Utf8.bytes "[]PX^_"

/-- A complete sequence. -/
inductive IsSequence : List UInt8 → Prop where
  /-- A control sequence: parameters and intermediate bytes in any order, and a final byte. -/
  | control {parameters : List UInt8} {final : UInt8}
      (hparameters : ∀ b ∈ parameters, 0x20 ≤ b ∧ b ≤ 0x3F) (hfinal : 0x40 ≤ final ∧ final ≤ 0x7E) :
      IsSequence (esc :: '['.toUInt8 :: (parameters ++ [final]))
  /-- An escape sequence: intermediate bytes and a final byte, which opens nothing. -/
  | escape {intermediates : List UInt8} {final : UInt8}
      (hintermediates : ∀ b ∈ intermediates, 0x20 ≤ b ∧ b ≤ 0x2F)
      (hfinal : 0x30 ≤ final ∧ final ≤ 0x7E) (hopener : intermediates = [] → final ∉ openers) :
      IsSequence (esc :: (intermediates ++ [final]))
  /-- An operating system command, ended by BEL or as a string. -/
  | command {body ending : List UInt8} (hbody : ∀ b ∈ body, b ∉ [0x07, 0x18, 0x1A, 0x1B])
      (hending : ending = [0x07] ∨ ending = terminator) :
      IsSequence (esc :: ']'.toUInt8 :: (body ++ ending))
  /-- A device control string. -/
  | device {body : List UInt8} (hbody : ∀ b ∈ body, b ∉ [0x18, 0x1A, 0x1B, 0x9C]) :
      IsSequence (esc :: 'P'.toUInt8 :: (body ++ terminator))
  /-- A start-of-string, privacy or application string. -/
  | string {kind : UInt8} {body : List UInt8} (hkind : kind ∈ Utf8.bytes "X^_")
      (hbody : ∀ b ∈ body, b ∉ [0x18, 0x1A, 0x1B]) :
      IsSequence (esc :: kind :: (body ++ terminator))

/-! ### Reads that end between characters -/

/-- Nothing is pending: what comes next does not go on with a character. -/
def Mode.IsWhole (mode : Mode) : Prop := ∀ p ps, mode ≠ .ground (p :: ps)

variable {mode next last : Mode} {bytes more : List UInt8} {b : UInt8} {c : Char}

theorem isWhole_start : Mode.start.IsWhole := fun _ _ h => by cases h

theorem clean_of_isWhole (h : mode.IsWhole) (read : List UInt8) :
    clean mode read = run step mode read := by
  cases mode with
  | ground pending =>
    cases pending with
    | nil => rfl
    | cons p ps => exact absurd rfl (h p ps)
  | _ => rfl

/-- Reads that all begin where nothing is pending bring what the automaton makes of their bytes. -/
theorem run_clean_of_isWhole {reads : List (List UInt8)}
    (h : ∀ i < reads.length, (run step mode (reads.take i).flatten).1.IsWhole) :
    run clean mode reads = run step mode reads.flatten := by
  induction reads generalizing mode with
  | nil => rfl
  | cons read reads ih =>
    have hfirst : clean mode read = run step mode read := clean_of_isWhole (h 0 (Nat.succ_pos _)) read
    have hrest : run clean (run step mode read).1 reads =
        run step (run step mode read).1 reads.flatten := by
      refine ih fun i hi => ?_
      have hi := h (i + 1) (Nat.succ_lt_succ hi)
      rwa [List.take_succ_cons, List.flatten_cons, run_append] at hi
    rw [run_cons, hfirst, hrest, List.flatten_cons, run_append]

/-! ### Bytes of which nothing remains -/

/-- The bytes take the automaton from one mode to another, nothing remains of them, and nothing is
pending on the way. -/
inductive Silent : Mode → List UInt8 → Mode → Prop where
  | nil {mode : Mode} (hmode : mode.IsWhole) : Silent mode [] mode
  | cons {mode next last : Mode} {b : UInt8} {bytes : List UInt8} (hmode : mode.IsWhole)
      (hstep : step mode b = (next, [])) (h : Silent next bytes last) : Silent mode (b :: bytes) last

namespace Silent

theorem run_eq (h : Silent mode bytes last) : run step mode bytes = (last, []) := by
  induction h with
  | nil => rfl
  | cons hmode hstep h ih => rw [run_cons, hstep, ih, List.append_nil]

theorem append (h : Silent mode bytes next) (h' : Silent next more last) :
    Silent mode (bytes ++ more) last := by
  induction h with
  | nil => exact h'
  | cons hmode hstep h ih => exact .cons hmode hstep (ih h')

/-- Nothing is pending behind any part of the bytes. -/
theorem isWhole_of_part (h : Silent mode bytes last) {part : List UInt8} (hpart : part <+: bytes) :
    (run step mode part).1.IsWhole := by
  induction h generalizing part with
  | nil hmode =>
    rw [List.prefix_nil.mp hpart]
    exact hmode
  | cons hmode hstep h ih =>
    rcases List.prefix_cons_iff.mp hpart with rfl | ⟨part, rfl, hrest⟩
    · exact hmode
    · rw [run_cons, hstep]
      exact ih hrest

/-- Bytes that keep the automaton among some modes. -/
theorem exists_of_forall {p : Mode → Prop} (hp : ∀ m, p m → m.IsWhole) (hmode : p mode)
    (h : ∀ b ∈ bytes, ∀ m, p m → ∃ n, p n ∧ step m b = (n, [])) :
    ∃ last, p last ∧ Silent mode bytes last := by
  induction bytes generalizing mode with
  | nil => exact ⟨mode, hmode, .nil (hp mode hmode)⟩
  | cons b bytes ih =>
    obtain ⟨hfirst, hrest⟩ := List.forall_mem_cons.mp h
    obtain ⟨next, hnext, hstep⟩ := hfirst mode hmode
    obtain ⟨last, hlast, hsilent⟩ := ih hnext hrest
    exact ⟨last, hlast, .cons (hp mode hmode) hstep hsilent⟩

/-- Bytes that keep the automaton in a mode. -/
theorem of_forall (hmode : mode.IsWhole) (h : ∀ b ∈ bytes, step mode b = (mode, [])) :
    Silent mode bytes mode := by
  obtain ⟨_, rfl, hsilent⟩ := exists_of_forall (p := (· = mode)) (fun _ hm => hm ▸ hmode) rfl
    fun b hb _ hm => ⟨mode, rfl, hm ▸ h b hb⟩
  exact hsilent

theorem singleton (hmode : mode.IsWhole) (hstep : step mode b = (last, []))
    (hlast : last.IsWhole) : Silent mode [b] last :=
  .cons hmode hstep (.nil hlast)

end Silent

/-! ### The families of sequences -/

/-- What holds of all numbers below 256 holds of all bytes. -/
theorem forall_byte {p : UInt8 → Prop} (h : ∀ n : Fin 256, p (.ofFin n)) (b : UInt8) : p b :=
  h b.toFin

theorem step_parameter (h : 0x20 ≤ b ∧ b ≤ 0x3F) :
    step .controlSequence b = (.controlSequence, []) := by
  revert h
  exact forall_byte (p := fun b => 0x20 ≤ b ∧ b ≤ 0x3F →
    step .controlSequence b = (.controlSequence, [])) (by decide +kernel) b

theorem step_controlFinal (h : 0x40 ≤ b ∧ b ≤ 0x7E) : step .controlSequence b = (.start, []) := by
  revert h
  exact forall_byte (p := fun b => 0x40 ≤ b ∧ b ≤ 0x7E →
    step .controlSequence b = (.start, [])) (by decide +kernel) b

theorem step_intermediate (h : 0x20 ≤ b ∧ b ≤ 0x2F) :
    step .escape b = (.escapeIntermediate, []) ∧
      step .escapeIntermediate b = (.escapeIntermediate, []) := by
  revert h
  exact forall_byte (p := fun b => 0x20 ≤ b ∧ b ≤ 0x2F →
    step .escape b = (.escapeIntermediate, []) ∧
      step .escapeIntermediate b = (.escapeIntermediate, [])) (by decide +kernel) b

theorem step_escapeFinal (h : 0x30 ≤ b ∧ b ≤ 0x7E) :
    (b ∉ openers → step .escape b = (.start, [])) ∧ step .escapeIntermediate b = (.start, []) := by
  revert h
  exact forall_byte (p := fun b => 0x30 ≤ b ∧ b ≤ 0x7E →
    (b ∉ openers → step .escape b = (.start, [])) ∧
      step .escapeIntermediate b = (.start, [])) (by decide +kernel) b

theorem step_systemCommand (h : b ∉ [0x07, 0x18, 0x1A, 0x1B]) :
    step .systemCommand b = (.systemCommand, []) := by
  revert h
  exact forall_byte (p := fun b => b ∉ [0x07, 0x18, 0x1A, 0x1B] →
    step .systemCommand b = (.systemCommand, [])) (by decide +kernel) b

theorem step_characterString (h : b ∉ [0x18, 0x1A, 0x1B]) :
    step .characterString b = (.characterString, []) := by
  revert h
  exact forall_byte (p := fun b => b ∉ [0x18, 0x1A, 0x1B] →
    step .characterString b = (.characterString, [])) (by decide +kernel) b

/-- The modes inside of a device control string. -/
def Mode.isDevice : Mode → Bool
  | .deviceEntry | .deviceParameter | .deviceIntermediate | .deviceIgnored | .deviceData => true
  | _ => false

theorem isDevice_step (hmode : mode.isDevice) (h : b ∉ [0x18, 0x1A, 0x1B, 0x9C]) :
    ∃ next : Mode, next.isDevice ∧ step mode b = (next, []) := by
  have hall : ∀ mode ∈ [Mode.deviceEntry, .deviceParameter, .deviceIntermediate, .deviceIgnored,
      .deviceData], ∀ n : Fin 256, UInt8.ofFin n ∉ [0x18, 0x1A, 0x1B, 0x9C] →
      (step mode (.ofFin n)).1.isDevice ∧ (step mode (.ofFin n)).2 = [] := by decide +kernel
  have hmem : mode ∈ [Mode.deviceEntry, .deviceParameter, .deviceIntermediate, .deviceIgnored,
      .deviceData] := by cases mode <;> first | decide | cases hmode
  obtain ⟨hnext, hout⟩ := hall mode hmem b.toFin h
  exact ⟨_, hnext, Prod.ext rfl hout⟩

theorem isWhole_of_isDevice (h : mode.isDevice) : mode.IsWhole := by
  rintro p ps rfl
  cases h

/-- The end of a string leads back to plain text from wherever ESC starts a sequence. -/
theorem silent_terminator (hmode : mode.IsWhole) (hesc : step mode esc = (.escape, [])) :
    Silent mode terminator .start :=
  .cons hmode hesc (.singleton nofun rfl nofun)

/-- **Nothing remains of a sequence.** -/
theorem silent_of_isSequence (h : IsSequence bytes) : Silent .start bytes .start := by
  cases h with
  | @control parameters final hparameters hfinal =>
    have hbody : Silent .controlSequence parameters .controlSequence :=
      .of_forall nofun fun b hb => step_parameter (hparameters b hb)
    have hend : Silent .controlSequence [final] .start :=
      .singleton nofun (step_controlFinal hfinal) nofun
    exact .cons nofun rfl (.cons nofun rfl (hbody.append hend))
  | @escape intermediates final hintermediates hfinal hopener =>
    refine .cons nofun rfl ?_
    cases intermediates with
    | nil => exact .singleton nofun ((step_escapeFinal hfinal).1 (hopener rfl)) nofun
    | cons b intermediates =>
      obtain ⟨hb, hrest⟩ := List.forall_mem_cons.mp hintermediates
      have hbody : Silent .escapeIntermediate intermediates .escapeIntermediate :=
        .of_forall nofun fun b hb => (step_intermediate (hrest b hb)).2
      have hend : Silent .escapeIntermediate [final] .start :=
        .singleton nofun (step_escapeFinal hfinal).2 nofun
      exact .cons nofun (step_intermediate hb).1 (hbody.append hend)
  | @command body ending hbody hending =>
    have hbody : Silent .systemCommand body .systemCommand :=
      .of_forall nofun fun b hb => step_systemCommand (hbody b hb)
    refine .cons nofun rfl (.cons nofun rfl (hbody.append ?_))
    rcases hending with rfl | rfl
    · exact .singleton nofun rfl nofun
    · exact silent_terminator nofun rfl
  | @device body hbody =>
    obtain ⟨last, hlast, hbody⟩ : ∃ last : Mode, last.isDevice ∧ Silent .deviceEntry body last :=
      Silent.exists_of_forall (fun m => isWhole_of_isDevice) rfl
        fun b hb m hm => isDevice_step hm (hbody b hb)
    have hesc : step last esc = (.escape, []) := by cases last <;> first | rfl | cases hlast
    exact .cons nofun rfl (.cons nofun rfl
      (hbody.append (silent_terminator (isWhole_of_isDevice hlast) hesc)))
  | @string kind body hkind hbody =>
    have hbody : Silent .characterString body .characterString :=
      .of_forall nofun fun b hb => step_characterString (hbody b hb)
    have hopen : ∀ kind ∈ Utf8.bytes "X^_", step .escape kind = (.characterString, []) := by
      decide +kernel
    exact .cons nofun rfl (.cons nofun (hopen kind hkind)
      (hbody.append (silent_terminator nofun rfl)))

/-! ### Texts with sequences in them -/

/-- The bytes of a character are pending until it is complete. -/
theorem run_pending {p : UInt8} {ps : List UInt8} (h : front p (ps ++ bytes) = .cut) :
    run step (.ground (p :: ps)) bytes = (.ground (p :: (ps ++ bytes)), []) := by
  induction bytes generalizing ps with
  | nil => rw [run_nil, List.append_nil]
  | cons b bytes ih =>
    rw [List.append_cons] at h
    have hstep : step (.ground (p :: ps)) b = (.ground (p :: (ps ++ [b])), []) := by
      rw [step_pending, pendingStep, cut_of_append h]
      rfl
    rw [List.append_cons ps b bytes, run_cons, hstep, ih h]
    rfl

/-- Of the encoding of a character remains what is shown of it. -/
theorem run_encoding (hc : c ≠ '\x1b') :
    run step .start (String.utf8EncodeChar c) = (.start, shown c (String.utf8EncodeChar c)) := by
  obtain ⟨b, bytes, hencoding⟩ :=
    List.exists_cons_of_ne_nil (String.utf8EncodeChar_ne_nil (c := c))
  have hfront : front b bytes = .scalar c (bytes.length + 1) := by
    have h := front_of_encoding hencoding []
    rwa [List.append_nil] at h
  have hesc : b ≠ 0x1B := by
    rintro rfl
    exact hc (Front.scalar.inj hfront).1.symm
  have hground : step .start b = groundStep b := rfl
  rw [hencoding]
  rcases List.eq_nil_or_concat bytes with rfl | ⟨part, last, rfl⟩
  · rw [run_singleton, hground, groundStep, if_neg hesc, hfront]
  · rw [List.concat_eq_append] at hfront ⊢
    have hcut : front b part = .cut := cut_of_lt_width hfront (by simp)
    have hfirst : front b [] = .cut := cut_of_append hcut
    have hstep : step .start b = (.ground [b], []) := by
      rw [hground, groundStep, if_neg hesc, hfirst]
    rw [run_cons, hstep, run_append, run_pending hcut, run_singleton, step_pending, pendingStep,
      List.nil_append, hfront]
    rfl

/-- A text with sequences among its characters. -/
inductive Decorated : List Char → List UInt8 → Prop where
  | nil : Decorated [] []
  | char (c : Char) {text : List Char} {bytes : List UInt8} (h : Decorated text bytes) :
      Decorated (c :: text) (String.utf8EncodeChar c ++ bytes)
  | sequence {sequence : List UInt8} {text : List Char} {bytes : List UInt8}
      (hsequence : IsSequence sequence) (h : Decorated text bytes) :
      Decorated text (sequence ++ bytes)

variable {text : List Char} {reads : List (List UInt8)}

/-- A text is its own decoration. -/
theorem decorated_encoding (text : List Char) :
    Decorated text (text.flatMap String.utf8EncodeChar) := by
  induction text with
  | nil => exact .nil
  | cons c text ih => exact .char c ih

/-- What remains of a text. -/
def shownText (text : List Char) : List UInt8 :=
  text.flatMap fun c => shown c (String.utf8EncodeChar c)

/-- **What remains of a text does not depend on the sequences in it.** -/
theorem run_of_decorated (htext : '\x1b' ∉ text) (h : Decorated text bytes) :
    run step .start bytes = (.start, shownText text) := by
  induction h with
  | nil => rfl
  | char c h ih =>
    obtain ⟨hc, hrest⟩ := not_or.mp fun hmem => htext (List.mem_cons.mpr hmem)
    rw [run_append, run_encoding (Ne.symm hc), ih hrest]
    rfl
  | sequence hsequence h ih =>
    rw [run_append, (silent_of_isSequence hsequence).run_eq, ih htext]
    rfl

/-- The bytes end between the characters of a text with sequences, or in one of the sequences. -/
def EndsBetween (bytes : List UInt8) : Prop :=
  ∃ (text : List Char) (done part sequence : List UInt8), '\x1b' ∉ text ∧ Decorated text done ∧
    IsSequence sequence ∧ part <+: sequence ∧ bytes = done ++ part

theorem isWhole_of_endsBetween (h : EndsBetween bytes) : (run step .start bytes).1.IsWhole := by
  obtain ⟨text, done, part, sequence, htext, hdone, hsequence, hpart, rfl⟩ := h
  rw [run_append, run_of_decorated htext hdone]
  exact (silent_of_isSequence hsequence).isWhole_of_part hpart

/-- **What remains of reads that end between characters** is what remains of their bytes. -/
theorem run_clean_of_endsBetween (h : ∀ i < reads.length, EndsBetween (reads.take i).flatten) :
    run clean .start reads = run step .start reads.flatten :=
  run_clean_of_isWhole fun i hi => isWhole_of_endsBetween (h i hi)

end MudDialogue.Terminal
