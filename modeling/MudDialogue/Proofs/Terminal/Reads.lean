import Mathlib.Tactic.SplitIfs
import MudDialogue.Proofs.Text.Utf8
import MudDialogue.Terminal

/-!
# Terminal output that comes in several reads

The mode in which one read leaves the output is all that the automaton has to know at the start of
the next one, so where the output is cut should make no difference. It does in two places, both of
them where a read takes up a character that the read before was cut in.

* A control character of two bytes that is cut between them is shown, while the automaton drops it.
* Where the first byte of a read completes a character of two bytes, and the next two bytes are an
  ASCII character and a byte that is none, the ASCII character is swallowed.

Apart from that a read brings what the automaton makes of its bytes, and several reads bring what it
makes of all the bytes that they keep.

## Main definitions

* `Terminal.swallowed`, `Terminal.kept` — the byte that a read loses, and the others.
* `Terminal.raised` — the control character that a read shows.
* `Terminal.heard` — what several reads keep.
* `Terminal.CutsControl` — a control character is cut by the reads.

## Main results

* `Terminal.clean_eq` — one read and the automaton.
* `Terminal.run_clean_eq` — several reads and the automaton.
-/

namespace MudDialogue.Terminal

open Text Text.Utf8 Transducer

/-- The pending bytes, if there are any, are the start of a character. -/
def Mode.IsProper : Mode → Prop
  | .ground (p :: ps) => front p ps = .cut
  | _ => True

/-- The byte that a read loses: the ASCII character behind the byte that completes a character of
two bytes, if the byte after it is not ASCII. -/
def swallowed (mode : Mode) (read : List UInt8) : Option UInt8 :=
  match mode, read with
  | .ground [p], c :: x :: y :: _ => if IsSound [p, c] ∧ x < 0x80 ∧ 0x80 ≤ y then some x else none
  | _, _ => none

/-- The bytes of a read that are not lost. -/
def kept (mode : Mode) (read : List UInt8) : List UInt8 :=
  if (swallowed mode read).isSome then read.eraseIdx 1 else read

/-- The control character that a read shows because the read before was cut in it. -/
def raised (mode : Mode) (read : List UInt8) : List UInt8 :=
  match mode, read with
  | .ground pending, c :: _ =>
    if pending = [0xC2] ∧ 0x80 ≤ c ∧ c < 0xA0 then [0xC2, c] else []
  | _, _ => []

variable {mode : Mode} {p b : UInt8} {ps rest : List UInt8} {c : Char} {w : Nat}

/-! ### Modes -/

theorem pending_of_groundStep (h : (groundStep b).1 = .ground (p :: ps)) :
    front p ps = .cut ∧ (p :: ps).getLast? = some b := by
  unfold groundStep at h
  split_ifs at h
  cases hb : front b [] with
  | scalar c w => simp [hb, Mode.start] at h
  | invalid w => simp [hb, Mode.start] at h
  | cut =>
    simp only [hb, Mode.ground.injEq, List.cons.injEq] at h
    obtain ⟨rfl, rfl⟩ := h
    exact ⟨hb, rfl⟩

theorem pending_of_pendingStep {q : UInt8} {qs : List UInt8}
    (h : (pendingStep q qs b).1 = .ground (p :: ps)) :
    front p ps = .cut ∧ (p :: ps).getLast? = some b := by
  unfold pendingStep at h
  cases hb : front q (qs ++ [b]) with
  | scalar c w => simp [hb, Mode.start] at h
  | invalid w =>
    rw [hb] at h
    exact pending_of_groundStep h
  | cut =>
    simp only [hb, Mode.ground.injEq, List.cons_append, List.cons.injEq] at h
    obtain ⟨rfl, rfl⟩ := h
    rw [← List.cons_append]
    exact ⟨hb, List.getLast?_concat⟩

theorem interrupt_ne_pending : interrupt? b ≠ some (.ground (p :: ps)) := by
  unfold interrupt?
  split_ifs <;> simp [Mode.start]

theorem next_ne_pending (hmode : ∀ pending, mode ≠ .ground pending) :
    mode.next b ≠ .ground (p :: ps) := by
  cases mode with
  | ground pending => exact absurd rfl (hmode pending)
  | deviceIgnored => exact Mode.noConfusion
  | characterString => exact Mode.noConfusion
  | _ =>
    simp only [Mode.next]
    split_ifs <;> simp [Mode.start]

/-- **What is pending after a byte** is the start of a character, and the byte is its last one. -/
theorem pending_of_step (h : (step mode b).1 = .ground (p :: ps)) :
    front p ps = .cut ∧ (p :: ps).getLast? = some b := by
  unfold step at h
  split at h
  · exact pending_of_groundStep h
  · exact pending_of_pendingStep h
  · rename_i hstart hpending
    have hmode (pending : List UInt8) : mode ≠ .ground pending := by
      rintro rfl
      cases pending with
      | nil => exact hstart rfl
      | cons q qs => exact hpending q qs rfl
    cases hnext : interrupt? b with
    | some next =>
      rw [hnext] at h
      exact absurd (hnext.trans (congrArg some h)) interrupt_ne_pending
    | none =>
      rw [hnext] at h
      exact absurd h (next_ne_pending hmode)

theorem pending_of_run {bytes : List UInt8} (hbytes : bytes ≠ [])
    (h : (run step mode bytes).1 = .ground (p :: ps)) :
    front p ps = .cut ∧ (p :: ps).getLast? = bytes.getLast? := by
  obtain ⟨before, b, rfl⟩ : ∃ before b, bytes = before ++ [b] :=
    ⟨_, _, (List.dropLast_concat_getLast hbytes).symm⟩
  rw [run_append, run_singleton] at h
  rw [List.getLast?_concat]
  exact pending_of_step h

theorem isProper_run (hmode : mode.IsProper) (bytes : List UInt8) :
    (run step mode bytes).1.IsProper := by
  by_cases hbytes : bytes = []
  · rw [hbytes]
    exact hmode
  · cases h : (run step mode bytes).1 with
    | ground pending =>
      cases pending with
      | nil => trivial
      | cons p ps => exact (pending_of_run hbytes h).1
    | _ => trivial

/-! ### Taking up a character -/

/-- How far the look at four bytes goes beyond a character that is completed: not at all if the
bytes ahead are sound, and otherwise to the first one that is not. -/
def beyond (ahead : List UInt8) : Nat :=
  if soundLength ahead = ahead.length then 0 else soundLength ahead

theorem beyond_singleton (x : UInt8) : beyond [x] = 0 := by
  rw [beyond, soundLength_singleton]
  split_ifs with h₁ h₂
  · rfl
  · exact absurd rfl h₂
  · rfl
  · rfl

theorem beyond_pair (x y : UInt8) : beyond [x, y] = if x < 0x80 ∧ 0x80 ≤ y then 1 else 0 := by
  by_cases hx : x < 0x80
  · have hsound := soundLength_pair_of_ascii hx y
    rw [soundLength_singleton] at hsound
    rw [beyond, hsound]
    by_cases hy : y < 0x80
    · have hxy : ¬ (x < 0x80 ∧ 0x80 ≤ y) := fun h => UInt8.not_lt.mpr h.2 hy
      rw [if_pos hy, if_neg hxy]
      rfl
    · rw [if_neg hy, if_pos (And.intro hx (UInt8.not_lt.mp hy))]
      rfl
  · have hxy : ¬ (x < 0x80 ∧ 0x80 ≤ y) := fun h => hx h.1
    rw [beyond, if_neg hxy]
    rcases soundLength_pair hx y with h | h <;> rw [h] <;> rfl

/-- After the start of a character the automaton goes on with the character. -/
@[simp] theorem step_pending (p : UInt8) (ps : List UInt8) (b : UInt8) :
    step (.ground (p :: ps)) b = pendingStep p ps b := rfl

section Resume

variable (hcut : front p ps = .cut)

/-- A character that is not complete after one more byte is taken up as if that byte had come
before. -/
theorem resume_of_cut (hb : front p (ps ++ [b]) = .cut) (rest : List UInt8) :
    resume (.ground (p :: ps)) (b :: rest) = resume (.ground (p :: (ps ++ [b]))) rest := by
  have hlength : (ps ++ [b]).length = ps.length + 1 := List.length_append
  have hle : (ps ++ [b]).length ≤ 2 := length_le_of_cut hb
  have hdrop {k : Nat} (hk : ps.length + 1 < k) :
      (b :: rest).drop (k - (ps.length + 1)) = rest.drop (k - (ps.length + 1 + 1)) := by
    have hsucc : k - (ps.length + 1) = k - (ps.length + 1 + 1) + 1 := by omega
    rw [hsucc, List.drop_succ_cons]
  have hwindow : ps ++ (b :: rest).take (4 - (ps.length + 1)) =
      (ps ++ [b]) ++ rest.take (4 - (ps.length + 1 + 1)) := by
    have htake : 4 - (ps.length + 1) = 4 - (ps.length + 1 + 1) + 1 := by omega
    rw [htake, List.take_succ_cons, List.append_cons]
  simp only [resume, hwindow, hlength]
  cases hfront : front p ((ps ++ [b]) ++ rest.take (4 - (ps.length + 1 + 1))) with
  | scalar c w =>
    have hw : ps.length + 1 + 1 < w := hlength ▸ lt_width_of_cut hb hfront
    have hsound := soundLength_of_scalar hfront
    refine congrArg (Mode.start, _, ·) (hdrop ?_)
    split_ifs
    · omega
    · omega
  | invalid w =>
    have hw : ps.length + 1 + 1 ≤ w := hlength ▸ le_width_of_cut hb hfront
    exact congrArg (Mode.start, replacementBytes, ·) (hdrop hw)
  | cut => exact congrArg (Mode.ground _, [], ·) (hdrop (by omega))

include hcut

/-- A byte that is no part of the character is read as if nothing had come before. -/
theorem resume_of_invalid (hb : front p (ps ++ [b]) = .invalid w) (rest : List UInt8) :
    resume (.ground (p :: ps)) (b :: rest) = (.start, replacementBytes, b :: rest) := by
  have hw : w = ps.length + 1 := front_concat_of_invalid hcut hb
  have htake : 4 - (ps.length + 1) = 2 - ps.length + 1 := by
    have := length_le_of_cut hcut
    omega
  have hfront : front p (ps ++ b :: rest.take (2 - ps.length)) = .invalid w := by
    rw [List.append_cons, front_append (hb ▸ Front.noConfusion), hb]
  simp only [resume, htake, List.take_succ_cons, hfront, hw, Nat.sub_self, List.drop_zero]

/-- What the look ahead drops of the bytes behind a character is the byte that is lost. -/
theorem drop_beyond (hb : front p (ps ++ [b]) = .scalar c w) (rest : List UInt8) :
    rest.drop (beyond (rest.take (2 - ps.length))) =
      (kept (.ground (p :: ps)) (b :: rest)).tail := by
  -- four bytes reach beyond the character by two, one or none, as it has two, three or four
  match ps, rest with
  | [], [] => rfl
  | [], [x] =>
    change [x].drop (beyond [x]) = [x]
    rw [beyond_singleton, List.drop_zero]
  | [], x :: y :: rest =>
    have hpair : IsSound [p, b] := by
      obtain ⟨rfl, -, -⟩ := front_concat_of_scalar hcut hb
      exact soundLength_of_scalar hb
    change (x :: y :: rest).drop (beyond [x, y]) = _
    simp only [beyond_pair, kept, swallowed, hpair, true_and]
    by_cases hxy : x < 0x80 ∧ 0x80 ≤ y
    · simp only [if_pos hxy]
      rfl
    · simp only [if_neg hxy]
      rfl
  | [_], [] => rfl
  | [_], x :: rest =>
    change (x :: rest).drop (beyond [x]) = x :: rest
    rw [beyond_singleton, List.drop_zero]
  | _ :: _ :: ps, rest =>
    have hnone : 2 - (ps.length + 1 + 1) = 0 := by omega
    rw [List.length_cons, List.length_cons, hnone]
    rfl

/-- The byte that completes the character is taken, and the rest of the read remains but for the
byte that is lost. -/
theorem resume_of_scalar (hb : front p (ps ++ [b]) = .scalar c w) (rest : List UInt8) :
    resume (.ground (p :: ps)) (b :: rest) =
      (.start, p :: ps ++ [b], (kept (.ground (p :: ps)) (b :: rest)).tail) := by
  obtain ⟨rfl, -, -⟩ := front_concat_of_scalar hcut hb
  have htake : 4 - (ps.length + 1) = 2 - ps.length + 1 := by
    have := length_le_of_cut hcut
    omega
  obtain ⟨ahead, hahead⟩ : ∃ ahead, rest.take (2 - ps.length) = ahead := ⟨_, rfl⟩
  have hwindow : ps ++ b :: ahead = (ps ++ [b]) ++ ahead := List.append_cons ps b ahead
  have hlast : (ps ++ [b]).length = ps.length + 1 := List.length_append
  have hfront : front p (ps ++ b :: ahead) = .scalar c (ps.length + 2) := by
    rw [hwindow, front_append (hb ▸ Front.noConfusion), hb]
  have hlength : (p :: (ps ++ b :: ahead)).length = ps.length + 2 + ahead.length := by
    rw [List.length_cons, List.length_append, List.length_cons]
    omega
  have hsound : soundLength (p :: (ps ++ b :: ahead)) = ps.length + 2 + soundLength ahead := by
    rw [soundLength_of_scalar hfront, hwindow]
    exact congrArg (ps.length + 2 + soundLength ·) (List.drop_left' hlast)
  have htaken : (if IsSound (p :: (ps ++ b :: ahead)) then ps.length + 2
      else soundLength (p :: (ps ++ b :: ahead))) - (ps.length + 1) = beyond ahead + 1 := by
    have hwhole : IsSound (p :: (ps ++ b :: ahead)) ↔ soundLength ahead = ahead.length := by
      rw [IsSound, hsound, hlength, Nat.add_left_cancel_iff]
    rw [beyond, hsound]
    by_cases hs : soundLength ahead = ahead.length
    · rw [if_pos hs, if_pos (hwhole.mpr hs)]
      omega
    · rw [if_neg hs, if_neg (mt hwhole.mp hs)]
      omega
  have hfirst : (p :: (ps ++ b :: ahead)).take (ps.length + 2) = p :: ps ++ [b] := by
    rw [hwindow, List.take_succ_cons, List.take_left' hlast]
    rfl
  rw [← drop_beyond hcut hb]
  simp only [resume, htake, List.take_succ_cons, hahead, hfront, htaken, hfirst,
    List.drop_succ_cons]

end Resume

/-! ### One read -/

@[simp] theorem kept_nil (mode : Mode) : kept mode [] = [] := by
  unfold kept
  split_ifs <;> rfl

@[simp] theorem raised_nil (mode : Mode) : raised mode [] = [] := by
  cases mode <;> rfl

/-- The first byte of a read is never lost. -/
theorem kept_cons (mode : Mode) (b : UInt8) (rest : List UInt8) :
    kept mode (b :: rest) = b :: (kept mode (b :: rest)).tail := by
  unfold kept
  split_ifs
  · cases rest <;> rfl
  · rfl

/-- Nothing is lost behind a byte that completes no character. -/
theorem kept_of_not_scalar (hcut : front p ps = .cut)
    (hb : ∀ c w, front p (ps ++ [b]) ≠ .scalar c w) (rest : List UInt8) :
    kept (.ground (p :: ps)) (b :: rest) = b :: rest := by
  match ps, rest with
  | [], [] => rfl
  | [], [_] => rfl
  | [], x :: y :: rest =>
    have hpair : ¬ IsSound [p, b] := by
      intro hsound
      rw [IsSound, soundLength_cons] at hsound
      cases hfront : front p [b] with
      | scalar c w => exact hb c w hfront
      | invalid w => simp [hfront] at hsound
      | cut => simp [hfront] at hsound
    simp [kept, swallowed, hpair]
  | _ :: _, _ => rfl

/-- A character of several bytes is shown unless it is a control character. -/
theorem shown_of_le (h : 0x80 ≤ c.toNat) (encoded : List UInt8) :
    shown c encoded = if c.toNat < 0xA0 then [] else encoded := by
  have hval : c.val.toNat = c.toNat := rfl
  simp only [shown, UInt32.lt_iff_toNat_lt, UInt32.le_iff_toNat_le, hval]
  rw [if_neg (by simp; omega)]
  simp [h]

theorem front_control (b : UInt8) : front 0xC2 [b] =
    if 0x80 ≤ b ∧ b ≤ 0xBF then .scalar (Char.ofNat (64 * 2 + (b.toNat - 0x80))) 2
    else .invalid 1 := rfl

/-- After 0xC2 a byte is its own number. -/
theorem toNat_of_front_control (hb : front 0xC2 [b] = .scalar c w) :
    0x80 ≤ b ∧ c.toNat = b.toNat := by
  rw [front_control] at hb
  split_ifs at hb with hrange
  have hlow : 0x80 ≤ b.toNat := hrange.1
  have hhigh : b.toNat ≤ 0xBF := hrange.2
  have hcode : 64 * 2 + (b.toNat - 0x80) = b.toNat := by omega
  rw [hcode] at hb
  obtain ⟨rfl, -⟩ := Front.scalar.inj hb
  exact ⟨hrange.1, toNat_ofNat (.inl (by omega))⟩

/-- The control characters of two bytes are those that start with 0xC2. -/
theorem isControl_iff (hcut : front p ps = .cut) (hb : front p (ps ++ [b]) = .scalar c w) :
    c.toNat < 0xA0 ↔ p :: ps = [0xC2] ∧ 0x80 ≤ b ∧ b < 0xA0 := by
  constructor
  · intro hcontrol
    obtain ⟨-, -, hfirst⟩ := front_concat_of_scalar hcut hb
    obtain rfl : p = 0xC2 := hfirst hcontrol
    obtain ⟨l, hl, hlength⟩ := exists_lead_of_cut hcut
    have howed : l.owed = 0 := (Lead.fits_of_of? hl).two_bytes.mpr (by decide)
    obtain rfl : ps = [] := List.eq_nil_of_length_eq_zero (Nat.le_zero.mp (howed ▸ hlength))
    obtain ⟨hlow, hcode⟩ := toNat_of_front_control hb
    exact ⟨rfl, hlow, UInt8.lt_iff_toNat_lt.mpr (hcode ▸ hcontrol)⟩
  · rintro ⟨hpending, -, hhigh⟩
    obtain ⟨rfl, rfl⟩ := List.cons.inj hpending
    obtain ⟨-, hcode⟩ := toNat_of_front_control hb
    rw [hcode]
    exact hhigh

/-- A character that is completed is shown: by the automaton, or as a control character. -/
theorem raised_append_shown (hcut : front p ps = .cut) (hb : front p (ps ++ [b]) = .scalar c w)
    (rest : List UInt8) :
    raised (.ground (p :: ps)) (b :: rest) ++ shown c (p :: ps ++ [b]) = p :: ps ++ [b] := by
  obtain ⟨-, hle, -⟩ := front_concat_of_scalar hcut hb
  have hiff := isControl_iff hcut hb
  rw [shown_of_le hle, raised]
  by_cases hcontrol : c.toNat < 0xA0
  · rw [if_pos hcontrol, if_pos (hiff.mp hcontrol), (hiff.mp hcontrol).1]
    rfl
  · rw [if_neg hcontrol, if_neg (mt hiff.mpr hcontrol)]
    rfl

theorem raised_of_not_scalar (hb : ∀ c w, front p (ps ++ [b]) ≠ .scalar c w) (rest : List UInt8) :
    raised (.ground (p :: ps)) (b :: rest) = [] := by
  refine if_neg fun ⟨hpending, hlow, hhigh⟩ => ?_
  obtain ⟨rfl, rfl⟩ := List.cons.inj hpending
  have hb' : b ≤ 0xBF := UInt8.le_of_lt (UInt8.lt_trans hhigh (by decide))
  exact hb _ _ ((front_control b).trans (if_pos ⟨hlow, hb'⟩))

/-- What no character comes of is shown as damage: the bytes before start a character of several
bytes, so they are not taken for a control character. -/
theorem shownInvalid_of_cut (hcut : front p ps = .cut) :
    shownInvalid (p :: ps) = replacementBytes := by
  cases ps with
  | nil =>
    obtain ⟨l, hl, -⟩ := exists_lead_of_cut hcut
    have hbyte : 0xC2 ≤ p := (Lead.fits_of_of? hl).le_byte
    exact if_neg fun h => absurd (UInt8.lt_of_le_of_lt hbyte h.2) (by decide)
  | cons q ps => rfl

/-- Nothing is lost, and no control character is shown, behind more than one byte of a character. -/
theorem kept_and_raised_of_two (p q : UInt8) (qs read : List UInt8) :
    kept (.ground (p :: q :: qs)) read = read ∧ raised (.ground (p :: q :: qs)) read = [] := by
  cases read with
  | nil => exact ⟨rfl, rfl⟩
  | cons b rest => exact ⟨rfl, if_neg fun h => nomatch h.1⟩

theorem clean_pending (hcut : front p ps = .cut) (read : List UInt8) :
    clean (.ground (p :: ps)) read =
      ((run step (.ground (p :: ps)) (kept (.ground (p :: ps)) read)).1,
        raised (.ground (p :: ps)) read ++
          (run step (.ground (p :: ps)) (kept (.ground (p :: ps)) read)).2) := by
  -- the start of the character grows by a byte in each step until it is completed or broken off
  induction read generalizing ps with
  | nil =>
    have hwindow : ps ++ [] = ps := List.append_nil ps
    simp [clean, resume, hwindow, hcut]
  | cons b rest ih =>
    cases hb : front p (ps ++ [b]) with
    | scalar c w =>
      have hshown := raised_append_shown hcut hb rest
      rw [kept_cons, run_cons, step_pending, pendingStep, hb]
      simp only [clean, resume_of_scalar hcut hb]
      rw [← List.append_assoc, hshown]
    | invalid w =>
      have hnone (c : Char) (w : Nat) : front p (ps ++ [b]) ≠ .scalar c w := by
        rw [hb]
        exact Front.noConfusion
      rw [kept_of_not_scalar hcut hnone, raised_of_not_scalar hnone, run_cons, step_pending,
        pendingStep, hb]
      simp only [clean, resume_of_invalid hcut hb, run_cons, shownInvalid_of_cut hcut,
        List.append_assoc, List.nil_append]
      rfl
    | cut =>
      have hnone (c : Char) (w : Nat) : front p (ps ++ [b]) ≠ .scalar c w := by
        rw [hb]
        exact Front.noConfusion
      obtain ⟨q, qs, hq⟩ : ∃ q qs, ps ++ [b] = q :: qs :=
        List.exists_cons_of_ne_nil (List.append_ne_nil_of_right_ne_nil ps (List.cons_ne_nil b []))
      obtain ⟨hkept, hraised⟩ := kept_and_raised_of_two p q qs rest
      have hclean : clean (.ground (p :: ps)) (b :: rest) =
          clean (.ground (p :: (ps ++ [b]))) rest := by
        simp only [clean, resume_of_cut hb]
      have hstep : step (.ground (p :: ps)) b = (.ground (p :: q :: qs), []) := by
        rw [step_pending, pendingStep, hb, List.cons_append, hq]
      rw [hclean, ih hb, kept_of_not_scalar hcut hnone, raised_of_not_scalar hnone, run_cons,
        hstep, hq, hkept, hraised]
      rfl

/-- **One read and the automaton.** Beside the control character that it may show, a read brings
what the automaton makes of the bytes that it keeps. -/
theorem clean_eq (hmode : mode.IsProper) (read : List UInt8) :
    clean mode read = ((run step mode (kept mode read)).1,
      raised mode read ++ (run step mode (kept mode read)).2) := by
  cases mode with
  | ground pending =>
    cases pending with
    | nil =>
      have hraised : raised (.ground []) read = [] := by cases read <;> rfl
      rw [hraised]
      rfl
    | cons p ps => exact clean_pending hmode read
  | _ => rfl

theorem isProper_clean (hmode : mode.IsProper) (read : List UInt8) :
    (clean mode read).1.IsProper := by
  rw [clean_eq hmode]
  exact isProper_run hmode _

/-- The last byte of a read is never lost. -/
theorem getLast?_kept (mode : Mode) (read : List UInt8) :
    (kept mode read).getLast? = read.getLast? := by
  unfold kept swallowed
  split
  · split_ifs
    · rw [List.eraseIdx_cons_succ, List.eraseIdx_cons_zero, List.getLast?_cons_cons,
        List.getLast?_cons_cons, List.getLast?_cons_cons]
    all_goals rfl
  · rfl

/-- What is pending after a read ends with the last byte of the read. -/
theorem pending_of_clean (hmode : mode.IsProper) {read : List UInt8} (hread : read ≠ [])
    (h : (clean mode read).1 = .ground (p :: ps)) : (p :: ps).getLast? = read.getLast? := by
  rw [clean_eq hmode] at h
  have hkept : kept mode read ≠ [] := by
    obtain ⟨b, rest, rfl⟩ := List.exists_cons_of_ne_nil hread
    rw [kept_cons]
    exact List.cons_ne_nil _ _
  rw [(pending_of_run hkept h).2, getLast?_kept]

/-! ### Several reads -/

/-- What the reads keep, when each takes up the output where the one before has left it. -/
def heard (mode : Mode) : List (List UInt8) → List UInt8
  | [] => []
  | read :: reads => kept mode read ++ heard (clean mode read).1 reads

/-- The reads part the byte 0xC2 from a byte between 0x80 and 0x9F behind it, which are a control
character together. -/
def CutsControl (reads : List (List UInt8)) : Prop :=
  ∃ i < reads.length, (reads.take i).flatten.getLast? = some 0xC2 ∧
    ∃ c ∈ (reads.drop i).flatten.head?, 0x80 ≤ c ∧ c < 0xA0

instance (reads : List (List UInt8)) : Decidable (CutsControl reads) :=
  inferInstanceAs (Decidable (∃ i < reads.length, (reads.take i).flatten.getLast? = some 0xC2 ∧
    ∃ c ∈ (reads.drop i).flatten.head?, 0x80 ≤ c ∧ c < 0xA0))

variable {reads : List (List UInt8)} {read : List UInt8}

theorem CutsControl.cons (h : CutsControl reads) (read : List UInt8) :
    CutsControl (read :: reads) := by
  obtain ⟨i, hi, hlast, hnext⟩ := h
  refine ⟨i + 1, Nat.succ_lt_succ hi, ?_, hnext⟩
  rw [List.take_succ_cons, List.flatten_cons, List.getLast?_append, hlast]
  rfl

/-- No control character is shown at the start of the bytes behind a read if none is cut there. -/
theorem raised_flatten (hmode : mode.IsProper) (hread : read ≠ [])
    (hcontrol : ¬ CutsControl (read :: reads)) : raised (clean mode read).1 reads.flatten = [] := by
  cases hnext : (clean mode read).1 with
  | ground pending =>
    cases hflat : reads.flatten with
    | nil => exact raised_nil _
    | cons c rest =>
      refine if_neg fun ⟨hpending, hc⟩ => hcontrol ⟨1, ?_, ?_, c, ?_, hc⟩
      · have hreads : reads ≠ [] := by
          rintro rfl
          cases hflat
        exact Nat.succ_lt_succ (List.length_pos_iff.mpr hreads)
      · rw [hpending] at hnext
        rw [List.take_succ_cons, List.take_zero, List.flatten_singleton]
        exact (pending_of_clean hmode hread hnext).symm
      · rw [List.drop_succ_cons, List.drop_zero, hflat]
        rfl
  | _ => rfl

/-- Only the first byte decides whether a control character is shown. -/
theorem raised_append (mode : Mode) (hread : read ≠ []) (more : List UInt8) :
    raised mode (read ++ more) = raised mode read := by
  obtain ⟨b, rest, rfl⟩ := List.exists_cons_of_ne_nil hread
  cases mode <;> rfl

/-- **Several reads and the automaton.** If the reads cut no control character, they bring what the
automaton makes of the bytes that they keep. A control character can be shown only at the start,
where the output before was cut in it. -/
theorem run_clean_eq (hmode : mode.IsProper) (hcontrol : ¬ CutsControl reads) :
    run clean mode reads = ((run step mode (heard mode reads)).1,
      raised mode reads.flatten ++ (run step mode (heard mode reads)).2) := by
  induction reads generalizing mode with
  | nil => simp [heard]
  | cons read reads ih =>
    have hrest := ih (isProper_clean hmode read) (mt (CutsControl.cons · read) hcontrol)
    by_cases hread : read = []
    · have hnothing : clean mode read = (mode, []) := by
        rw [hread, clean_eq hmode, kept_nil, raised_nil]
        rfl
      rw [hnothing] at hrest
      rw [run_cons, heard, hnothing, hrest, hread, kept_nil]
      rfl
    · have hraised := raised_flatten hmode hread hcontrol
      have hclean := clean_eq hmode read
      rw [hraised] at hrest
      rw [run_cons, hrest, heard, run_append, List.flatten_cons, raised_append mode hread, hclean]
      simp only [List.nil_append, List.append_assoc]

/-- The reads bring what one read of everything brings if they keep the same bytes. -/
theorem run_clean_eq_clean (hmode : mode.IsProper) (hcontrol : ¬ CutsControl reads)
    (hheard : heard mode reads = kept mode reads.flatten) :
    run clean mode reads = clean mode reads.flatten := by
  rw [run_clean_eq hmode hcontrol, hheard, clean_eq hmode]

end MudDialogue.Terminal
