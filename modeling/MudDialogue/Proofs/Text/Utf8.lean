import Mathlib.Algebra.Group.Nat.Defs
import Mathlib.Tactic.SplitIfs
import MudDialogue.Text.Utf8

/-!
# Characters byte by byte

What can be said of the bytes of a text, and how reading the character at the front of a byte string
depends on the bytes behind it. Once the character is read, or found not to be one, further bytes
make no difference; until then every byte is part of it.

## Main results

* `Text.Utf8.lt_of_mem_bytes` — the bytes of a text are below 248.
* `Text.Utf8.front_append`, `Text.Utf8.front_of_append` — bytes behind a character make no
  difference.
* `Text.Utf8.front_concat_of_scalar`, `Text.Utf8.front_concat_of_invalid` — one more byte after the
  start of a character.
-/

namespace MudDialogue.Text.Utf8

theorem lt_of_mem_utf8EncodeChar {c : Char} {b : UInt8} (hb : b ∈ String.utf8EncodeChar c) :
    b < 0xF8 := by
  have small {n : Nat} (h : n < 0xF8) : UInt8.ofNat n < 0xF8 := by
    rw [UInt8.lt_iff_toNat_lt, UInt8.toNat_ofNat_of_lt' (Nat.lt_trans h (by decide))]
    exact h
  unfold String.utf8EncodeChar at hb
  extract_lets v at hb
  split_ifs at hb <;> simp only [List.mem_cons, List.not_mem_nil, or_false] at hb
  · subst hb
    exact small (by omega)
  · rcases hb with rfl | rfl <;> exact small (by omega)
  · rcases hb with rfl | rfl | rfl <;> exact small (by omega)
  · rcases hb with rfl | rfl | rfl | rfl <;> exact small (by omega)

/-- **The bytes of a text are below 248.** -/
theorem lt_of_mem_bytes {s : String} {b : UInt8} (hb : b ∈ bytes s) : b < 0xF8 := by
  obtain ⟨c, -, hc⟩ := List.mem_flatMap.mp hb
  exact lt_of_mem_utf8EncodeChar hc

/-! ### Continuation bytes -/

section Continuation

variable {owed : Nat} {low high : UInt8} {code width : Nat} {bytes : List UInt8}

theorem continuation_append (h : continuation owed low high code width bytes ≠ .cut)
    (more : List UInt8) : continuation owed low high code width (bytes ++ more) =
      continuation owed low high code width bytes := by
  induction owed generalizing low high code width bytes with
  | zero => rfl
  | succ owed ih =>
    cases bytes with
    | nil => exact absurd rfl h
    | cons b bytes =>
      simp only [continuation, List.cons_append] at h ⊢
      split_ifs at h ⊢ with hb
      · exact ih h
      · rfl

theorem length_lt_of_continuation_cut (h : continuation owed low high code width bytes = .cut) :
    bytes.length < owed := by
  induction owed generalizing low high code width bytes with
  | zero => cases h
  | succ owed ih =>
    cases bytes with
    | nil => exact Nat.succ_pos _
    | cons b bytes =>
      simp only [continuation] at h
      split_ifs at h with hb
      exact Nat.succ_lt_succ (ih h)

/-- The bytes of a character that is not complete are no ASCII characters, but for its first one. -/
theorem le_of_continuation_cut (hlow : 0x80 ≤ low)
    (h : continuation owed low high code width bytes = .cut) : ∀ x ∈ bytes, 0x80 ≤ x := by
  induction owed generalizing low high code width bytes with
  | zero => cases h
  | succ owed ih =>
    cases bytes with
    | nil => exact fun x hx => absurd hx List.not_mem_nil
    | cons b bytes =>
      simp only [continuation] at h
      split_ifs at h with hb
      exact List.forall_mem_cons.mpr ⟨UInt8.le_trans hlow hb.1, ih (UInt8.le_refl _) h⟩

/-- Nor are those of a complete one. -/
theorem le_of_continuation_scalar {c : Char} {w : Nat} (hlow : 0x80 ≤ low)
    (h : continuation owed low high code width bytes = .scalar c w) :
    ∀ x ∈ bytes.take owed, 0x80 ≤ x := by
  induction owed generalizing low high code width bytes with
  | zero => exact fun x hx => absurd hx List.not_mem_nil
  | succ owed ih =>
    cases bytes with
    | nil => cases h
    | cons b bytes =>
      simp only [continuation] at h
      split_ifs at h with hb
      exact List.forall_mem_cons.mpr ⟨UInt8.le_trans hlow hb.1, ih (UInt8.le_refl _) h⟩

/-- A byte that does not go on with a character is not counted. -/
theorem continuation_concat_of_invalid (h : continuation owed low high code width bytes = .cut)
    {b : UInt8} {w : Nat} (hb : continuation owed low high code width (bytes ++ [b]) = .invalid w) :
    w = width + bytes.length := by
  induction owed generalizing low high code width bytes with
  | zero => cases h
  | succ owed ih =>
    cases bytes with
    | nil =>
      simp only [continuation, List.nil_append] at hb
      split_ifs at hb with hrange
      · cases owed <;> cases hb
      · cases hb
        rfl
    | cons c bytes =>
      simp only [continuation, List.cons_append] at h hb
      split_ifs at h hb with hc
      rw [ih h hb, List.length_cons]
      omega

/-- The bounds of a character's number. -/
theorem continuation_code {c : Char} {w : Nat} (hlow : 0x80 ≤ low)
    (h : continuation (owed + 1) low high code width bytes = .scalar c w) :
    ∃ n, c = Char.ofNat n ∧ (64 * code + (low.toNat - 0x80)) * 64 ^ owed ≤ n ∧
      n < (64 * code + (high.toNat - 0x80) + 1) * 64 ^ owed := by
  induction owed generalizing low high code width bytes with
  | zero =>
    cases bytes with
    | nil => cases h
    | cons b bytes =>
      simp only [continuation] at h
      split_ifs at h with hb
      have h₁ : low.toNat ≤ b.toNat := hb.1
      have h₂ : b.toNat ≤ high.toNat := hb.2
      exact ⟨_, (Front.scalar.inj h).1.symm, by omega, by omega⟩
  | succ owed ih =>
    cases bytes with
    | nil => cases h
    | cons b bytes =>
      rw [continuation] at h
      split_ifs at h with hb
      have h₀ : 0x80 ≤ low.toNat := hlow
      have h₁ : low.toNat ≤ b.toNat := hb.1
      have h₂ : b.toNat ≤ high.toNat := hb.2
      obtain ⟨n, hn, hleast, hmost⟩ := ih (Nat.le_refl _) h
      have hlast : (0xBF : UInt8).toNat = 0xBF := by decide
      rw [hlast] at hmost
      refine ⟨n, hn, ?_, ?_⟩
      · calc (64 * code + (low.toNat - 0x80)) * 64 ^ (owed + 1)
            = 64 * (64 * code + (low.toNat - 0x80)) * 64 ^ owed := by
              rw [Nat.pow_succ, Nat.mul_comm _ 64, Nat.mul_left_comm, Nat.mul_assoc]
          _ ≤ (64 * (64 * code + (b.toNat - 0x80)) + (0x80 - 0x80)) * 64 ^ owed :=
              Nat.mul_le_mul_right _ (by omega)
          _ ≤ n := hleast
      · calc n < (64 * (64 * code + (b.toNat - 0x80)) + (0xBF - 0x80) + 1) * 64 ^ owed := hmost
          _ ≤ 64 * (64 * code + (high.toNat - 0x80) + 1) * 64 ^ owed :=
              Nat.mul_le_mul_right _ (by omega)
          _ = (64 * code + (high.toNat - 0x80) + 1) * 64 ^ (owed + 1) := by
              rw [Nat.pow_succ, Nat.mul_comm _ 64, Nat.mul_left_comm, Nat.mul_assoc]

end Continuation

/-! ### The front of a byte string -/

/-- What a byte that starts a character of several bytes says of it. -/
structure Lead where
  /-- How many bytes are owed behind the second one. -/
  owed : Nat
  /-- The second byte is at least this. -/
  low : UInt8
  /-- The second byte is at most this. -/
  high : UInt8
  /-- The part of the character's number that the first byte gives. -/
  code : Nat

namespace Lead

/-- The least number of a character with this start. -/
def least (l : Lead) : Nat := (64 * l.code + (l.low.toNat - 0x80)) * 64 ^ l.owed

/-- The first number behind those of the characters with this start. -/
def bound (l : Lead) : Nat := (64 * l.code + (l.high.toNat - 0x80) + 1) * 64 ^ l.owed

/-- What the byte says, if it starts a character of several bytes. -/
def of? (b : UInt8) : Option Lead :=
  if b < 0xC2 then none
  else if b < 0xE0 then some ⟨0, 0x80, 0xBF, b.toNat - 0xC0⟩
  else if b = 0xE0 then some ⟨1, 0xA0, 0xBF, 0⟩
  else if b = 0xED then some ⟨1, 0x80, 0x9F, 0xD⟩
  else if b < 0xF0 then some ⟨1, 0x80, 0xBF, b.toNat - 0xE0⟩
  else if b = 0xF0 then some ⟨2, 0x90, 0xBF, 0⟩
  else if b < 0xF4 then some ⟨2, 0x80, 0xBF, b.toNat - 0xF0⟩
  else if b = 0xF4 then some ⟨2, 0x80, 0x8F, 4⟩
  else none

/-- The numbers of the characters are those of code points, and only after 0xC2 there are control
characters among them. Characters of two bytes start below 0xE0. -/
structure Fits (l : Lead) (b : UInt8) : Prop where
  le_byte : 0xC2 ≤ b
  owed_le : l.owed ≤ 2
  low_le : 0x80 ≤ l.low
  high_le : l.high ≤ 0xBF
  ascii_le : 0x80 ≤ l.least
  isCode : l.bound ≤ 0xD800 ∨ 0xE000 ≤ l.least ∧ l.bound ≤ 0x110000
  control : 0xA0 ≤ l.least ∨ b = 0xC2
  two_bytes : l.owed = 0 ↔ b < 0xE0

instance (l : Lead) (b : UInt8) : Decidable (l.Fits b) :=
  decidable_of_iff (0xC2 ≤ b ∧ l.owed ≤ 2 ∧ 0x80 ≤ l.low ∧ l.high ≤ 0xBF ∧ 0x80 ≤ l.least ∧
    (l.bound ≤ 0xD800 ∨ 0xE000 ≤ l.least ∧ l.bound ≤ 0x110000) ∧ (0xA0 ≤ l.least ∨ b = 0xC2) ∧
    (l.owed = 0 ↔ b < 0xE0))
    ⟨fun ⟨h₁, h₂, h₃, h₄, h₅, h₆, h₇, h₈⟩ => ⟨h₁, h₂, h₃, h₄, h₅, h₆, h₇, h₈⟩,
      fun ⟨h₁, h₂, h₃, h₄, h₅, h₆, h₇, h₈⟩ => ⟨h₁, h₂, h₃, h₄, h₅, h₆, h₇, h₈⟩⟩

theorem fits_of_of? {b : UInt8} {l : Lead} (h : of? b = some l) : l.Fits b := by
  have hall : ∀ n < 256, ∀ l ∈ of? (UInt8.ofNat n), l.Fits (UInt8.ofNat n) := by decide +kernel
  have hb : UInt8.ofNat b.toNat = b := UInt8.ofNat_toNat
  exact hb ▸ hall b.toNat b.toNat_lt l (hb.symm ▸ h)

end Lead

/-- A byte is a character by itself, or it starts one of several bytes, or no character starts with
it. -/
theorem front_eq (b : UInt8) (rest : List UInt8) :
    front b rest = if b < 0x80 then .scalar (Char.ofNat b.toNat) 1
      else match Lead.of? b with
        | some l => continuation (l.owed + 1) l.low l.high l.code 1 rest
        | none => .invalid 1 := by
  unfold front Lead.of?
  split_ifs <;> rfl

theorem front_of_lead {b : UInt8} {l : Lead} (h : Lead.of? b = some l) (rest : List UInt8) :
    front b rest = continuation (l.owed + 1) l.low l.high l.code 1 rest := by
  have hlead : ¬ b < 0x80 := fun hascii =>
    absurd (UInt8.lt_of_le_of_lt (Lead.fits_of_of? h).le_byte hascii) (by decide)
  rw [front_eq, if_neg hlead, h]

theorem toNat_ofNat {n : Nat} (h : n.isValidChar) : (Char.ofNat n).toNat = n := by
  rw [Char.ofNat, dif_pos h]
  rfl

section Front

variable {b p : UInt8} {bytes ps more : List UInt8} {c : Char} {w : Nat}

/-- Once it is known what a byte string starts with, more bytes make no difference. -/
theorem front_append (h : front b bytes ≠ .cut) (more : List UInt8) :
    front b (bytes ++ more) = front b bytes := by
  cases hl : Lead.of? b with
  | some l =>
    rw [front_of_lead hl] at h ⊢
    rw [front_of_lead hl]
    exact continuation_append h more
  | none => rw [front_eq, front_eq, hl]

/-- What may be the start of a character still may be one with fewer bytes. -/
theorem cut_of_append (h : front b (bytes ++ more) = .cut) : front b bytes = .cut :=
  Classical.byContradiction fun hcut => hcut ((front_append hcut more).symm.trans h)

/-- A part of a character may be the start of one. -/
theorem cut_of_lt_width (h : front b (bytes ++ more) = .scalar c w) (hw : bytes.length + 1 < w) :
    front b bytes = .cut := by
  refine Classical.byContradiction fun hcut => ?_
  rw [front_append hcut] at h
  exact absurd (front_width h).2.2 (Nat.not_le_of_lt hw)

/-- The start of a character is not longer than its first byte allows. -/
theorem exists_lead_of_cut (h : front p ps = .cut) :
    ∃ l, Lead.of? p = some l ∧ ps.length ≤ l.owed := by
  cases hl : Lead.of? p with
  | some l =>
    rw [front_of_lead hl] at h
    exact ⟨l, rfl, Nat.le_of_lt_succ (length_lt_of_continuation_cut h)⟩
  | none =>
    rw [front_eq, hl] at h
    split_ifs at h

theorem length_le_of_cut (h : front p ps = .cut) : ps.length ≤ 2 := by
  obtain ⟨l, hl, hlength⟩ := exists_lead_of_cut h
  exact Nat.le_trans hlength (Lead.fits_of_of? hl).owed_le

/-- The bytes behind the first one of a character are no ASCII characters. -/
theorem le_of_front_cut (h : front p ps = .cut) : ∀ x ∈ ps, 0x80 ≤ x := by
  obtain ⟨l, hl, -⟩ := exists_lead_of_cut h
  rw [front_of_lead hl] at h
  exact le_of_continuation_cut (Lead.fits_of_of? hl).low_le h

theorem le_of_front_scalar (h : front b bytes = .scalar c w) :
    ∀ x ∈ bytes.take (w - 1), 0x80 ≤ x := by
  rw [front_eq] at h
  split_ifs at h with hascii
  · obtain rfl := (Front.scalar.inj h).2
    exact fun x hx => absurd hx List.not_mem_nil
  · cases hl : Lead.of? b with
    | none =>
      rw [hl] at h
      cases h
    | some l =>
      rw [hl] at h
      have hwidth : w - 1 = l.owed + 1 := by
        have := (continuation_width h).1
        omega
      rw [hwidth]
      exact le_of_continuation_scalar (Lead.fits_of_of? hl).low_le h

/-- A character lies within its bytes. -/
theorem front_of_append (h : front b (bytes ++ more) = .scalar c w) (hw : w ≤ bytes.length + 1) :
    front b bytes = .scalar c w := by
  by_cases hcut : front b bytes = .cut
  · obtain ⟨l, hl, hlength⟩ := exists_lead_of_cut hcut
    rw [front_of_lead hl] at h
    have hwidth : w = 1 + (l.owed + 1) := (continuation_width h).1
    omega
  · rw [← front_append hcut more, h]

/-- The byte that completes a character of several bytes is its last one. The character is no
control character, except perhaps after 0xC2. -/
theorem front_concat_of_scalar (hcut : front p ps = .cut) (h : front p (ps ++ [b]) = .scalar c w) :
    w = ps.length + 2 ∧ 0x80 ≤ c.toNat ∧ (c.toNat < 0xA0 → p = 0xC2) := by
  obtain ⟨l, hl, hlength⟩ := exists_lead_of_cut hcut
  have hfits : l.Fits p := Lead.fits_of_of? hl
  rw [front_of_lead hl] at h
  obtain ⟨hwidth, howed⟩ := continuation_width h
  obtain ⟨n, rfl, hleast, hbound⟩ := continuation_code hfits.low_le h
  have hleast' : l.least ≤ n := hleast
  have hbound' : n < l.bound := hbound
  have hvalid : n.isValidChar := by
    have := hfits.isCode
    unfold Nat.isValidChar
    omega
  have hcontrol := hfits.control
  have hascii := hfits.ascii_le
  rw [List.length_append, List.length_singleton] at howed
  rw [toNat_ofNat hvalid]
  exact ⟨by omega, by omega, fun hn => hcontrol.resolve_left (by omega)⟩

/-- The byte that shows that a character is not completed is not a part of it. -/
theorem front_concat_of_invalid (hcut : front p ps = .cut) (h : front p (ps ++ [b]) = .invalid w) :
    w = ps.length + 1 := by
  obtain ⟨l, hl, hlength⟩ := exists_lead_of_cut hcut
  rw [front_of_lead hl] at hcut h
  rw [continuation_concat_of_invalid hcut h, Nat.add_comm]

/-- A character is longer than a start of it. -/
theorem lt_width_of_cut (hcut : front p ps = .cut) (h : front p (ps ++ more) = .scalar c w) :
    ps.length + 1 < w := by
  refine Nat.lt_of_not_le fun hle => ?_
  rw [front_of_append h hle] at hcut
  cases hcut

/-- All bytes of the start of a character are to blame if no character comes of it. -/
theorem le_width_of_cut (hcut : front p ps = .cut) (h : front p (ps ++ more) = .invalid w) :
    ps.length + 1 ≤ w := by
  induction more generalizing ps with
  | nil =>
    rw [List.append_nil, hcut] at h
    cases h
  | cons b more ih =>
    rw [List.append_cons] at h
    by_cases hb : front p (ps ++ [b]) = .cut
    · have hlonger : (ps ++ [b]).length + 1 ≤ w := ih hb h
      rw [List.length_append] at hlonger
      omega
    · rw [front_append hb] at h
      exact Nat.le_of_eq (front_concat_of_invalid hcut h).symm

end Front

/-! ### Whole characters -/

theorem soundLength_cons (b : UInt8) (rest : List UInt8) :
    soundLength (b :: rest) = match front b rest with
      | .scalar _ width => width + soundLength (rest.drop (width - 1))
      | .invalid _ | .cut => 0 := by
  rw [soundLength, soundFrom]
  cases front b rest with
  | scalar c width => exact congrArg (width + ·) (soundFrom_eq_drop _ _)
  | invalid width => rfl
  | cut => rfl

theorem soundLength_of_scalar {b : UInt8} {rest : List UInt8} {c : Char} {w : Nat}
    (h : front b rest = .scalar c w) :
    soundLength (b :: rest) = w + soundLength (rest.drop (w - 1)) := by
  rw [soundLength_cons, h]

/-- A byte by itself is a character just if it is ASCII. -/
theorem soundLength_singleton (b : UInt8) : soundLength [b] = if b < 0x80 then 1 else 0 := by
  rw [soundLength_cons, front_eq]
  split_ifs with h
  · rfl
  · cases Lead.of? b with
    | some l => rfl
    | none => rfl

theorem soundLength_pair_of_ascii {x : UInt8} (h : x < 0x80) (y : UInt8) :
    soundLength [x, y] = 1 + soundLength [y] := by
  rw [soundLength_cons, front_eq, if_pos h]
  rfl

/-- Two bytes of which the first is not ASCII are a character together or start with none. -/
theorem soundLength_pair {x : UInt8} (h : ¬ x < 0x80) (y : UInt8) :
    soundLength [x, y] = 2 ∨ soundLength [x, y] = 0 := by
  rw [soundLength_cons]
  cases hfront : front x [y] with
  | scalar c w =>
    have hle : w ≤ 2 := (front_width hfront).2.2
    have htwo : 2 ≤ w := by
      rw [front_eq, if_neg h] at hfront
      cases hl : Lead.of? x with
      | some l =>
        rw [hl] at hfront
        have := (continuation_width hfront).1
        omega
      | none =>
        rw [hl] at hfront
        cases hfront
    obtain rfl : w = 2 := Nat.le_antisymm hle htwo
    exact .inl rfl
  | invalid w => exact .inr rfl
  | cut => exact .inr rfl

end MudDialogue.Text.Utf8
