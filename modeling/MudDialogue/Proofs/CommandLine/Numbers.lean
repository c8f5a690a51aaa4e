import Mathlib.Data.List.Induction
import Mathlib.Data.Nat.Digits.Defs
import MudDialogue.CommandLine.Commands

/-!
# Numbers as arguments

Ports and counts are numbers in decimal digits, perhaps with a plus sign in front. There is one more
way to write a port: zeros with a minus sign.

## Main definitions

* `IsDecimal`, `IsPort`, `IsCount` — how numbers are written.

## Main results

* `number?_eq_some_iff`, `port?_eq_some_iff`, `count_eq_some_iff` — numbers are read as they are
  written.
-/

namespace MudDialogue.CommandLine

/-- The value of decimal digits, the last of which counts ones. -/
def decimalValue (digits : List Char) : Nat :=
  Nat.ofDigits 10 (digits.reverse.map fun c => c.toNat - '0'.toNat)

/-- The text is the number in decimal digits, perhaps with a plus sign in front. -/
def IsDecimal (text : String) (n : Nat) : Prop :=
  ∃ digits : List Char, digits ≠ [] ∧ (∀ c ∈ digits, c.isDigit) ∧
    (text.toList = digits ∨ text.toList = '+' :: digits) ∧ decimalValue digits = n

/-- The text is the number of a port. -/
def IsPort (text : String) (n : Nat) : Prop :=
  (IsDecimal text n ∧ n ≤ 65535) ∨
    ((∃ k, text.toList = '-' :: List.replicate (k + 1) '0') ∧ n = 0)

/-- The text is the number of accounts in a batch. -/
def IsCount (text : String) (n : Nat) : Prop := IsDecimal text n ∧ n ≤ 18446744073709551615

variable {cs : List Char} {text : String} {n limit : Nat}

theorem foldl_eq_decimalValue (cs : List Char) :
    cs.foldl (fun n c => 10 * n + (c.toNat - '0'.toNat)) 0 = decimalValue cs := by
  induction cs using List.reverseRecOn with
  | nil => rfl
  | append_singleton cs c ih =>
    rw [List.foldl_append, List.foldl_cons, List.foldl_nil, ih, decimalValue, decimalValue,
      List.reverse_append, List.reverse_singleton, List.singleton_append, List.map_cons,
      Nat.ofDigits_cons, Nat.add_comm]

theorem digitsValue?_eq_some_iff :
    digitsValue? cs = some n ↔ cs ≠ [] ∧ (∀ c ∈ cs, c.isDigit) ∧ decimalValue cs = n := by
  rw [digitsValue?, foldl_eq_decimalValue, Option.ite_none_right_eq_some]
  simp [and_assoc]

/-- The characters of a number are digits behind a possible plus sign. -/
theorem isDecimal_iff (hsign : ∀ cs, text.toList ≠ '+' :: cs) :
    IsDecimal text n ↔ digitsValue? text.toList = some n := by
  rw [digitsValue?_eq_some_iff]
  constructor
  · rintro ⟨digits, hne, hdigits, htext, hvalue⟩
    obtain rfl := htext.resolve_right (hsign digits)
    exact ⟨hne, hdigits, hvalue⟩
  · rintro ⟨hne, hdigits, hvalue⟩
    exact ⟨_, hne, hdigits, .inl rfl, hvalue⟩

/-- A text that begins with another character than a digit is no number without a sign. -/
theorem isDecimal_iff_of_cons {c : Char} (hc : ¬ c.isDigit) (htext : text.toList = c :: cs) :
    IsDecimal text n ↔ c = '+' ∧ digitsValue? cs = some n := by
  rw [digitsValue?_eq_some_iff]
  constructor
  · rintro ⟨digits, hne, hdigits, hplain | hplus, hvalue⟩
    · exact absurd (hdigits c (by rw [← hplain, htext]; exact List.mem_cons_self)) hc
    · obtain ⟨rfl, rfl⟩ := List.cons.inj (htext.symm.trans hplus)
      exact ⟨rfl, hne, hdigits, hvalue⟩
  · rintro ⟨rfl, hne, hdigits, hvalue⟩
    exact ⟨cs, hne, hdigits, .inr htext, hvalue⟩

/-- **A number is read just if it is written in decimal digits**, and not beyond the limit. -/
theorem number?_eq_some_iff : number? limit text = some n ↔ IsDecimal text n ∧ n ≤ limit := by
  simp only [number?, Option.bind_eq_some_iff, Option.ite_none_right_eq_some, Option.some.injEq,
    exists_eq_right_right]
  split
  next cs htext => rw [isDecimal_iff_of_cons (by decide) htext, and_iff_right rfl]
  next hsign => rw [isDecimal_iff hsign]

example : number? maxPort "+0065535" = some 65535 ∧ number? maxPort "65536" = none := by decide

/-- Digits of the value zero are zeros. -/
theorem digitsValue?_eq_zero_iff :
    digitsValue? cs = some 0 ↔ ∃ k, cs = List.replicate (k + 1) '0' := by
  rw [digitsValue?_eq_some_iff]
  constructor
  · rintro ⟨hne, hdigits, hvalue⟩
    obtain ⟨k, hk⟩ := Nat.exists_eq_add_of_le' (List.length_pos_iff.mpr hne)
    refine ⟨k, List.eq_replicate_iff.mpr ⟨hk, fun c hc => ?_⟩⟩
    have hzero := Nat.digits_zero_of_eq_zero (by decide) hvalue (c.toNat - '0'.toNat)
      (List.mem_map.mpr ⟨c, List.mem_reverse.mpr hc, rfl⟩)
    have hdigit : '0'.toNat ≤ c.toNat := by
      have := hdigits c hc
      simp [Char.isDigit] at this
      exact this.1
    exact Char.toNat_inj.mp (by omega)
  · rintro ⟨k, rfl⟩
    refine ⟨by simp, fun c hc => by rw [List.eq_of_mem_replicate hc]; decide, ?_⟩
    rw [decimalValue, List.reverse_replicate, List.map_replicate]
    exact Nat.ofDigits_replicate_zero

/-- **The number of a port is read just if it is written as one.** -/
theorem port?_eq_some_iff {port : UInt16} : port? text = some port ↔ IsPort text port.toNat := by
  rw [port?, IsPort]
  split
  next cs htext =>
    have hminus : ¬ IsDecimal text port.toNat := fun h =>
      absurd ((isDecimal_iff_of_cons (by decide) htext).mp h).1 (by decide)
    have hzero : some 0 = some port ↔ port.toNat = 0 := by
      rw [Option.some.injEq, ← UInt16.toNat_inj, eq_comm, UInt16.toNat_zero]
    simp only [Option.ite_none_right_eq_some, digitsValue?_eq_zero_iff, htext, List.cons.injEq,
      true_and, hminus, false_and, false_or, hzero]
  next hminus =>
    have hsign : ¬ ∃ k, text.toList = '-' :: List.replicate (k + 1) '0' :=
      not_exists.mpr fun _ => hminus _
    simp only [hsign, false_and, or_false, Option.map_eq_some_iff, number?_eq_some_iff]
    constructor
    · rintro ⟨n, ⟨hn, hle⟩, rfl⟩
      rw [UInt16.toNat_ofNat_of_lt' (Nat.lt_succ_of_le hle)]
      exact ⟨hn, hle⟩
    · exact fun h => ⟨port.toNat, h, UInt16.ofNat_toNat⟩

theorem isPort_default : IsPort "8945" (8945 : UInt16).toNat :=
  port?_eq_some_iff.mp (by decide)

theorem IsPort.le (h : IsPort text n) : n ≤ 65535 := by
  rcases h with ⟨-, hle⟩ | ⟨-, rfl⟩
  · exact hle
  · exact Nat.zero_le _

/-- The place for a port takes what is written as one. -/
theorem isSome_port? : (port? text).isSome ↔ ∃ n, IsPort text n := by
  simp only [Option.isSome_iff_exists, port?_eq_some_iff]
  constructor
  · rintro ⟨port, h⟩
    exact ⟨_, h⟩
  · rintro ⟨n, h⟩
    refine ⟨UInt16.ofNat n, ?_⟩
    rwa [UInt16.toNat_ofNat_of_lt' (Nat.lt_succ_of_le h.le)]

theorem count_eq_some_iff : number? maxCount text = some n ↔ IsCount text n :=
  number?_eq_some_iff

/-- The place for a count takes what is written as one. -/
theorem isSome_count : (number? maxCount text).isSome ↔ ∃ n, IsCount text n := by
  simp only [Option.isSome_iff_exists, count_eq_some_iff]

end MudDialogue.CommandLine
