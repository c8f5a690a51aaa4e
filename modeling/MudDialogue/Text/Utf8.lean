/-!
# UTF-8 with damage

Server output is text most of the time, but nothing guarantees it. This file reads the character at
the front of a byte string and, where there is none, says how many bytes are to blame: the longest
run that some character starts with, or a single byte. From this come the lossy reading of a whole
string, in which every such run becomes one replacement character, and the strict one.
-/

namespace MudDialogue.Text.Utf8

/-- The character that stands for bytes which encode nothing. -/
def replacement : Char := '\uFFFD'

/-- The encoding of `replacement`. -/
def replacementBytes : List UInt8 := [0xEF, 0xBF, 0xBD]

/-- What a byte string starts with. -/
inductive Front where
  /-- A character that takes up `width` bytes. -/
  | scalar (c : Char) (width : Nat)
  /-- As many bytes that are part of no character. -/
  | invalid (width : Nat)
  /-- The string ends inside a character. -/
  | cut
deriving DecidableEq, Repr

/-- Reads `owed` continuation bytes. The first of them has to lie in the given range, the later
ones between 0x80 and 0xBF; `code` and `width` are what has been read of the character so far. -/
def continuation : Nat → UInt8 → UInt8 → Nat → Nat → List UInt8 → Front
  | 0, _, _, code, width, _ => .scalar (Char.ofNat code) width
  | _ + 1, _, _, _, _, [] => .cut
  | owed + 1, low, high, code, width, b :: rest =>
    if low ≤ b ∧ b ≤ high then
      continuation owed 0x80 0xBF (64 * code + (b.toNat - 0x80)) (width + 1) rest
    else .invalid width

/-- What the byte string `b :: rest` starts with. The ranges shut out overlong forms, surrogates
and numbers beyond the last code point at the earliest byte that gives them away. -/
def front (b : UInt8) (rest : List UInt8) : Front :=
  if b < 0x80 then .scalar (Char.ofNat b.toNat) 1
  else if b < 0xC2 then .invalid 1
  else if b < 0xE0 then continuation 1 0x80 0xBF (b.toNat - 0xC0) 1 rest
  else if b = 0xE0 then continuation 2 0xA0 0xBF 0 1 rest
  else if b = 0xED then continuation 2 0x80 0x9F 0xD 1 rest
  else if b < 0xF0 then continuation 2 0x80 0xBF (b.toNat - 0xE0) 1 rest
  else if b = 0xF0 then continuation 3 0x90 0xBF 0 1 rest
  else if b < 0xF4 then continuation 3 0x80 0xBF (b.toNat - 0xF0) 1 rest
  else if b = 0xF4 then continuation 3 0x80 0x8F 4 1 rest
  else .invalid 1

/-! ### Widths -/

/-- A character takes up its continuation bytes beside what was read of it before. -/
theorem continuation_width {owed : Nat} {low high : UInt8} {code width : Nat} {bytes : List UInt8}
    {c : Char} {w : Nat} (h : continuation owed low high code width bytes = .scalar c w) :
    w = width + owed ∧ owed ≤ bytes.length := by
  induction owed generalizing low high code width bytes with
  | zero =>
    simp only [continuation, Front.scalar.injEq] at h
    omega
  | succ owed ih =>
    cases bytes with
    | nil => simp [continuation] at h
    | cons b rest =>
      simp only [continuation] at h
      split at h
      · obtain ⟨hw, hl⟩ := ih h
        simp only [List.length_cons]
        omega
      · cases h

/-- A character takes up one to four bytes, and all of them are there. -/
theorem front_width {b : UInt8} {rest : List UInt8} {c : Char} {w : Nat}
    (h : front b rest = .scalar c w) : 1 ≤ w ∧ w ≤ 4 ∧ w ≤ rest.length + 1 := by
  have owing {owed : Nat} {low high : UInt8} {code : Nat} (ho : owed ≤ 3)
      (h : continuation owed low high code 1 rest = .scalar c w) :
      1 ≤ w ∧ w ≤ 4 ∧ w ≤ rest.length + 1 := by
    obtain ⟨hw, hl⟩ := continuation_width h
    omega
  unfold front at h
  split at h
  · cases h
    omega
  split at h
  · cases h
  iterate 7
    split at h
    · exact owing (by decide) h
  cases h

/-! ### Readings -/

/-- The characters of a byte string behind its first `skip` bytes, with one replacement character
for each run of bytes that encodes nothing. -/
def scalarsFrom : Nat → List UInt8 → List Char
  | _, [] => []
  | skip + 1, _ :: rest => scalarsFrom skip rest
  | 0, b :: rest =>
    match front b rest with
    | .scalar c width => c :: scalarsFrom (width - 1) rest
    | .invalid width => replacement :: scalarsFrom (width - 1) rest
    | .cut => [replacement]

/-- The characters of a byte string. -/
def scalars (bytes : List UInt8) : List Char := scalarsFrom 0 bytes

/-- The lossy reading of a byte string. -/
def text (bytes : List UInt8) : String := String.ofList (scalars bytes)

/-- How many bytes behind the first `skip` ones are whole characters, up to the first byte that is
part of none. -/
def soundFrom : Nat → List UInt8 → Nat
  | _, [] => 0
  | skip + 1, _ :: rest => soundFrom skip rest
  | 0, b :: rest =>
    match front b rest with
    | .scalar _ width => width + soundFrom (width - 1) rest
    | .invalid _ | .cut => 0

/-- How many bytes at the front of a byte string are whole characters. -/
def soundLength (bytes : List UInt8) : Nat := soundFrom 0 bytes

theorem scalarsFrom_eq_drop (skip : Nat) (bytes : List UInt8) :
    scalarsFrom skip bytes = scalars (bytes.drop skip) := by
  induction skip generalizing bytes with
  | zero => rfl
  | succ skip ih =>
    cases bytes with
    | nil => rfl
    | cons b rest => simp only [scalarsFrom, List.drop_succ_cons, ih]

theorem soundFrom_eq_drop (skip : Nat) (bytes : List UInt8) :
    soundFrom skip bytes = soundLength (bytes.drop skip) := by
  induction skip generalizing bytes with
  | zero => rfl
  | succ skip ih =>
    cases bytes with
    | nil => rfl
    | cons b rest => simp only [soundFrom, List.drop_succ_cons, ih]

@[simp] theorem scalars_nil : scalars [] = [] := rfl

theorem scalars_cons (b : UInt8) (rest : List UInt8) :
    scalars (b :: rest) = match front b rest with
      | .scalar c width => c :: scalars (rest.drop (width - 1))
      | .invalid width => replacement :: scalars (rest.drop (width - 1))
      | .cut => [replacement] := by
  rw [scalars, scalarsFrom]
  simp only [scalarsFrom_eq_drop]

/-- Nothing but whole characters. -/
def IsSound (bytes : List UInt8) : Prop := soundLength bytes = bytes.length

instance (bytes : List UInt8) : Decidable (IsSound bytes) :=
  inferInstanceAs (Decidable (soundLength bytes = bytes.length))

/-- The strict reading of a byte string: there is none if any byte is out of place. -/
def text? (bytes : List UInt8) : Option String :=
  if IsSound bytes then some (text bytes) else none

/-- The bytes of a text. -/
def bytes (s : String) : List UInt8 := s.toList.flatMap String.utf8EncodeChar

end MudDialogue.Text.Utf8
