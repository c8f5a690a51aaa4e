import MudDialogue.Proofs.Text.Utf8

/-!
# Characters and their encodings

The reading of a byte string character by character is that of UTF-8: a character is read at the
front of a byte string just if the string begins with its encoding. Both directions are shown for
each length of an encoding, with the bytes as numbers.

## Main results

* `Text.Utf8.front_of_encoding` — an encoding is read as its character, whatever follows.
* `Text.Utf8.take_of_front` — what is read as a character is its encoding.
* `Text.Utf8.byte_of_mem_encoding` — which bytes an encoding can have.
* `Text.Utf8.text_bytes` — a text is read as it was written.
* `Text.Utf8.text?_eq_some_iff` — bytes are read as a text just if they are those of the text.
-/

namespace MudDialogue.Text.Utf8

variable {owed code width n : Nat} {low high b : UInt8} {bytes rest : List UInt8} {c : Char}
  {w : Nat}

/-! ### Bytes as numbers -/

theorem toNat_ofNat_byte (h : n < 256) : (UInt8.ofNat n).toNat = n :=
  UInt8.toNat_ofNat_of_lt' h

theorem exists_toNat (b : UInt8) : ∃ n < 256, b = .ofNat n :=
  ⟨b.toNat, b.toNat_lt, UInt8.ofNat_toNat.symm⟩

/-- A byte in the range goes on with a character. -/
theorem continuation_byte (hn : n < 256) (hlow : low.toNat ≤ n) (hhigh : n ≤ high.toNat)
    (rest : List UInt8) : continuation (owed + 1) low high code width (.ofNat n :: rest) =
      continuation owed 0x80 0xBF (64 * code + (n - 0x80)) (width + 1) rest := by
  rw [continuation, toNat_ofNat_byte hn, if_pos]
  rw [UInt8.le_iff_toNat_le, UInt8.le_iff_toNat_le, toNat_ofNat_byte hn]
  exact ⟨hlow, hhigh⟩

/-- Only such a byte does. -/
theorem exists_byte_of_continuation
    (h : continuation (owed + 1) low high code width bytes = .scalar c w) :
    ∃ n rest, bytes = .ofNat n :: rest ∧ low.toNat ≤ n ∧ n ≤ high.toNat ∧
      continuation owed 0x80 0xBF (64 * code + (n - 0x80)) (width + 1) rest = .scalar c w := by
  cases bytes with
  | nil => cases h
  | cons b rest =>
    rw [continuation] at h
    split_ifs at h with hb
    exact ⟨b.toNat, rest, by rw [UInt8.ofNat_toNat], hb.1, hb.2, h⟩

theorem front_byte (hn : n < 256) (rest : List UInt8) : front (.ofNat n) rest =
    if n < 0x80 then .scalar (Char.ofNat n) 1
    else if n < 0xC2 then .invalid 1
    else if n < 0xE0 then continuation 1 0x80 0xBF (n - 0xC0) 1 rest
    else if n = 0xE0 then continuation 2 0xA0 0xBF 0 1 rest
    else if n = 0xED then continuation 2 0x80 0x9F 0xD 1 rest
    else if n < 0xF0 then continuation 2 0x80 0xBF (n - 0xE0) 1 rest
    else if n = 0xF0 then continuation 3 0x90 0xBF 0 1 rest
    else if n < 0xF4 then continuation 3 0x80 0xBF (n - 0xF0) 1 rest
    else if n = 0xF4 then continuation 3 0x80 0x8F 4 1 rest
    else .invalid 1 := by
  simp only [front, UInt8.lt_iff_toNat_lt, ← UInt8.toNat_inj, toNat_ofNat_byte hn]
  rfl

/-- The encoding of a character by its number. -/
theorem encoding_ofNat (h : n.isValidChar) : String.utf8EncodeChar (Char.ofNat n) =
    if n ≤ 0x7F then [.ofNat n]
    else if n ≤ 0x7FF then [.ofNat (n / 64 % 32 + 0xC0), .ofNat (n % 64 + 0x80)]
    else if n ≤ 0xFFFF then
      [.ofNat (n / 4096 % 16 + 0xE0), .ofNat (n / 64 % 64 + 0x80), .ofNat (n % 64 + 0x80)]
    else [.ofNat (n / 262144 % 8 + 0xF0), .ofNat (n / 4096 % 64 + 0x80),
      .ofNat (n / 64 % 64 + 0x80), .ofNat (n % 64 + 0x80)] := by
  have hval : (Char.ofNat n).val.toNat = n := toNat_ofNat h
  rw [String.utf8EncodeChar, hval]

theorem exists_isValidChar (c : Char) : ∃ n : Nat, n.isValidChar ∧ c = Char.ofNat n :=
  ⟨c.toNat, c.valid, (Char.ofNat_toNat c).symm⟩

/-! ### Reading what was encoded -/

/-- The first byte of a character of three bytes, and what it asks of the second one. -/
theorem exists_front_of_three (hleast : 0x800 ≤ n) (hmost : n ≤ 0xFFFF) (hvalid : n.isValidChar)
    (rest : List UInt8) : ∃ low high : UInt8,
      low.toNat ≤ n / 64 % 64 + 0x80 ∧ n / 64 % 64 + 0x80 ≤ high.toNat ∧
      front (.ofNat (n / 4096 % 16 + 0xE0)) rest = continuation 2 low high (n / 4096) 1 rest := by
  unfold Nat.isValidChar at hvalid
  rw [front_byte (by omega), if_neg (by omega), if_neg (by omega), if_neg (by omega)]
  split_ifs with h₁ h₂ h₃
  · have hcode : n / 4096 = 0 := by omega
    have hlow : 0xA0 ≤ n / 64 % 64 + 0x80 := by omega
    have hhigh : n / 64 % 64 + 0x80 ≤ 0xBF := by omega
    exact ⟨0xA0, 0xBF, hlow, hhigh, by rw [hcode]⟩
  · have hcode : n / 4096 = 0xD := by omega
    have hlow : 0x80 ≤ n / 64 % 64 + 0x80 := by omega
    have hhigh : n / 64 % 64 + 0x80 ≤ 0x9F := by omega
    exact ⟨0x80, 0x9F, hlow, hhigh, by rw [hcode]⟩
  · have hcode : n / 4096 % 16 + 0xE0 - 0xE0 = n / 4096 := by omega
    have hlow : 0x80 ≤ n / 64 % 64 + 0x80 := by omega
    have hhigh : n / 64 % 64 + 0x80 ≤ 0xBF := by omega
    exact ⟨0x80, 0xBF, hlow, hhigh, by rw [hcode]⟩
  all_goals omega

/-- The same for four bytes. -/
theorem exists_front_of_four (hleast : 0xFFFF < n) (hvalid : n.isValidChar) (rest : List UInt8) :
    ∃ low high : UInt8,
      low.toNat ≤ n / 4096 % 64 + 0x80 ∧ n / 4096 % 64 + 0x80 ≤ high.toNat ∧
      front (.ofNat (n / 262144 % 8 + 0xF0)) rest =
        continuation 3 low high (n / 262144) 1 rest := by
  unfold Nat.isValidChar at hvalid
  rw [front_byte (by omega), if_neg (by omega), if_neg (by omega), if_neg (by omega),
    if_neg (by omega), if_neg (by omega), if_neg (by omega)]
  split_ifs with h₁ h₂ h₃
  · have hcode : n / 262144 = 0 := by omega
    have hlow : 0x90 ≤ n / 4096 % 64 + 0x80 := by omega
    have hhigh : n / 4096 % 64 + 0x80 ≤ 0xBF := by omega
    exact ⟨0x90, 0xBF, hlow, hhigh, by rw [hcode]⟩
  · have hcode : n / 262144 % 8 + 0xF0 - 0xF0 = n / 262144 := by omega
    have hlow : 0x80 ≤ n / 4096 % 64 + 0x80 := by omega
    have hhigh : n / 4096 % 64 + 0x80 ≤ 0xBF := by omega
    exact ⟨0x80, 0xBF, hlow, hhigh, by rw [hcode]⟩
  · have hcode : n / 262144 = 4 := by omega
    have hlow : 0x80 ≤ n / 4096 % 64 + 0x80 := by omega
    have hhigh : n / 4096 % 64 + 0x80 ≤ 0x8F := by omega
    exact ⟨0x80, 0x8F, hlow, hhigh, by rw [hcode]⟩
  all_goals omega

/-- Any later byte of an encoding is in the range. -/
theorem continuation_tail (n : Nat) (rest : List UInt8) :
    continuation (owed + 1) 0x80 0xBF code width (.ofNat (n % 64 + 0x80) :: rest) =
      continuation owed 0x80 0xBF (64 * code + n % 64) (width + 1) rest := by
  have hlow : 0x80 ≤ n % 64 + 0x80 := by omega
  have hhigh : n % 64 + 0x80 ≤ 0xBF := by omega
  rw [continuation_byte (by omega) hlow hhigh, Nat.add_sub_cancel]

/-- **An encoding is read as its character**, whatever follows. -/
theorem front_of_encoding (h : String.utf8EncodeChar c = b :: bytes) (rest : List UInt8) :
    front b (bytes ++ rest) = .scalar c (bytes.length + 1) := by
  obtain ⟨n, hn, rfl⟩ := exists_isValidChar c
  rw [encoding_ofNat hn] at h
  split_ifs at h with h₁ h₂ h₃
  · obtain ⟨rfl, rfl⟩ := List.cons.inj h
    rw [front_byte (by omega), if_pos (by omega)]
    rfl
  · obtain ⟨rfl, rfl⟩ := List.cons.inj h
    have hcode : 64 * (n / 64 % 32 + 0xC0 - 0xC0) + n % 64 = n := by omega
    rw [front_byte (by omega), if_neg (by omega), if_neg (by omega), if_pos (by omega),
      List.cons_append, continuation_tail, continuation, hcode]
    rfl
  · obtain ⟨rfl, rfl⟩ := List.cons.inj h
    have hcode : 64 * (64 * (n / 4096) + (n / 64 % 64 + 0x80 - 0x80)) + n % 64 = n := by omega
    obtain ⟨low, high, hlow, hhigh, hfront⟩ := exists_front_of_three (by omega) h₃ hn
      (.ofNat (n / 64 % 64 + 0x80) :: .ofNat (n % 64 + 0x80) :: rest)
    rw [List.cons_append, List.cons_append, List.nil_append, hfront,
      continuation_byte (by omega) hlow hhigh, continuation_tail, continuation, hcode]
    rfl
  · obtain ⟨rfl, rfl⟩ := List.cons.inj h
    have hcode : 64 * (64 * (64 * (n / 262144) + (n / 4096 % 64 + 0x80 - 0x80)) + n / 64 % 64) +
        n % 64 = n := by omega
    obtain ⟨low, high, hlow, hhigh, hfront⟩ := exists_front_of_four (by omega) hn
      (.ofNat (n / 4096 % 64 + 0x80) :: .ofNat (n / 64 % 64 + 0x80) :: .ofNat (n % 64 + 0x80) ::
        rest)
    rw [List.cons_append, List.cons_append, List.cons_append, List.nil_append, hfront,
      continuation_byte (by omega) hlow hhigh, continuation_tail, continuation_tail, continuation,
      hcode]
    rfl

/-! ### Encoding what was read -/

/-- What is read as a character of three bytes is its encoding. -/
theorem take_of_three (h : continuation 2 low high code 1 rest = .scalar c w) (hcode : code < 16)
    (hlow : 0x80 ≤ low.toNat) (hhigh : high.toNat ≤ 0xBF)
    (hleast : 0x800 ≤ 64 * (64 * code + (low.toNat - 0x80)))
    (hvalid : 64 * (64 * code + (high.toNat - 0x80)) + 0x3F < 0xD800 ∨
      0xE000 ≤ 64 * (64 * code + (low.toNat - 0x80))) :
    (UInt8.ofNat (code + 0xE0) :: rest).take w = String.utf8EncodeChar c := by
  obtain ⟨m, rest, rfl, hm, hm', h⟩ := exists_byte_of_continuation h
  obtain ⟨k, rest, rfl, hk, hk', h⟩ := exists_byte_of_continuation h
  obtain ⟨rfl, rfl⟩ := Front.scalar.inj h
  have hk : 0x80 ≤ k := hk
  have hk' : k ≤ 0xBF := hk'
  obtain ⟨n, hn⟩ : ∃ n, n = 64 * (64 * code + (m - 0x80)) + (k - 0x80) := ⟨_, rfl⟩
  have hchar : n.isValidChar := by
    unfold Nat.isValidChar
    omega
  have hfirst : n / 4096 % 16 = code := by omega
  have hsecond : n / 64 % 64 + 0x80 = m := by omega
  have hthird : n % 64 + 0x80 = k := by omega
  rw [← hn, encoding_ofNat hchar, if_neg (by omega), if_neg (by omega), if_pos (by omega), hfirst,
    hsecond, hthird]
  rfl

/-- The same for four bytes. -/
theorem take_of_four (h : continuation 3 low high code 1 rest = .scalar c w) (hcode : code < 8)
    (hlow : 0x80 ≤ low.toNat) (hhigh : high.toNat ≤ 0xBF)
    (hleast : 0x10000 ≤ 4096 * (64 * code + (low.toNat - 0x80)))
    (hvalid : 4096 * (64 * code + (high.toNat - 0x80)) + 0xFFF < 0x110000) :
    (UInt8.ofNat (code + 0xF0) :: rest).take w = String.utf8EncodeChar c := by
  obtain ⟨m, rest, rfl, hm, hm', h⟩ := exists_byte_of_continuation h
  obtain ⟨k, rest, rfl, hk, hk', h⟩ := exists_byte_of_continuation h
  obtain ⟨l, rest, rfl, hl, hl', h⟩ := exists_byte_of_continuation h
  obtain ⟨rfl, rfl⟩ := Front.scalar.inj h
  have hk : 0x80 ≤ k := hk
  have hk' : k ≤ 0xBF := hk'
  have hl : 0x80 ≤ l := hl
  have hl' : l ≤ 0xBF := hl'
  obtain ⟨n, hn⟩ : ∃ n, n = 64 * (64 * (64 * code + (m - 0x80)) + (k - 0x80)) + (l - 0x80) :=
    ⟨_, rfl⟩
  have hchar : n.isValidChar := by
    unfold Nat.isValidChar
    omega
  have hfirst : n / 262144 % 8 = code := by omega
  have hsecond : n / 4096 % 64 + 0x80 = m := by omega
  have hthird : n / 64 % 64 + 0x80 = k := by omega
  have hfourth : n % 64 + 0x80 = l := by omega
  rw [← hn, encoding_ofNat hchar, if_neg (by omega), if_neg (by omega), if_neg (by omega), hfirst,
    hsecond, hthird, hfourth]
  rfl

/-- **What is read as a character is its encoding.** -/
theorem take_of_front (h : front b rest = .scalar c w) :
    (b :: rest).take w = String.utf8EncodeChar c := by
  obtain ⟨n, hn, rfl⟩ := exists_toNat b
  rw [front_byte hn] at h
  split_ifs at h with h₁ h₂ h₃ h₄ h₅ h₆ h₇ h₈ h₉
  · obtain ⟨rfl, rfl⟩ := Front.scalar.inj h
    rw [encoding_ofNat (.inl (by omega)), if_pos (by omega)]
    rfl
  · obtain ⟨m, rest, rfl, hm, hm', h⟩ := exists_byte_of_continuation h
    obtain ⟨rfl, rfl⟩ := Front.scalar.inj h
    have hm : 0x80 ≤ m := hm
    have hm' : m ≤ 0xBF := hm'
    have hfirst : (64 * (n - 0xC0) + (m - 0x80)) / 64 % 32 + 0xC0 = n := by omega
    have hsecond : (64 * (n - 0xC0) + (m - 0x80)) % 64 + 0x80 = m := by omega
    rw [encoding_ofNat (.inl (by omega)), if_neg (by omega), if_pos (by omega), hfirst, hsecond]
    rfl
  · subst h₄
    exact take_of_three h (by decide) (by decide) (by decide) (by decide) (by decide)
  · subst h₅
    exact take_of_three h (by decide) (by decide) (by decide) (by decide) (by decide)
  · obtain ⟨k, rfl⟩ : ∃ k, n = k + 0xE0 := ⟨n - 0xE0, by omega⟩
    rw [Nat.add_sub_cancel] at h
    have hlow : (0x80 : UInt8).toNat = 0x80 := rfl
    have hhigh : (0xBF : UInt8).toNat = 0xBF := rfl
    exact take_of_three h (by omega) (by decide) (by decide) (by omega) (by omega)
  · subst h₇
    exact take_of_four h (by decide) (by decide) (by decide) (by decide) (by decide)
  · obtain ⟨k, rfl⟩ : ∃ k, n = k + 0xF0 := ⟨n - 0xF0, by omega⟩
    rw [Nat.add_sub_cancel] at h
    have hlow : (0x80 : UInt8).toNat = 0x80 := rfl
    have hhigh : (0xBF : UInt8).toNat = 0xBF := rfl
    exact take_of_four h (by omega) (by decide) (by decide) (by omega) (by omega)
  · subst h₉
    exact take_of_four h (by decide) (by decide) (by decide) (by decide) (by decide)

/-! ### The bytes of an encoding -/

/-- **Which bytes an encoding can have**: an ASCII character is its own encoding, and the others have
bytes from 0x80 on. The bytes 0xC0, 0xC1 and those from 0xF5 on are in none. -/
theorem byte_of_mem_encoding (hb : b ∈ String.utf8EncodeChar c) :
    (b < 0x80 → c.toNat = b.toNat) ∧ b ≠ 0xC0 ∧ b ≠ 0xC1 ∧ b < 0xF5 := by
  obtain ⟨n, hn, rfl⟩ := exists_isValidChar c
  obtain ⟨m, hm, rfl⟩ := exists_toNat b
  -- the same of the numbers
  suffices h : (m < 0x80 → n = m) ∧ m ≠ 0xC0 ∧ m ≠ 0xC1 ∧ m < 0xF5 by
    simp only [UInt8.lt_iff_toNat_lt, ne_eq, ← UInt8.toNat_inj, toNat_ofNat_byte hm,
      toNat_ofNat hn]
    exact h
  have hnumber {k : Nat} (hk : k < 256) (h : UInt8.ofNat m = .ofNat k) : m = k := by
    rw [← toNat_ofNat_byte hm, h, toNat_ofNat_byte hk]
  unfold Nat.isValidChar at hn
  rw [encoding_ofNat hn] at hb
  split_ifs at hb with h₁ h₂ h₃ <;>
    simp only [List.mem_cons, List.not_mem_nil, or_false] at hb
  · obtain rfl := hnumber (by omega) hb
    omega
  · rcases hb with hb | hb <;> obtain rfl := hnumber (by omega) hb <;> omega
  · rcases hb with hb | hb | hb <;> obtain rfl := hnumber (by omega) hb <;> omega
  · rcases hb with hb | hb | hb | hb <;> obtain rfl := hnumber (by omega) hb <;> omega

/-! ### Texts -/

/-- The encodings of characters, one after the other. -/
def encode (cs : List Char) : List UInt8 := cs.flatMap String.utf8EncodeChar

theorem bytes_eq_encode (s : String) : Utf8.bytes s = encode s.toList := rfl

theorem encode_cons (c : Char) (cs : List Char) :
    encode (c :: cs) = String.utf8EncodeChar c ++ encode cs := rfl

theorem encode_append (cs ds : List Char) : encode (cs ++ ds) = encode cs ++ encode ds :=
  List.flatMap_append

/-- Characters are read as they were encoded. -/
theorem scalars_encode (cs : List Char) : scalars (encode cs) = cs := by
  induction cs with
  | nil => rfl
  | cons c cs ih =>
    obtain ⟨b, bytes, hencoding⟩ :=
      List.exists_cons_of_ne_nil (String.utf8EncodeChar_ne_nil (c := c))
    rw [encode_cons, hencoding, List.cons_append, scalars_cons, front_of_encoding hencoding]
    simp only [Nat.add_sub_cancel, List.drop_left, ih]

theorem encode_inj {cs ds : List Char} (h : encode cs = encode ds) : cs = ds := by
  rw [← scalars_encode cs, h, scalars_encode]

/-- **A text is read as it was written.** -/
theorem text_bytes (s : String) : text (Utf8.bytes s) = s := by
  rw [text, bytes_eq_encode, scalars_encode, String.ofList_toList]

/-- The LF of a text is not in another character. -/
theorem newline_mem_of_encode {cs : List Char} (h : 0x0A ∈ encode cs) : '\n' ∈ cs := by
  obtain ⟨c, hc, hb⟩ := List.mem_flatMap.mp h
  have hnumber : c.toNat = '\n'.toNat := (byte_of_mem_encoding hb).1 (by decide)
  rwa [Char.toNat_inj.mp hnumber] at hc

/-- Encodings are whole characters. -/
theorem isSound_encode (cs : List Char) : IsSound (encode cs) := by
  induction cs with
  | nil => rfl
  | cons c cs ih =>
    obtain ⟨b, bytes, hencoding⟩ :=
      List.exists_cons_of_ne_nil (String.utf8EncodeChar_ne_nil (c := c))
    rw [IsSound, encode_cons, hencoding, List.cons_append,
      soundLength_of_scalar (front_of_encoding hencoding _), Nat.add_sub_cancel, List.drop_left, ih,
      List.length_cons, List.length_append]
    omega

/-- Whole characters are encodings. -/
theorem exists_encode_of_isSound {bytes : List UInt8} (h : IsSound bytes) :
    ∃ cs, bytes = encode cs := by
  induction hn : bytes.length using Nat.strongRecOn generalizing bytes with
  | ind n ih =>
    cases bytes with
    | nil => exact ⟨[], rfl⟩
    | cons b rest =>
      rw [IsSound, soundLength_cons, List.length_cons] at h
      cases hfront : front b rest with
      | invalid w => simp [hfront] at h
      | cut => simp [hfront] at h
      | scalar c w =>
        have hwhole : w + soundLength (rest.drop (w - 1)) = rest.length + 1 := by rwa [hfront] at h
        obtain ⟨hpos, -, hle⟩ := front_width hfront
        rw [List.length_cons] at hn
        have hlength : (rest.drop (w - 1)).length = rest.length - (w - 1) := List.length_drop
        have hrest : IsSound (rest.drop (w - 1)) := by
          rw [IsSound, hlength]
          omega
        obtain ⟨cs, hcs⟩ := ih _ (by omega) hrest rfl
        refine ⟨c :: cs, ?_⟩
        rw [encode_cons, ← take_of_front hfront, ← hcs]
        obtain ⟨k, rfl⟩ := Nat.exists_eq_add_of_le' hpos
        rw [List.take_succ_cons, Nat.add_sub_cancel, List.cons_append, List.take_append_drop]

/-- **Bytes are read as a text just if they are those of the text.** -/
theorem text?_eq_some_iff {bytes : List UInt8} {s : String} :
    text? bytes = some s ↔ bytes = Utf8.bytes s := by
  rw [text?, Option.ite_none_right_eq_some]
  constructor
  · rintro ⟨hsound, htext⟩
    obtain ⟨cs, rfl⟩ := exists_encode_of_isSound hsound
    rw [← Option.some.inj htext, text, scalars_encode, bytes_eq_encode, String.toList_ofList]
  · rintro rfl
    exact ⟨isSound_encode s.toList, congrArg some (text_bytes s)⟩

end MudDialogue.Text.Utf8
