/-!
# Ranges of characters as ranges of bytes

A range of code points is encoded by byte strings of several lengths. It falls into pieces such that
the encodings of a piece are all byte strings whose first byte lies in one range of bytes, whose
second byte lies in another, and so on.
-/

namespace MudDialogue.Pattern

/-- All bytes between two ends, both included. -/
abbrev ByteRange := Nat × Nat

/-- Where a range of code points that is no single piece is cut: the last code point of its first
part. There is a cut at the surrogates, where encodings grow longer, and where a leading byte would
not go with all values of the bytes behind it. -/
def cut? (low high : Nat) : Option Nat :=
  if low < 0xE000 ∧ 0xD7FF < high then some 0xD7FF
  else match [0x7F, 0x7FF, 0xFFFF].find? fun last => low ≤ last && last < high with
    | some last => some last
    | none =>
      if high < 0x80 then none
      else [64, 4096, 262144].findSome? fun block =>
        if low / block = high / block then none
        else if low % block ≠ 0 then some (low / block * block + block - 1)
        else if high % block ≠ block - 1 then some (high / block * block - 1)
        else none

/-- The bytes of two code points whose encodings have one length, as ranges. -/
def encodedRanges (low high : Nat) : List ByteRange :=
  let bytes (code : Nat) := (String.utf8EncodeChar (Char.ofNat code)).map UInt8.toNat
  (bytes low).zip (bytes high)

/-- The pieces of a range of code points, in ascending order. -/
def byteRanges (low high : Nat) : List (List ByteRange) :=
  match cut? low high with
  | none => [encodedRanges low high]
  | some last =>
    let next := if last = 0xD7FF then 0xE000 else last + 1
    if low ≤ last ∧ last < high then byteRanges low last ++ byteRanges next high else []
termination_by high - low
decreasing_by
  all_goals grind

end MudDialogue.Pattern
