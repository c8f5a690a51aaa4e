/-!
# Spans of time in words

A span of time is written in the largest unit of which it holds at least one: seconds, milliseconds,
microseconds or nanoseconds. The rest follows as a decimal fraction, exact and without zeros at its
end.
-/

namespace MudDialogue

/-- A span of time. -/
structure Duration where
  /-- Its length in nanoseconds. -/
  nanoseconds : Nat
deriving DecidableEq, Repr

namespace Duration

/-- Seconds and nanoseconds. -/
def ofSeconds (seconds nanoseconds : Nat) : Duration := ⟨seconds * 1000000000 + nanoseconds⟩

/-- Whole milliseconds. -/
def ofMilliseconds (n : Nat) : Duration := ⟨n * 1000000⟩

/-- The decimal digits of `n`, as many as `places` asks for. -/
def paddedDigits (places n : Nat) : List Char :=
  let digits := (toString n).toList
  List.replicate (places - digits.length) '0' ++ digits

/-- The fraction whose decimal digits are the last `places` ones of `rest`, behind a point, without
zeros at its end; nothing if it is zero. -/
def fraction (places rest : Nat) : List Char :=
  match ((paddedDigits places rest).reverse.dropWhile (· == '0')).reverse with
  | [] => []
  | digits => '.' :: digits

/-- A number of nanoseconds in a unit of `size` of them, a power of ten with as many zeros as there
are places. -/
def inUnit (size places : Nat) (unit : String) (n : Nat) : String :=
  toString (n / size) ++ String.ofList (fraction places (n % size)) ++ unit

/-- The span in words. -/
def text (d : Duration) : String :=
  let n := d.nanoseconds
  if 1000000000 ≤ n then inUnit 1000000000 9 "s" n
  else if 1000000 ≤ n then inUnit 1000000 6 "ms" n
  else if 1000 ≤ n then inUnit 1000 3 "µs" n
  else inUnit 1 0 "ns" n

end Duration

end MudDialogue
