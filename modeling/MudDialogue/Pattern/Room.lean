import Std.Data.HashMap
import MudDialogue.Pattern.ByteRanges
import MudDialogue.Pattern.Form

/-!
# How much room a pattern takes

A pattern with all its repetitions written out is an automaton that reads bytes, and patterns whose
automaton would take too much room are refused. There are two automata, one that reads forwards and
one that reads backwards, and neither may exceed the limit. This file measures them without building
them.

Each state takes 32 bytes. A state with many ways out takes 4 bytes more for each way that it goes
without reading, and 8 bytes more for each range of bytes that it reads.

A class of characters beyond ASCII is read byte by byte, by many states, of which equal ones are
shared. Those already there are remembered in a table with a fixed number of slots, where a state
displaces the one before it in its slot. So the number of states is not quite the least possible,
and it depends on how the states before are numbered.

## Main definitions

* `Form.lay` — lays out the states of a pattern.
* `Form.fits` — both automata of a pattern keep to the limit.
-/

namespace MudDialogue.Pattern

open Text

/-- How much of an automaton is laid out. -/
structure Room where
  /-- How many states there are. States are numbered as they are laid out. -/
  states : Nat
  /-- How many bytes they take. -/
  size : Nat

namespace Room

/-- The most bytes that an automaton may take. -/
def limit : Nat := 10 * 1024 * 1024

/-- Nothing is laid out. -/
def start : Room := ⟨0, 0⟩

/-- Lays out states without more than one way out. -/
def add (r : Room) (n : Nat) : Room := ⟨r.states + n, r.size + 32 * n⟩

/-- Lays out a state that goes `n` ways without reading. -/
def fork (r : Room) (n : Nat) : Room := ⟨r.states + 1, r.size + 32 + 4 * n⟩

/-- Lays out a state that reads `n` ranges of bytes. -/
def read (r : Room) (n : Nat) : Room := ⟨r.states + 1, r.size + 32 + 8 * n⟩

/-- Lays out copies one after another, unless the limit is past. -/
def copies (step : Room → Room) : Nat → Room → Room
  | 0, r => r
  | n + 1, r => if limit < r.size then r else copies step n (step r)

end Room

/-! ### Remembered states -/

/-- States that are remembered by what they do. -/
structure Memory (κ : Type) where
  /-- How many slots there are. -/
  slots : Nat
  /-- What each slot holds. -/
  held : Std.HashMap Nat (κ × Nat) := {}

namespace Memory

variable {κ : Type} [DecidableEq κ]

/-- The slot of a key that consists of the given numbers. -/
def slot (m : Memory κ) (key : List Nat) : Nat :=
  let hash := key.foldl (fun (h : UInt64) n => (h ^^^ UInt64.ofNat n) * 1099511628211)
    14695981039346656037
  hash.toNat % m.slots

/-- The number of the state with the given key, if it is remembered. -/
def find? (m : Memory κ) (slot : Nat) (key : κ) : Option Nat :=
  match m.held[slot]? with
  | some (other, state) => if other = key then some state else none
  | none => none

/-- Remembers a state. -/
def keep (m : Memory κ) (slot : Nat) (key : κ) (state : Nat) : Memory κ :=
  { m with held := m.held.insert slot (key, state) }

end Memory

/-! ### Classes beyond ASCII -/

/-- A state that reads ranges of bytes, each on the way to a state. -/
abbrev Reader := List (ByteRange × Nat)

/-- Gathers what follows equal ranges that stand in front. -/
def byFront : List (List ByteRange) → List (ByteRange × List (List ByteRange))
  | [] => []
  | [] :: rest => byFront rest
  | (range :: tail) :: rest =>
    match byFront rest with
    | (other, tails) :: more =>
      if range = other then (range, tail :: tails) :: more
      else (range, [tail]) :: (other, tails) :: more
    | [] => [(range, [tail])]

/-- Lays out the states that read byte strings from front to back, up to the state `target`; `depth`
bounds the length of the strings. The result holds the number of the first state. -/
def layReaders (target : Nat) :
    Nat → List (List ByteRange) → Memory Reader → Room → Nat × Memory Reader × Room
  | 0, _, memory, room => (target, memory, room)
  | depth + 1, strings, memory, room =>
    let (reader, memory, room) := (byFront strings).foldl (fun (reader, memory, room) entry =>
      match entry with
      | (range, tails) =>
        let (next, memory, room) :=
          if tails.all List.isEmpty then (target, memory, room)
          else layReaders target depth tails memory room
        (reader ++ [(range, next)], memory, room)) (([] : Reader), memory, room)
    let slot := memory.slot (reader.flatMap fun ((low, high), next) => [low, high, next])
    match memory.find? slot reader with
    | some state => (state, memory, room)
    | none => (room.states, memory.keep slot reader room.states, room.read reader.length)

/-- Lays out the states that read a byte string from back to front, each on the way to the one
before. The result holds the number of the last one. -/
def layString (memory : Memory (Nat × ByteRange)) (room : Room) (target : Nat) :
    List ByteRange → Nat × Memory (Nat × ByteRange) × Room
  | [] => (target, memory, room)
  | (low, high) :: rest =>
    let slot := memory.slot [target, low, high]
    match memory.find? slot (target, low, high) with
    | some state => layString memory room state rest
    | none =>
      layString (memory.keep slot (target, low, high) room.states) (room.add 1) room.states rest

/-- Lays out a class of characters. -/
def layScalars (backward : Bool) (set : CodeSet) (room : Room) : Room :=
  let strings := set.flatMap fun (low, high) => byteRanges low high
  if set.isAscii then (room.add 1).read set.length
  else if backward then
    let target := room.states + 1
    (strings.foldl (fun (memory, room) string =>
      let (_, memory, room) := layString memory room target string
      (memory, room)) ((⟨1000, {}⟩ : Memory (Nat × ByteRange)),
        (room.fork strings.length).add 1)).2
  else (layReaders room.states 4 strings ⟨10000, {}⟩ (room.add 1)).2.2

/-! ### Alternatives that are texts -/

/-- Cuts a list where strings have come to their end. -/
def atEnds : List (List UInt8) → List (List (UInt8 × List UInt8))
  | [] => [[]]
  | [] :: rest => [] :: atEnds rest
  | (b :: tail) :: rest =>
    match atEnds rest with
    | chunk :: chunks => ((b, tail) :: chunk) :: chunks
    | [] => [[(b, tail)]]

/-- Lays out the states that read one of several texts, with what they start with alike shared, and
prefer the texts in order; `depth` bounds the length of the texts. Between two chunks of texts one
has come to its end, and only the first of the ends counts before anything else is to be read. -/
def layTexts : Nat → List (List UInt8) → Room → Room
  | 0, _, room => room
  | depth + 1, texts, room =>
    let chunks := atEnds texts
    let used := chunks.filter (!·.isEmpty)
    let ends := (chunks.dropWhile List.isEmpty).length - 1 +
      (if chunks.head?.all List.isEmpty then 1 else 0)
    used.foldl (fun room chunk =>
      let fronts : List UInt8 := (chunk.map Prod.fst).eraseDups
      let room := if fronts.length = 1 then room.add 1 else room.read fronts.length
      fronts.foldl (fun room b =>
        let tails : List (List UInt8) := (chunk.filter (·.1 == b)).map Prod.snd
        if tails.all List.isEmpty then room else layTexts depth tails room) room)
      (room.fork (used.length + ends))

/-! ### Patterns -/

/-- Where a part stands among alternatives. -/
inductive Rank where
  /-- It stands alone or is the first. -/
  | first
  /-- It is the second of as many as given. -/
  | second (count : Nat)
  /-- It is a later one. -/
  | later

/-- Lays out the state where alternatives part and the one where they meet; it is done behind the
second of them. -/
def Rank.finish : Rank → Room → Room
  | second count, room => (room.fork count).add 1
  | _, room => room

namespace Form

/-- The bytes of a text. -/
def text? : Form → Option (List UInt8)
  | literal bs => some bs
  | _ => none

/-- Lays out the states of a pattern. -/
def lay (backward : Bool) : Form → Rank → Room → Room
  | empty, rank, room | look _, rank, room => rank.finish (room.add 1)
  | literal bs, rank, room => rank.finish (room.add bs.length)
  | scalars set, rank, room => rank.finish (layScalars backward set room)
  | bytes set, rank, room => rank.finish ((room.add 1).read set.length)
  | group _ _ f, rank, room =>
    rank.finish (if backward then f.lay backward .first room
      else (f.lay backward .first (room.add 1)).add 1)
  | cat f g, rank, room =>
    rank.finish (if backward then f.lay backward .first (g.lay backward .first room)
      else g.lay backward .first (f.lay backward .first room))
  | alt f g, .first, room =>
    match (f :: g.branches).mapM text? with
    | some texts =>
      layTexts ((texts.map List.length).foldl max 0 + 1)
        (if backward then texts.map List.reverse else texts) (room.add 1)
    | none => g.lay backward (.second (g.branches.length + 1)) (f.lay backward .first room)
  | alt f g, rank, room => g.lay backward .later (rank.finish (f.lay backward .first room))
  | rounds least most? _ f, rank, room =>
    let once := f.lay backward .first
    let exactly (n : Nat) (room : Room) : Room :=
      if n = 0 then room.add 1 else room.copies once n
    rank.finish <| match most?, least with
      | some 1, 0 => (once (room.fork 2)).add 1
      | none, 0 => if f.isSolid then once (room.fork 2) else (((once room).fork 2).fork 2).add 1
      | none, n => (room.copies once n).fork 2
      | some most, least =>
        if most = least then exactly least room
        else ((exactly least room).add 1).copies (fun room => once (room.fork 2)) (most - least)

/-- The room that the whole automaton takes. It can start anywhere in the text unless a match is
known to start, or end, at one place only; forwards it also notes where a match starts and ends. -/
def room (backward : Bool) (f : Form) : Room :=
  let bound := if backward then f.isBoundRight else f.isBoundLeft
  let room := if bound then Room.start.add 1 else ((Room.start.fork 2).add 1).read 1
  let room := if backward then f.lay backward .first room
    else (f.lay backward .first (room.add 1)).add 1
  room.add 1

/-- Both automata of a pattern keep to the limit. -/
def fits (f : Form) : Bool :=
  (f.room false).size ≤ Room.limit && (f.room true).size ≤ Room.limit

end Form

end MudDialogue.Pattern
