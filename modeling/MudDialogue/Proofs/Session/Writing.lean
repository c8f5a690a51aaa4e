import MudDialogue.Session.Peer

/-!
# What a server takes of what is written

A write depends only on how much the server will still take, and it changes nothing but that and the
record of what happened (`Peer.write_eq`). What the server has taken altogether grows by what it
takes of each write.

## Main definitions

* `Peer.Fits`, `Peer.taken` — a write is taken completely, and what of it is taken.

## Main results

* `Peer.write_eq` — what a write does.
* `Peer.written_write` — what the server has taken after a write.
-/

namespace MudDialogue

/-- The bytes that the server takes when something happens. -/
def Event.taken : Event → List UInt8
  | .write bytes => bytes
  | _ => []

namespace Peer

/-- The server has room for so many more bytes. -/
def Fits (p : Peer) (count : Nat) : Prop := ∀ room ∈ p.room?, count ≤ room

instance (p : Peer) (count : Nat) : Decidable (p.Fits count) :=
  decidable_of_iff (p.room?.all (count ≤ ·) = true) <| by
    cases h : p.room? <;> simp [Fits, h]

theorem Fits.mono {p : Peer} {m n : Nat} (h : p.Fits n) (hle : m ≤ n) : p.Fits m :=
  fun room hroom => Nat.le_trans hle (h room hroom)

/-- What fits after a write fitted together with it. -/
theorem Fits.of_add {p q : Peer} {m n : Nat} (h : p.Fits (m + n))
    (hroom : q.room? = p.room?.map (· - m)) : q.Fits n := by
  intro room hq
  rw [hroom, Option.mem_def, Option.map_eq_some_iff] at hq
  obtain ⟨whole, hwhole, rfl⟩ := hq
  exact Nat.le_sub_of_add_le' (h whole hwhole)

/-- Two writes fit together if the second one fits after the first one. -/
theorem Fits.add {p q : Peer} {m n : Nat} (h : p.Fits m) (hroom : q.room? = p.room?.map (· - m))
    (h' : q.Fits n) : p.Fits (m + n) := by
  intro room hp
  have hq : room - m ∈ q.room? := by
    rw [hroom, Option.mem_def.mp hp]
    rfl
  exact Nat.add_le_of_le_sub' (h room hp) (h' _ hq)

theorem fits_of_room {p : Peer} (h : p.room? = none) (count : Nat) : p.Fits count := by
  intro room hroom
  rw [h] at hroom
  cases hroom

/-- What the server takes of some bytes. -/
def taken (p : Peer) (bytes : List UInt8) : List UInt8 :=
  match p.room? with
  | none => bytes
  | some room => bytes.take room

theorem taken_of_fits {p : Peer} {bytes : List UInt8} (h : p.Fits bytes.length) :
    p.taken bytes = bytes := by
  unfold taken
  cases hr : p.room? with
  | none => rfl
  | some room => exact List.take_of_length_le (h room hr)

theorem taken_isPrefix (p : Peer) (bytes : List UInt8) : p.taken bytes <+: bytes := by
  unfold taken
  cases p.room? with
  | none => exact List.prefix_rfl
  | some room => exact List.take_prefix room bytes

theorem taken_ne {p : Peer} {bytes : List UInt8} (h : ¬ p.Fits bytes.length) :
    p.taken bytes ≠ bytes := by
  unfold taken
  cases hroom : p.room? with
  | none => exact absurd (fits_of_room hroom _) h
  | some room =>
    intro htaken
    refine h fun n hn => ?_
    obtain rfl := Option.some.inj (hroom.symm.trans hn)
    rw [← htaken]
    exact List.length_take_le room bytes

/-- What happens on the stream at a write, the latest first. -/
def writeEvents (p : Peer) (bytes : List UInt8) : List Event :=
  (if p.Fits bytes.length then [] else [.writeFailed]) ++
    if (p.taken bytes).isEmpty then [] else [.write (p.taken bytes)]

/-- **What a write does.** -/
theorem write_eq (p : Peer) (bytes : List UInt8) :
    p.write bytes = (decide (p.Fits bytes.length), { p with
      room? := p.room?.map (· - bytes.length)
      past := (p.writeEvents bytes).map (p.clock, ·) ++ p.past }) := by
  obtain ⟨clock, arrivals, closesAt, room?, past⟩ := p
  cases room? with
  | none => by_cases hb : bytes = [] <;> simp [write, writeEvents, Fits, taken, record, hb]
  | some room =>
    by_cases hr : bytes.length ≤ room
    · have htake : bytes.take room = bytes := List.take_of_length_le hr
      by_cases hb : bytes = [] <;> simp [write, writeEvents, Fits, taken, record, hb, hr, htake]
    · by_cases hb : bytes.take room = [] <;>
        simp [write, writeEvents, Fits, taken, record, hb, hr] <;> omega

theorem write_fst (p : Peer) (bytes : List UInt8) :
    (p.write bytes).1 = decide (p.Fits bytes.length) := by
  rw [write_eq]

theorem write_nil (p : Peer) : p.write [] = (true, p) := by
  obtain ⟨clock, arrivals, closesAt, room?, past⟩ := p
  cases room? <;> rfl

theorem written_eq (p : Peer) : p.written = p.past.reverse.flatMap (·.2.taken) := by
  unfold written events
  congr 1
  funext e
  obtain ⟨time, e⟩ := e
  cases e <;> rfl

theorem written_record (p : Peer) (e : Event) : (p.record e).written = p.written ++ e.taken := by
  simp [written_eq, record]

/-- **What the server has taken after a write.** -/
theorem written_write (p : Peer) (bytes : List UInt8) :
    (p.write bytes).2.written = p.written ++ p.taken bytes := by
  rw [write_eq]
  by_cases hf : p.Fits bytes.length <;> by_cases hb : p.taken bytes = [] <;>
    simp [written_eq, writeEvents, Event.taken, hf, hb]

end Peer

end MudDialogue
