import MudDialogue.Proofs.Session.Waiting

/-!
# A session and what the server is going to do

A session can be put in front of a server that acts as a script says from now on. Whatever the
script, its arrivals are in order of time, and a failing read of the script is one of its arrivals;
without it the others arrive as before.

## Main definitions

* `InOrder` — arrivals that never go back in time.
* `Peer.readsOf` — the reads of what is sent piece by piece.
* `Peer.arrivalsAt` — reads that can all be made from the same time on.
* `Session.facing` — a session with a script still to come.

## Main results

* `inOrder_timeline` — the arrivals of a script are in order.
* `timeline_append` — one script after the other.
* `timeline_send` — what is sent without a wait is all there at once.
* `exists_fault_of_timeline` — a read that fails is a part of the script.
-/

namespace MudDialogue

open Session

/-- From the time `now` on, the arrivals and the end of the stream never go back in time. -/
def InOrder (now closesAt : Nat) : List Arrival → Prop
  | [] => now ≤ closesAt
  | a :: later => now ≤ a.time ∧ InOrder a.time closesAt later

theorem InOrder.le_nextTime {now closesAt : Nat} {arrivals : List Arrival}
    (h : InOrder now closesAt arrivals) : now ≤ nextTime closesAt arrivals := by
  cases arrivals with
  | nil => exact h
  | cons a later => exact h.1

theorem InOrder.of_le {now earlier closesAt : Nat} {arrivals : List Arrival}
    (h : InOrder now closesAt arrivals) (hle : earlier ≤ now) :
    InOrder earlier closesAt arrivals := by
  cases arrivals with
  | nil => exact Nat.le_trans hle h
  | cons a later => exact ⟨Nat.le_trans hle h.1, h.2⟩

/-- Several arrivals at once may stand in front of later ones. -/
theorem InOrder.append_of_eq {now closesAt : Nat} {first later : List Arrival}
    (h : InOrder now closesAt later) (hfirst : ∀ a ∈ first, a.time = now) :
    InOrder now closesAt (first ++ later) := by
  induction first with
  | nil => exact h
  | cons a first ih =>
    have ha : a.time = now := hfirst a List.mem_cons_self
    refine ⟨Nat.le_of_eq ha.symm, ?_⟩
    rw [ha]
    exact ih fun b hb => hfirst b (List.mem_cons_of_mem a hb)

namespace Peer

/-- **The arrivals of a script are in order.** -/
theorem inOrder_timeline (now : Nat) (script : List ServerAct) :
    InOrder now (timeline now script).2 (timeline now script).1 := by
  induction script generalizing now with
  | nil => exact Nat.le_refl now
  | cons act script ih =>
    cases act with
    | send bytes =>
      refine (ih now).append_of_eq fun a ha => ?_
      obtain ⟨r, -, rfl⟩ := List.mem_map.mp ha
      rfl
    | wait n => exact (ih (now + n)).of_le (Nat.le_add_right now n)
    | fault reason => exact ⟨Nat.le_refl now, ih now⟩

/-- **One script after the other.** The second one starts when the first one is done. -/
theorem timeline_append (now : Nat) (before after : List ServerAct) :
    timeline now (before ++ after) =
      ((timeline now before).1 ++ (timeline (timeline now before).2 after).1,
        (timeline (timeline now before).2 after).2) := by
  induction before generalizing now with
  | nil => rfl
  | cons act before ih =>
    cases act <;> simp [timeline, ih]

/-- The reads of what is sent piece by piece. -/
def readsOf (pieces : List (List UInt8)) : List (List UInt8) := pieces.flatMap reads

theorem flatten_reads (bytes : List UInt8) : (reads bytes).flatten = bytes := by
  have htake (count : Nat) : ((List.range count).map fun i =>
      (bytes.drop (i * readSize)).take readSize).flatten = bytes.take (count * readSize) := by
    induction count with
    | zero => rw [Nat.zero_mul]; rfl
    | succ count ih =>
      rw [List.range_succ, List.map_append, List.flatten_append, ih, Nat.succ_mul, List.take_add]
      exact congrArg _ (List.append_nil _)
  refine (htake _).trans (List.take_of_length_le ?_)
  unfold readSize
  omega

/-- The reads bring what is sent. -/
theorem flatten_readsOf (pieces : List (List UInt8)) :
    (readsOf pieces).flatten = pieces.flatten := by
  induction pieces with
  | nil => rfl
  | cons piece pieces ih =>
    rw [readsOf, List.flatMap_cons, List.flatten_append, flatten_reads]
    exact congrArg (piece ++ ·) ih

/-- Reads that can all be made from the same time on. -/
def arrivalsAt (now : Nat) (reads : List (List UInt8)) : List Arrival :=
  reads.map fun read => ⟨now, .bytes read⟩

theorem arrivalsAt_cons (now : Nat) (read : List UInt8) (reads : List (List UInt8)) :
    arrivalsAt now (read :: reads) = ⟨now, .bytes read⟩ :: arrivalsAt now reads := rfl

theorem arrivalsAt_append (now : Nat) (first rest : List (List UInt8)) :
    arrivalsAt now (first ++ rest) = arrivalsAt now first ++ arrivalsAt now rest :=
  List.map_append

/-- What is sent without a wait is all there at once. -/
theorem timeline_send (now : Nat) (pieces : List (List UInt8)) :
    timeline now (pieces.map .send) = (arrivalsAt now (readsOf pieces), now) := by
  induction pieces with
  | nil => rfl
  | cons piece pieces ih =>
    have hreads : readsOf (piece :: pieces) = reads piece ++ readsOf pieces := List.flatMap_cons
    rw [List.map_cons, timeline, ih, hreads, arrivalsAt_append]
    rfl

/-- A read that fails is none of those that bytes make. -/
theorem exists_of_append_fault {first rest heard later : List Arrival} {time : Nat}
    {reason : String} (hfirst : ∀ a ∈ first, ∃ bytes, a.delivery = .bytes bytes)
    (h : first ++ rest = heard ++ ⟨time, .fault reason⟩ :: later) :
    ∃ more, heard = first ++ more ∧ rest = more ++ ⟨time, .fault reason⟩ :: later := by
  induction first generalizing heard with
  | nil => exact ⟨heard, rfl, h⟩
  | cons a first ih =>
    cases heard with
    | nil =>
      obtain ⟨bytes, hbytes⟩ := hfirst a List.mem_cons_self
      cases (List.cons.inj h).1
      cases hbytes
    | cons b heard =>
      obtain ⟨rfl, hrest⟩ := List.cons.inj h
      obtain ⟨more, rfl, hmore⟩ := ih (fun c hc => hfirst c (List.mem_cons_of_mem _ hc)) hrest
      exact ⟨more, rfl, hmore⟩

/-- **A read that fails is a part of the script.** What arrives before it and after it are the parts
of the script before and after. -/
theorem exists_fault_of_timeline {now time : Nat} {script : List ServerAct} {reason : String}
    {heard later : List Arrival}
    (h : (timeline now script).1 = heard ++ ⟨time, .fault reason⟩ :: later) :
    ∃ before after, script = before ++ .fault reason :: after ∧
      (timeline now before).1 = heard ∧ (timeline now before).2 = time ∧
      (timeline time after).1 = later := by
  induction script generalizing now heard with
  | nil => simp [timeline] at h
  | cons act script ih =>
    cases act with
    | send bytes =>
      obtain ⟨more, rfl, hmore⟩ := exists_of_append_fault (fun a ha => by
        obtain ⟨r, -, rfl⟩ := List.mem_map.mp ha
        exact ⟨r, rfl⟩) h
      obtain ⟨before, after, rfl, rfl, hb⟩ := ih hmore
      exact ⟨.send bytes :: before, after, rfl, rfl, hb⟩
    | wait n =>
      obtain ⟨before, after, rfl, hb⟩ := ih h
      exact ⟨.wait n :: before, after, rfl, hb⟩
    | fault r =>
      cases heard with
      | nil =>
        obtain ⟨h₁, rfl⟩ := List.cons.inj h
        cases h₁
        exact ⟨[], script, rfl, rfl, rfl, rfl⟩
      | cons a heard =>
        obtain ⟨rfl, h₂⟩ := List.cons.inj h
        obtain ⟨before, after, rfl, rfl, hb⟩ := ih h₂
        exact ⟨.fault r :: before, after, rfl, rfl, hb⟩

end Peer

/-- The session in front of a server that acts as `script` says from now on. -/
def Session.facing (s : Session) (script : List ServerAct) : Session :=
  { s with peer := { s.peer with
      arrivals := (Peer.timeline s.peer.clock script).1
      closesAt := (Peer.timeline s.peer.clock script).2 } }

end MudDialogue
