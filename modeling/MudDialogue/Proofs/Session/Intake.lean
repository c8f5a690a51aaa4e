import MudDialogue.Proofs.Session.Script

/-!
# What a session takes in

The first reads that a session makes bring it to a state that can be computed from their bytes
alone: the telnet commands are taken out of each of them, the rest goes to the backlog, and the
refusals go to the server. As long as nothing is recognised and the server takes the refusals, a
wait comes to what it comes to from that state on.

## Main definitions

* `Session.intake` — what the bytes of the first reads make of a session.
* `Session.Takes` — the first reads bring bytes, and they are in time.
* `Session.Took` — how a session is after the first reads.

## Main results

* `Session.exists_took` — a wait makes its reads.
-/

namespace MudDialogue.Session

open Pattern

/-- What is made of the bytes that were read. -/
structure Intake where
  /-- Where the stream stands between telnet commands. -/
  telnet : Telnet.Mode
  /-- The output that was received. -/
  backlog : Backlog
  /-- The refusals of telnet options, in order. -/
  refusals : List UInt8

/-- Adds what one read brings. -/
def Intake.add (i : Intake) : Delivery → Intake
  | .bytes bytes =>
    let (telnet, parted) := Telnet.part i.telnet bytes
    ⟨telnet, i.backlog.extend parted.text, i.refusals ++ parted.refusals⟩
  | .fault _ => i

/-- What the first `k` reads make of a session. -/
def intake (s : Session) (k : Nat) : Intake :=
  (s.peer.arrivals.take k).foldl (fun i a => i.add a.delivery) ⟨s.telnet, s.backlog, []⟩

/-- The time at which the `k`-th read can be made; before the first one this is the present. -/
def readyAt (s : Session) : Nat → Nat
  | 0 => s.peer.clock
  | k + 1 => (s.peer.arrivals[k]?.map Arrival.time).getD s.peer.clock

/-- The read with index `i` brings bytes, and that by the deadline. -/
def InTime (s : Session) (deadline i : Nat) : Prop :=
  ∃ a bytes, s.peer.arrivals[i]? = some a ∧ a.delivery = .bytes bytes ∧ a.time ≤ deadline

/-- The first `k` reads bring bytes by the deadline. -/
def Takes (s : Session) (deadline k : Nat) : Prop := ∀ i < k, s.InTime deadline i

variable {s t : Session} {deadline k : Nat}

theorem intake_zero (s : Session) : s.intake 0 = ⟨s.telnet, s.backlog, []⟩ := rfl

theorem intake_succ {a : Arrival} (h : s.peer.arrivals[k]? = some a) :
    s.intake (k + 1) = (s.intake k).add a.delivery := by
  simp [intake, List.take_add_one, h]

theorem length_refusals_le {a : Arrival} (h : s.peer.arrivals[k]? = some a) :
    (s.intake k).refusals.length ≤ (s.intake (k + 1)).refusals.length := by
  rw [intake_succ h]
  cases a.delivery with
  | bytes bytes => simp [Intake.add]
  | fault reason => exact Nat.le_refl _

theorem readyAt_succ {a : Arrival} (h : s.peer.arrivals[k]? = some a) :
    s.readyAt (k + 1) = a.time := by
  simp [readyAt, h]

/-- What is behind the first reads is in order, too. -/
theorem inOrder_drop (horder : InOrder s.peer.clock s.peer.closesAt s.peer.arrivals)
    (hk : k ≤ s.peer.arrivals.length) :
    InOrder (s.readyAt k) s.peer.closesAt (s.peer.arrivals.drop k) := by
  induction k with
  | zero => exact horder
  | succ k ih =>
    have hlt : k < s.peer.arrivals.length := hk
    have hrest := ih (Nat.le_of_lt hlt)
    rw [List.drop_eq_getElem_cons hlt] at hrest
    rw [readyAt_succ (List.getElem?_eq_getElem hlt)]
    exact hrest.2

theorem Takes.mono (h : s.Takes deadline k) {j : Nat} (hj : j ≤ k) : s.Takes deadline j :=
  fun i hi => h i (Nat.lt_of_lt_of_le hi hj)

theorem Takes.le_length (h : s.Takes deadline k) : k ≤ s.peer.arrivals.length := by
  cases k with
  | zero => exact Nat.zero_le _
  | succ k =>
    obtain ⟨a, bytes, hget, -⟩ := h k (Nat.lt_succ_self k)
    exact (List.getElem?_eq_some_iff.mp hget).1

/-- The reads that are made are in time. -/
theorem Takes.readyAt_le (h : s.Takes deadline k) (hclock : s.peer.clock ≤ deadline) :
    s.readyAt k ≤ deadline := by
  cases k with
  | zero => exact hclock
  | succ k =>
    obtain ⟨a, bytes, hget, -, htime⟩ := h k (Nat.lt_succ_self k)
    rwa [readyAt_succ hget]

/-! ### One read -/

section Hear

variable (s : Session) (a : Arrival) (bytes : List UInt8) (later : List Arrival)

theorem hear_fst : (s.hear a bytes later).1 =
    decide (s.peer.Fits (Telnet.part s.telnet bytes).2.refusals.length) :=
  Peer.write_fst ..

theorem telnet_hear : (s.hear a bytes later).2.telnet = (Telnet.part s.telnet bytes).1 := rfl

theorem backlog_hear (h : (s.hear a bytes later).1 = true) :
    (s.hear a bytes later).2.backlog = s.backlog.extend (Telnet.part s.telnet bytes).2.text :=
  if_pos h

theorem room_hear : (s.hear a bytes later).2.peer.room? =
    s.peer.room?.map (· - (Telnet.part s.telnet bytes).2.refusals.length) := by
  rw [hear, peer_takeUp, Peer.write_eq]
  rfl

theorem written_hear : (s.hear a bytes later).2.peer.written =
    s.peer.written ++ s.peer.taken (Telnet.part s.telnet bytes).2.refusals := by
  rw [hear, peer_takeUp, Peer.written_write, record, Peer.written_record]
  exact congrArg (· ++ _) (List.append_nil _)

end Hear

/-! ### Several reads -/

/-- How a session is after its first `k` reads. -/
structure Took (s : Session) (k : Nat) (t : Session) : Prop where
  telnet : t.telnet = (s.intake k).telnet
  backlog : t.backlog = (s.intake k).backlog
  clock : t.peer.clock = s.readyAt k
  arrivals : t.peer.arrivals = s.peer.arrivals.drop k
  closesAt : t.peer.closesAt = s.peer.closesAt
  room : t.peer.room? = s.peer.room?.map (· - (s.intake k).refusals.length)
  written : t.peer.written = s.peer.written ++ (s.intake k).refusals

theorem Took.zero (s : Session) : s.Took 0 s where
  telnet := rfl
  backlog := rfl
  clock := rfl
  arrivals := rfl
  closesAt := rfl
  room := by simp [intake_zero]
  written := (List.append_nil _).symm

/-- One more read, whose refusals the server takes. -/
theorem Took.succ (h : s.Took k t) {a : Arrival} {bytes : List UInt8}
    (hget : s.peer.arrivals[k]? = some a) (ha : a.delivery = .bytes bytes)
    (htime : s.readyAt k ≤ a.time) (hfits : s.peer.Fits (s.intake (k + 1)).refusals.length) :
    (t.hear a bytes (s.peer.arrivals.drop (k + 1))).1 = true ∧
      s.Took (k + 1) (t.hear a bytes (s.peer.arrivals.drop (k + 1))).2 := by
  have hintake : s.intake (k + 1) = (s.intake k).add (.bytes bytes) := ha ▸ intake_succ hget
  have hroom : t.peer.Fits (Telnet.part t.telnet bytes).2.refusals.length := by
    rw [hintake, Intake.add, List.length_append, ← h.telnet] at hfits
    exact hfits.of_add h.room
  have hwrite : (t.hear a bytes (s.peer.arrivals.drop (k + 1))).1 = true := by
    rw [hear_fst, decide_eq_true hroom]
  refine ⟨hwrite, ?_⟩
  constructor
  · rw [telnet_hear, hintake, h.telnet]
    rfl
  · rw [backlog_hear _ _ _ _ hwrite, hintake, h.telnet, h.backlog]
    rfl
  · rw [clock_hear, h.clock, readyAt_succ hget, Nat.max_eq_right htime]
  · exact arrivals_hear ..
  · rw [closesAt_hear, h.closesAt]
  · rw [room_hear, h.room, hintake, h.telnet, Option.map_map]
    simp only [Intake.add, List.length_append, ← Nat.sub_sub]
    rfl
  · rw [written_hear, Peer.taken_of_fits hroom, h.written, hintake, h.telnet, List.append_assoc]
    rfl

/-- **A wait makes its reads.** As long as nothing is recognised, the first reads are in time and
the server takes the refusals, a wait goes on from how the session is then. -/
theorem exists_took {τ : Type} {prompts : Prompts τ}
    (horder : InOrder s.peer.clock s.peer.closesAt s.peer.arrivals) (htakes : s.Takes deadline k)
    (hnone : ∀ j < k, prompts.find (s.intake j).backlog.content = none)
    (hfits : s.peer.Fits (s.intake k).refusals.length) :
    ∃ t, s.Took k t ∧ ∀ {r}, Waits prompts deadline (s.peer.arrivals.drop k) t r →
      Waits prompts deadline s.peer.arrivals s r := by
  -- One more read is the last one, not the first: the reads before it are those of `s` still.
  induction k with
  | zero => exact ⟨s, .zero s, fun h => h⟩
  | succ k ih =>
    obtain ⟨a, bytes, hget, ha, htime⟩ := htakes k (Nat.lt_succ_self k)
    obtain ⟨hlt, hdrop⟩ : ∃ _ : k < s.peer.arrivals.length,
        s.peer.arrivals.drop k = a :: s.peer.arrivals.drop (k + 1) := by
      obtain ⟨hlt, rfl⟩ := List.getElem?_eq_some_iff.mp hget
      exact ⟨hlt, List.drop_eq_getElem_cons hlt⟩
    have hbefore := inOrder_drop horder (Nat.le_of_lt hlt)
    rw [hdrop] at hbefore
    obtain ⟨t, htook, hrest⟩ := ih (htakes.mono (Nat.le_succ k))
      (fun j hj => hnone j (Nat.lt_succ_of_lt hj)) (hfits.mono (length_refusals_le hget))
    obtain ⟨hwrite, hnext⟩ := htook.succ hget ha hbefore.1 hfits
    refine ⟨_, hnext, fun hr => hrest ?_⟩
    rw [hdrop]
    refine .bytes ?_ htime ha hwrite hr
    rw [Backlog.search, htook.backlog, hnone k (Nat.lt_succ_self k)]
    rfl

end MudDialogue.Session
