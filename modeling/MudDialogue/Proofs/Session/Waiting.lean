import MudDialogue.Proofs.Operation
import MudDialogue.Proofs.Session.Writing
import MudDialogue.Session.Basic

/-!
# How a wait goes

A wait goes round by round. In each round the backlog is searched; when no prompt is in it,
something is read, or the time is up, or the stream ends or fails. `Session.Waits` gives the rounds
as rules, with nothing said about the log: what a wait comes to does not depend on the log, only the
log on the wait. Every wait goes by these rules (`Session.waits_listenUntil`), and they leave no
choice (`Session.Waits.unique`).

## Main definitions

* `Session.unlogged` — a session without its log.
* `Session.hear` — the bytes of a read are taken up.
* `Session.Waits` — the rules of a wait.

## Main results

* `Session.waits_listenUntil` — a wait goes by the rules.
* `Session.Waits.unique` — the rules determine what a wait comes to.
-/

namespace MudDialogue

open Pattern

namespace Session

open Operation

/-- The session without its log. -/
def unlogged (s : Session) : Session := { s with past := [] }

/-- What an operation comes to, without the log. -/
def unloggedResult {α : Type} : EStateM.Result Failure Session α → EStateM.Result Failure Session α
  | .ok a s => .ok a s.unlogged
  | .error e s => .error e s.unlogged

/-- The session when `a` has arrived and `later` is still to come. -/
def reach (s : Session) (a : Arrival) (later : List Arrival) : Session :=
  { s with peer := { s.peer with arrivals := later }.waitUntil a.time }

/-- The session with something more that happened on the stream. -/
def record (s : Session) (e : Event) : Session := { s with peer := s.peer.record e }

/-- The session after some time has passed. -/
def waitUntil (s : Session) (time : Nat) : Session := { s with peer := s.peer.waitUntil time }

/-- Takes up the bytes of a read: refuses telnet options and keeps the rest, unless the server does
not take the refusals. The result tells whether it did. -/
def takeUp (s : Session) (bytes : List UInt8) : Bool × Session :=
  let (telnet, parted) := Telnet.part s.telnet bytes
  let (complete, peer) := s.peer.write parted.refusals
  (complete, { s with
    telnet, peer, backlog := if complete then s.backlog.extend parted.text else s.backlog })

/-- Takes up the bytes of `a`, with `later` still to come. -/
def hear (s : Session) (a : Arrival) (bytes : List UInt8) (later : List Arrival) : Bool × Session :=
  ((s.reach a later).record (.read bytes.length)).takeUp bytes

section Hear

variable (s : Session) (a : Arrival) (bytes : List UInt8) (later : List Arrival)

theorem peer_takeUp :
    (s.takeUp bytes).2.peer = (s.peer.write (Telnet.part s.telnet bytes).2.refusals).2 := rfl

@[simp] theorem clock_hear : (s.hear a bytes later).2.peer.clock = max s.peer.clock a.time := by
  rw [hear, peer_takeUp, Peer.write_eq]
  rfl

@[simp] theorem arrivals_hear : (s.hear a bytes later).2.peer.arrivals = later := by
  rw [hear, peer_takeUp, Peer.write_eq]
  rfl

@[simp] theorem closesAt_hear : (s.hear a bytes later).2.peer.closesAt = s.peer.closesAt := by
  rw [hear, peer_takeUp, Peer.write_eq]
  rfl

end Hear

/-- When the first of the arrivals comes, or the stream ends if there is none. -/
def nextTime (closesAt : Nat) : List Arrival → Nat
  | [] => closesAt
  | a :: _ => a.time

variable {τ : Type}

/-- The rules of a wait until a deadline: with some arrivals still to come, a session comes to a
result. -/
inductive Waits (prompts : Prompts τ) (deadline : Nat) :
    List Arrival → Session → EStateM.Result Failure Session (Option (Match τ)) → Prop where
  | found {arrivals s found backlog} (hsearch : s.backlog.search prompts = some (found, backlog)) :
      Waits prompts deadline arrivals s (.ok (some found) { s with backlog })
  | silence {arrivals s} (hsearch : s.backlog.search prompts = none)
      (hnext : deadline < nextTime s.peer.closesAt arrivals) :
      Waits prompts deadline arrivals s (.ok none (s.waitUntil deadline))
  | ended {s} (hsearch : s.backlog.search prompts = none) (hclose : s.peer.closesAt ≤ deadline) :
      Waits prompts deadline [] s (.error .closed ((s.waitUntil s.peer.closesAt).record .ended))
  | fault {a later s reason} (hsearch : s.backlog.search prompts = none) (ht : a.time ≤ deadline)
      (ha : a.delivery = .fault reason) :
      Waits prompts deadline (a :: later) s
        (.error (.stream reason) ((s.reach a later).record .readFailed))
  | unwritten {a later s bytes} (hsearch : s.backlog.search prompts = none) (ht : a.time ≤ deadline)
      (ha : a.delivery = .bytes bytes) (hwrite : (s.hear a bytes later).1 = false) :
      Waits prompts deadline (a :: later) s (.error peerGone (s.hear a bytes later).2)
  | bytes {a later s bytes result} (hsearch : s.backlog.search prompts = none)
      (ht : a.time ≤ deadline) (ha : a.delivery = .bytes bytes)
      (hwrite : (s.hear a bytes later).1 = true)
      (hrest : Waits prompts deadline later (s.hear a bytes later).2 result) :
      Waits prompts deadline (a :: later) s result

/-- **The rules leave no choice.** -/
theorem Waits.unique {prompts : Prompts τ} {deadline : Nat} {arrivals : List Arrival} {s : Session}
    {r q : EStateM.Result Failure Session (Option (Match τ))}
    (hr : Waits prompts deadline arrivals s r) (hq : Waits prompts deadline arrivals s q) :
    r = q := by
  induction hr with
  | found hsearch => cases hq <;> simp_all
  | silence hsearch hnext =>
    cases hq with
    | found hsearch' => simp_all
    | silence => rfl
    | ended _ hclose => exact absurd hclose (Nat.not_le_of_lt hnext)
    | fault _ ht | unwritten _ ht | bytes _ ht => exact absurd ht (Nat.not_le_of_lt hnext)
  | ended hsearch hclose =>
    cases hq with
    | silence _ hnext => exact absurd hclose (Nat.not_le_of_lt hnext)
    | _ => simp_all
  | fault hsearch ht ha =>
    cases hq with
    | silence _ hnext => exact absurd ht (Nat.not_le_of_lt hnext)
    | _ => simp_all
  | unwritten hsearch ht ha hwrite =>
    cases hq with
    | silence _ hnext => exact absurd ht (Nat.not_le_of_lt hnext)
    | _ => simp_all
  | bytes hsearch ht ha hwrite hrest ih =>
    cases hq with
    | bytes hsearch' ht' ha' hwrite' hrest' =>
      obtain rfl := Delivery.bytes.inj (ha.symm.trans ha')
      exact ih hrest'
    | silence hsearch' hnext => exact absurd ht (Nat.not_le_of_lt hnext)
    | _ => simp_all

/-! ### The rules are kept -/

theorem eq_ok_of_unloggedResult {α : Type} {r : EStateM.Result Failure Session α} {x : α}
    {u : Session} (h : unloggedResult r = .ok x u) : ∃ t, r = .ok x t ∧ t.unlogged = u := by
  cases r with
  | ok y t =>
    obtain ⟨rfl, rfl⟩ := EStateM.Result.ok.inj h
    exact ⟨t, rfl, rfl⟩
  | error e t => cases h

theorem eq_error_of_unloggedResult {α : Type} {r : EStateM.Result Failure Session α} {e : Failure}
    {u : Session} (h : unloggedResult r = .error e u) : ∃ t, r = .error e t ∧ t.unlogged = u := by
  cases r with
  | ok y t => cases h
  | error e' t =>
    obtain ⟨rfl, rfl⟩ := EStateM.Result.error.inj h
    exact ⟨t, rfl, rfl⟩

theorem write_eq (bytes : List UInt8) (s : Session) :
    Session.write bytes s =
      if (s.peer.write bytes).1 then .ok () { s with peer := (s.peer.write bytes).2 }
      else .error peerGone { s with peer := (s.peer.write bytes).2 } := by
  simp only [Session.write, bind_apply, get_apply, set_apply]
  cases (s.peer.write bytes).1 <;> rfl

/-- A line is logged, or that there is a secret one, and then written with its end. -/
theorem line_eq (message line : String) (s : Session) :
    (do note .debug message; writeLine line : SessionM Unit) s =
      Session.write (Text.Utf8.bytes line ++ Text.Utf8.bytes s.settings.lineEnding)
        { s with past := (.debug, message) :: s.past } := rfl

theorem unlogged_receive (bytes : List UInt8) (s : Session) :
    unloggedResult (receive bytes s) = match s.unlogged.takeUp bytes with
      | (true, t) => .ok () t
      | (false, t) => .error peerGone t := by
  simp only [receive, note, bind_apply, get_apply, modify_apply, Telnet.partRead_eq]
  by_cases h : (Telnet.part s.telnet bytes).2.refusals = []
  · simp [h, takeUp, Peer.write_nil, unloggedResult, unlogged, modify_apply]
  · simp only [h, List.isEmpty_iff, ↓reduceIte, bind_apply, modify_apply, write_eq]
    cases hw : (s.peer.write (Telnet.part s.telnet bytes).2.refusals).1 <;>
      simp [takeUp, unloggedResult, unlogged, hw]

/-- What a read comes to. -/
theorem unlogged_read (a : Arrival) (later : List Arrival) (s : Session) :
    unloggedResult (Session.read a later s) = match a.delivery with
      | .bytes bytes => match s.unlogged.hear a bytes later with
        | (true, t) => .ok () t
        | (false, t) => .error peerGone t
      | .fault reason =>
        .error (.stream reason) ((s.unlogged.reach a later).record .readFailed) := by
  simp only [Session.read, onPeer, bind_apply, modify_apply]
  cases a.delivery with
  | bytes bytes => exact unlogged_receive bytes _
  | fault reason => rfl

section Rounds

variable [ToString τ] {prompts : Prompts τ} {s : Session}

theorem recognise_of_none (h : s.backlog.search prompts = none) :
    recognise prompts s = .ok none s := by
  simp only [recognise, bind_apply, get_apply, h]
  rfl

theorem recognise_of_some {found : Match τ} {backlog : Backlog}
    (h : s.backlog.search prompts = some (found, backlog)) :
    recognise prompts s = .ok (some found) { s with
      backlog
      past := (.debug, "matched " ++ toString found.tag ++ ": " ++
        Text.Quoted.quote found.matched) :: s.past } := by
  simp only [recognise, bind_apply, get_apply, h]
  rfl

/-- **A wait goes by the rules.** -/
theorem waits_listenUntil (prompts : Prompts τ) (wait deadline : Nat) (arrivals : List Arrival)
    (s : Session) :
    Waits prompts deadline arrivals s.unlogged
      (unloggedResult (listenUntil prompts wait deadline arrivals s)) := by
  induction arrivals generalizing s with
  | nil =>
    rw [listenUntil, bind_apply]
    cases h : s.backlog.search prompts with
    | some found =>
      rw [recognise_of_some h]
      exact .found h
    | none =>
      rw [recognise_of_none h]
      simp only [bind_apply, get_apply]
      by_cases hc : s.peer.closesAt ≤ deadline
      · simp only [hc, ↓reduceIte]
        exact .ended h hc
      · simp only [hc, ↓reduceIte]
        exact .silence h (Nat.lt_of_not_le hc)
  | cons a later ih =>
    rw [listenUntil, bind_apply]
    cases h : s.backlog.search prompts with
    | some found =>
      rw [recognise_of_some h]
      exact .found h
    | none =>
      rw [recognise_of_none h]
      by_cases ht : a.time ≤ deadline
      · simp only [ht, ↓reduceIte, bind_apply]
        have hread := unlogged_read a later s
        cases ha : a.delivery with
        | fault reason =>
          simp only [ha] at hread
          obtain ⟨t, hr, ht'⟩ := eq_error_of_unloggedResult hread
          rw [hr]
          simpa only [unloggedResult, ht'] using Waits.fault (s := s.unlogged) h ht ha
        | bytes bytes =>
          rcases hw : s.unlogged.hear a bytes later with ⟨_ | _, u⟩
          · simp only [ha, hw] at hread
            obtain ⟨t, hr, ht'⟩ := eq_error_of_unloggedResult hread
            rw [hr]
            simpa only [unloggedResult, ht', hw] using
              Waits.unwritten (s := s.unlogged) h ht ha (congrArg Prod.fst hw)
          · simp only [ha, hw] at hread
            obtain ⟨t, hr, ht'⟩ := eq_ok_of_unloggedResult hread
            rw [hr]
            refine .bytes h ht ha (congrArg Prod.fst hw) ?_
            rw [hw, ← ht']
            exact ih t
      · simp only [ht, ↓reduceIte]
        exact .silence h (Nat.lt_of_not_le ht)

/-- A wait of so many milliseconds goes by the rules until the deadline. -/
theorem waits_listenFor (prompts : Prompts τ) (wait : Nat) (s : Session) :
    Waits prompts (s.peer.clock + wait) s.peer.arrivals s.unlogged
      (unloggedResult (listenFor prompts wait s)) :=
  waits_listenUntil prompts wait (s.peer.clock + wait) s.peer.arrivals s

theorem listen_eq (prompts : Prompts τ) (s : Session) :
    listen prompts s = listenFor prompts s.settings.timeout s := by
  rw [listen]
  exact bind_of_ok (get_apply s)

end Rounds

end Session

end MudDialogue
