import MudDialogue.Proofs.Client.Bisimulation
import MudDialogue.Proofs.Session.Writing
import MudDialogue.Proofs.Session.Waiting

/-!
# What a secret changes in a session

A secret that is sent goes to the server and nowhere else. Two sessions with different secrets are
the same but for the record of what the server has taken, and the two records differ in the secrets
alone. This stays so whatever is done with the two sessions, as long as the server cannot tell the
secrets apart by their lengths: it takes everything, or the secrets are equally long.

## Main definitions

* `Peer.SameBut` — two records of what happened that are the same but for a secret.
* `Session.SameBut` — two sessions that are the same but for the secrets in their records.

## Main results

* `Session.isBisimulation_sameBut` — whatever is done with the sessions, nothing else changes.
-/

namespace MudDialogue

open Text Pattern Operation

/-- Of two records of what happened on a stream, the latest first, one is the other with `y` written
wherever `x` is written as a secret in the one. What the server takes of a secret depends on how
much it takes at all. -/
inductive Peer.SameBut (x y : List UInt8) : List (Nat × Event) → List (Nat × Event) → Prop where
  | nil : SameBut x y [] []
  | event (e : Nat × Event) {past past'} (h : SameBut x y past past') :
      SameBut x y (e :: past) (e :: past')
  | secret (p : Peer) {past past'} (h : SameBut x y past past') :
      SameBut x y ((p.writeEvents x).map (p.clock, ·) ++ past)
        ((p.writeEvents y).map (p.clock, ·) ++ past')

namespace Peer.SameBut

variable {x y : List UInt8}

theorem refl (past : List (Nat × Event)) : SameBut x y past past := by
  induction past with
  | nil => exact .nil
  | cons e past ih => exact .event e ih

theorem append {past past' : List (Nat × Event)} (h : SameBut x y past past')
    (events : List (Nat × Event)) : SameBut x y (events ++ past) (events ++ past') := by
  induction events with
  | nil => exact h
  | cons e events ih => exact .event e ih

end Peer.SameBut

namespace Session

/-- The session with another record of what happened on the stream. -/
def retold (s : Session) (past : List (Nat × Event)) : Session :=
  { s with peer := { s.peer with past } }

/-- A secret as it goes over the stream. -/
def secretLine (s : Session) (secret : String) : List UInt8 :=
  Utf8.bytes secret ++ Utf8.bytes s.settings.lineEnding

/-- Two sessions are the same but for the secrets `p` and `q` in the records of what happened. The
secrets are equally long unless the server takes everything. -/
inductive SameBut (p q : String) (s : Session) : Session → Prop where
  | intro {past} (h : Peer.SameBut (s.secretLine p) (s.secretLine q) s.peer.past past)
      (hroom : s.peer.room? = none ∨ (Utf8.bytes p).length = (Utf8.bytes q).length) :
      SameBut p q s (s.retold past)

variable {p q : String}

/-- A session is the same as itself. -/
theorem SameBut.refl {s : Session}
    (hroom : s.peer.room? = none ∨ (Utf8.bytes p).length = (Utf8.bytes q).length) :
    s.SameBut p q s :=
  .intro (.refl _) hroom

namespace SameBut

variable {s t : Session}

theorem note (h : s.SameBut p q t) (level : Level) (message : String) :
    SameBut p q { s with past := (level, message) :: s.past }
      { t with past := (level, message) :: t.past } := by
  obtain ⟨h, hroom⟩ := h
  exact .intro h hroom

theorem reach (h : s.SameBut p q t) (a : Arrival) (later : List Arrival) :
    (s.reach a later).SameBut p q (t.reach a later) := by
  obtain ⟨h, hroom⟩ := h
  exact .intro h hroom

theorem waitUntil (h : s.SameBut p q t) (time : Nat) :
    (s.waitUntil time).SameBut p q (t.waitUntil time) := by
  obtain ⟨h, hroom⟩ := h
  exact .intro h hroom

theorem record (h : s.SameBut p q t) (e : Event) : (s.record e).SameBut p q (t.record e) := by
  obtain ⟨h, hroom⟩ := h
  exact .intro (.event _ h) hroom

end SameBut

/-! ### What is done with two sessions -/

/-- Two operations come to the same but for the secrets. -/
abbrev AlikeBut (p q : String) {α : Type} (x y : SessionM α) : Prop :=
  Alike (SameBut p q) (fun _ => SameBut p q) x y

theorem alikeBut_note (level : Level) (message : String) :
    AlikeBut p q (note level message) (note level message) :=
  .modify fun _ _ h => h.note level message

/-- The server cannot tell two writes apart by what it has room for. -/
theorem fits_and_room_eq {s : Session} {x y : List UInt8}
    (hlength : s.peer.room? = none ∨ x.length = y.length) :
    (s.peer.Fits x.length ↔ s.peer.Fits y.length) ∧
      s.peer.room?.map (· - x.length) = s.peer.room?.map (· - y.length) := by
  rcases hlength with hnone | hlength
  · simp [Peer.Fits, hnone]
  · simp [hlength]

/-- Bytes are written to the one server, and to the other one the same or the other secret. -/
theorem SameBut.write {s t : Session} (h : s.SameBut p q t) {x y : List UInt8}
    (hlength : s.peer.room? = none ∨ x.length = y.length)
    (hevents : ∀ {past past'}, Peer.SameBut (s.secretLine p) (s.secretLine q) past past' →
      Peer.SameBut (s.secretLine p) (s.secretLine q)
        ((s.peer.writeEvents x).map (s.peer.clock, ·) ++ past)
        ((s.peer.writeEvents y).map (s.peer.clock, ·) ++ past')) :
    Agree (SameBut p q) (fun _ => SameBut p q) (Session.write x s) (Session.write y t) := by
  obtain @⟨past, h, hroom⟩ := h
  obtain ⟨hfits, hroom'⟩ := fits_and_room_eq hlength
  have hcomplete : ((s.retold past).peer.write y).1 = (s.peer.write x).1 := by
    rw [Peer.write_eq, Peer.write_eq]
    exact decide_eq_decide.mpr hfits.symm
  have hkept : SameBut p q { s with peer := (s.peer.write x).2 }
      { s.retold past with peer := ((s.retold past).peer.write y).2 } := by
    have htold : { s.retold past with peer := ((s.retold past).peer.write y).2 } =
        ({ s with peer := (s.peer.write x).2 } : Session).retold
          ((s.peer.writeEvents y).map (s.peer.clock, ·) ++ past) := by
      rw [Peer.write_eq, Peer.write_eq, hroom']
      rfl
    rw [htold, Peer.write_eq]
    exact .intro (hevents h) (hroom.imp_left fun hnone => by simp [hnone])
  rw [write_eq, write_eq, hcomplete]
  split
  · exact .ok hkept
  · exact .error hkept

theorem alikeBut_write (bytes : List UInt8) : AlikeBut p q (write bytes) (write bytes) :=
  fun _ _ h => h.write (.inr rfl) fun hpast => hpast.append _

theorem alikeBut_writeLine (line : String) :
    AlikeBut p q (writeLine line) (writeLine line) := by
  refine .get_bind ?_
  rintro s _ ⟨h, hroom⟩
  exact alikeBut_write _ _ _ (.intro h hroom)

/-- The one secret is written to the one server, and the other to the other one. -/
theorem alikeBut_writeLine_secret : AlikeBut p q (writeLine p) (writeLine q) := by
  refine .get_bind ?_
  rintro s _ ⟨h, hroom⟩
  refine (SameBut.intro h hroom).write ?_ fun hpast => .secret s.peer hpast
  exact hroom.imp_right fun hlength => by simp [retold, hlength]

theorem alikeBut_receive (bytes : List UInt8) :
    AlikeBut p q (receive bytes) (receive bytes) := by
  refine .bind (alikeBut_note _ _) fun _ => .get_bind ?_
  rintro s t h
  have htelnet : t.telnet = s.telnet := by
    obtain ⟨-, -⟩ := h
    rfl
  rw [htelnet]
  rcases Telnet.partRead s.telnet bytes with ⟨telnet, parted⟩
  have hmode : AlikeBut p q (modify fun s : Session => { s with telnet })
      (modify fun s : Session => { s with telnet }) := .modify fun _ _ ⟨h, hroom⟩ => .intro h hroom
  have hbacklog : AlikeBut p q
      (modify fun s : Session => { s with backlog := s.backlog.extend parted.text })
      (modify fun s : Session => { s with backlog := s.backlog.extend parted.text }) :=
    .modify fun _ _ ⟨h, hroom⟩ => .intro h hroom
  refine Alike.bind hmode (fun _ => ?_) s t h
  cases parted.refusals.isEmpty with
  | true => exact hbacklog
  | false =>
    exact .bind (alikeBut_note _ _) fun _ => .bind (alikeBut_write _) fun _ => hbacklog

theorem alikeBut_read (a : Arrival) (later : List Arrival) :
    AlikeBut p q (Session.read a later) (Session.read a later) := by
  refine .bind (.modify fun _ _ h => h.reach a later) fun _ => ?_
  cases a.delivery with
  | bytes bytes =>
    exact .bind (.modify fun _ _ h => h.record _) fun _ => alikeBut_receive bytes
  | fault reason =>
    exact .bind (.modify fun _ _ h => h.record _) fun _ => fun _ _ h => .error h

theorem alikeBut_readEnd : AlikeBut p q readEnd readEnd := by
  refine .bind (.modify ?_) fun _ => .bind (alikeBut_note _ _) fun _ => fun _ _ h => .error h
  rintro s _ ⟨h, hroom⟩
  exact ((SameBut.intro h hroom).waitUntil _).record .ended

theorem alikeBut_giveUp (wait deadline : Nat) :
    AlikeBut p q (giveUp wait deadline) (giveUp wait deadline) := by
  refine .bind (.modify fun _ _ h => h.waitUntil deadline) fun _ => .get_bind ?_
  rintro s _ ⟨h, hroom⟩
  exact alikeBut_note _ _ _ _ (.intro h hroom)

section Waiting

variable {τ : Type} [ToString τ] (prompts : Prompts τ)

theorem alikeBut_recognise : AlikeBut p q (recognise prompts) (recognise prompts) := by
  rintro s t h
  have hbacklog : t.backlog = s.backlog := by
    obtain ⟨-, -⟩ := h
    rfl
  cases hsearch : s.backlog.search prompts with
  | none =>
    rw [recognise_of_none hsearch, recognise_of_none (hbacklog ▸ hsearch)]
    exact .ok h
  | some found =>
    rw [recognise_of_some hsearch, recognise_of_some (hbacklog ▸ hsearch)]
    obtain ⟨h, hroom⟩ := h
    exact .ok (.intro h hroom)

theorem alikeBut_listenUntil (wait deadline : Nat) (arrivals : List Arrival) :
    AlikeBut p q (listenUntil prompts wait deadline arrivals)
      (listenUntil prompts wait deadline arrivals) := by
  induction arrivals with
  | nil =>
    refine .bind (alikeBut_recognise prompts) fun found? => ?_
    cases found? with
    | some found => exact .pure (some found)
    | none =>
      refine .get_bind ?_
      intro s t h
      have hcloses : t.peer.closesAt = s.peer.closesAt := by
        obtain ⟨-, -⟩ := h
        rfl
      rw [hcloses]
      by_cases hclose : s.peer.closesAt ≤ deadline
      · simp only [hclose, ↓reduceIte]
        exact Alike.bind alikeBut_readEnd (fun _ => .pure none) s t h
      · simp only [hclose, ↓reduceIte]
        exact Alike.bind (alikeBut_giveUp wait deadline) (fun _ => .pure none) s t h
  | cons a later ih =>
    refine .bind (alikeBut_recognise prompts) fun found? => ?_
    cases found? with
    | some found => exact .pure (some found)
    | none =>
      by_cases htime : a.time ≤ deadline
      · simp only [htime, ↓reduceIte]
        exact .bind (alikeBut_read a later) fun _ => ih
      · simp only [htime, ↓reduceIte]
        exact .bind (alikeBut_giveUp wait deadline) fun _ => .pure none

theorem alikeBut_listen : AlikeBut p q (listen prompts) (listen prompts) := by
  refine .get_bind ?_
  rintro s _ ⟨h, hroom⟩
  exact alikeBut_listenUntil prompts _ _ _ _ _ (SameBut.intro h hroom)

end Waiting

/-- **Nothing but the secrets changes**, whatever is done with the sessions. -/
theorem isBisimulation_sameBut (p q : String) :
    IsBisimulation (fun _ => True) p q (SameBut p q) fun _ => SameBut p q where
  horizon := by
    rintro s _ ⟨-, -⟩
    rfl
  note level message _ := alikeBut_note level message
  say _ := .bind (alikeBut_note _ _) fun _ => alikeBut_writeLine _
  whisper := .bind (alikeBut_note _ _) fun _ => alikeBut_writeLine_secret
  listen := alikeBut_listen

end Session

end MudDialogue
