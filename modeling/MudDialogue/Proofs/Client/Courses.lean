import MudDialogue.Proofs.Client.SideBySide
import MudDialogue.Proofs.Client.Talk
import MudDialogue.Proofs.Session.Breaking

/-!
# How the stream goes on under the clients

A dialogue goes on as long as the stream flows, and when the stream breaks it fails. A walk and a
batch have a result even then, if it is the server that hung up; the result says so.

## Main results

* `Login.course_run`, `Signup.course_createOne` — the dialogues fail just when the stream breaks.
* `Wander.course_run`, `Signup.course_run` — a walk and a batch tell from the result whether the
  server hung up.
-/

namespace MudDialogue

open ClientM Operation Session

/-- How the stream goes on under a client: it flows, or the client fails as the stream breaks. -/
def Client.Course {σ α : Type} (s : Session) : EStateM.Result Failure (Client σ) α → Prop
  | .ok _ d => s.Flows d.session
  | .error f d => s.Breaks f d.session

namespace ClientM

variable {σ α : Type} {x : ClientM σ α} {s : Session} {c d : Client σ}

theorem course_of_alike
    (h : AlikeOver (Itself s.Flows) (fun f => Itself (s.Breaks f)) x x) (hc : s.Flows c.session) :
    Client.Course s (x c) := by
  cases hx : x c with
  | ok a d => exact kept_of_ok h hc hx
  | error f d => exact kept_of_error h hc hx

end ClientM

/-! ### Logging in -/

namespace Login

variable {c : Credentials} {s : Session} {client : Client Stage}

theorem course_run (hs : s.Flows client.session) : Client.Course s (run c client) :=
  course_of_alike (alike_run (isBisimulation_course s c.password.reveal) fun _ _ => trivial) hs

/-- A login that has a result is over. -/
theorem isOver_of_run {stage : Stage} {d : Client Stage} (h : run c client = .ok (some stage) d) :
    stage.isOver := by
  obtain ⟨_, c₁, -, h⟩ := exists_of_bind_ok h
  obtain ⟨_, c₂, -, h⟩ := exists_of_bind_ok h
  rcases rounds_last (P := fun _ => True) (fun _ _ => trivial) trivial with
    ⟨e, he, -⟩ | ⟨c', a, e, -, hround, he⟩ | ⟨c', f, e, -, -, he⟩
  · cases he.symm.trans h
  · obtain ⟨ha, rfl⟩ := EStateM.Result.ok.inj (he.symm.trans h)
    obtain rfl := Option.some.inj ha
    obtain ⟨stage', c₃, -, hround⟩ := exists_of_bind_ok hround
    cases hover : stage'.isOver with
    | true =>
      rw [if_pos hover] at hround
      obtain ⟨hstage, -⟩ := eq_of_pure_ok hround
      exact Option.some.inj hstage ▸ hover
    | false =>
      rw [if_neg (by simp [hover])] at hround
      obtain ⟨_, _, -, hround⟩ := exists_of_bind_ok hround
      cases (eq_of_pure_ok hround).1
  · cases he.symm.trans h

end Login

/-! ### Wandering about -/

namespace Wander

variable {s : Session} {limit? : Option Nat} {c d : Client Walk}

/-- How the stream went on in a walk that ended: the client has gone far enough while it flowed, or
the server hung up. -/
def Ends (s : Session) (limit? : Option Nat) (tally : Tally) (d : Client Walk) : Prop :=
  match tally.ending with
  | .farEnough => s.Flows d.session ∧ limit?.any (· ≤ d.memory.moves)
  | .hungUp => s.Breaks .closed d.session

/-- How the stream goes on in a walk, if it ends. -/
def Course (s : Session) (limit? : Option Nat) :
    EStateM.Result Failure (Client Walk) (Option Tally) → Prop
  | .ok none d => s.Flows d.session
  | .ok (some tally) d => Ends s limit? tally d
  | .error f d => f.isClosed = false ∧ s.Breaks f d.session

theorem course_advance (hc : s.Flows c.session) : Client.Course s (advance c) :=
  course_of_alike (alike_advance (isBisimulation_course s "") fun _ _ => trivial) hc

theorem course_afterFailure {walk : Walk} {f : Failure} (hc : s.Breaks f c.session) :
    Course s limit? (afterFailure walk f c) := by
  unfold afterFailure
  cases hclosed : f.isClosed with
  | true =>
    obtain rfl := Failure.isClosed_iff.mp hclosed
    exact hc
  | false => exact ⟨hclosed, hc⟩

theorem course_round (hc : s.Flows c.session) : Course s limit? (round limit? c) := by
  rw [round_apply]
  split
  · exact ⟨hc, ‹_›⟩
  · have hadvance : Client.Course s (advance c) := course_advance hc
    cases h : advance c with
    | ok _ d =>
      rw [h] at hadvance
      exact hadvance
    | error f d =>
      rw [h] at hadvance
      exact course_afterFailure hadvance

theorem course_rounds (n : Nat) (hc : s.Flows c.session) :
    Course s limit? (rounds (round limit?) n c) := by
  have hround {c d : Client Walk} (hc : s.Flows c.session) (h : round limit? c = .ok none d) :
      s.Flows d.session := (h ▸ course_round hc : Course s limit? (.ok none d))
  rcases rounds_last (P := fun c => s.Flows c.session) hround hc with
    ⟨d, h, hd⟩ | ⟨c', tally, d, hc', hlast, h⟩ | ⟨c', f, d, hc', hlast, h⟩
  · rw [h]
    exact hd
  · rw [h, ← hlast]
    exact course_round hc'
  · rw [h, ← hlast]
    exact course_round hc'

/-- **How the stream goes on in a walk.** -/
theorem course_run (hc : s.Flows c.session) : Course s limit? (run limit? c) :=
  course_rounds (c := ⟨.start c.memory.source, c.session⟩) _ hc

end Wander

/-! ### Creating accounts -/

namespace Signup

variable {b : Batch} {s : Session}

theorem course_createOne {username : String} {c : Client Stage} (hc : s.Flows c.session) :
    Client.Course s (createOne b username c) :=
  course_of_alike (alike_createOne (isBisimulation_course s b.password.reveal) fun _ _ => trivial)
    hc

/-- How the stream goes on in a batch: it is cut short just if the server hangs up. -/
def Course {α : Type} (s : Session) : EStateM.Result Failure (Client Ledger) α → Prop
  | .ok _ d => if d.memory.cutShort then s.Breaks .closed d.session else s.Flows d.session
  | .error f d => f.isClosed = false ∧ s.Breaks f d.session

theorem course_createNext {username : String} {c : Client Ledger} (hc : s.Flows c.session)
    (hcut : c.memory.cutShort = false) : Course s (createNext b username c) := by
  have hone : Client.Course s (createOne b username ⟨.start, c.session⟩) := course_createOne hc
  rw [createNext_eq, tryCatch_apply, delegate]
  cases h : createOne b username ⟨.start, c.session⟩ with
  | ok fate? d =>
    rw [h] at hone
    simp only [Course, hcut]
    exact hone
  | error f d =>
    rw [h] at hone
    dsimp only [afterFailure]
    cases hclosed : f.isClosed with
    | true =>
      obtain rfl := Failure.isClosed_iff.mp hclosed
      exact hone
    | false => exact ⟨hclosed, hone⟩

/-- An account that has met its fate leaves the batch as it was. -/
theorem memory_of_createNext {username : String} {fate : Fate} {c d : Client Ledger}
    (h : createNext b username c = .ok (some fate) d) : d.memory = c.memory := by
  rw [createNext_eq, tryCatch_apply, delegate] at h
  cases hone : createOne b username ⟨.start, c.session⟩ with
  | ok fate? e =>
    rw [hone] at h
    obtain ⟨-, rfl⟩ := EStateM.Result.ok.inj h
    rfl
  | error f e =>
    rw [hone] at h
    dsimp only [afterFailure] at h
    cases hclosed : f.isClosed <;> rw [hclosed] at h <;> cases h

theorem course_createFrom {remaining number : Nat} {c : Client Ledger} (hc : s.Flows c.session)
    (hcut : c.memory.cutShort = false) : Course s (createFrom b remaining number c) := by
  induction remaining generalizing number c with
  | zero =>
    change if _ then _ else _
    rw [hcut]
    exact hc
  | succ remaining ih =>
    have hnext : Course s (createNext b (b.username number) c) := course_createNext hc hcut
    rw [createFrom, bind_apply]
    cases h : createNext b (b.username number) c with
    | error f d =>
      rw [h] at hnext
      exact hnext
    | ok fate? d =>
      rw [h] at hnext
      cases fate? with
      | none => exact hnext
      | some fate =>
        have hmemory : d.memory.cutShort = false := (memory_of_createNext h).symm ▸ hcut
        have hcut' : (d.memory.record (b.username number) fate).cutShort = false := by
          cases fate <;> exact hmemory
        simp only [Course, hmemory] at hnext
        exact ih (c := { d with memory := d.memory.record (b.username number) fate }) hnext hcut'

/-- **How the stream goes on in a batch.** -/
theorem course_run {c : Client Ledger} (hc : s.Flows c.session) : Course s (run b c) := by
  have hall : Course s (createFrom b b.count 1 ⟨.empty, c.session⟩) := course_createFrom hc rfl
  change Course s ((createFrom b b.count 1 >>= _ : ClientM Ledger Ledger) ⟨.empty, c.session⟩)
  rw [bind_apply]
  cases h : createFrom b b.count 1 ⟨.empty, c.session⟩ with
  | ok _ d =>
    rw [h] at hall
    exact hall
  | error f d =>
    rw [h] at hall
    exact hall

end Signup

end MudDialogue
