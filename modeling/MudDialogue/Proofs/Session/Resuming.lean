import MudDialogue.Proofs.Session.Script

/-!
# A wait that goes on after it was given up

A wait that times out, or that ends because a read fails, loses nothing: what has been read is kept,
and so is the place of the stream between telnet commands and inside control sequences and
characters. Waiting again is the same as having waited longer in the first place, with the read that
failed left out. The two ways to wait then agree in what they come to, in the time, in everything
that is kept, and in all that has happened on the stream but for the failed read (`Session.gist`).

## Main definitions

* `Session.gist` — a session without its log and without a trace of failed reads.

## Main results

* `Session.Waits.resume_of_silence`, `Session.Waits.resume_of_fault` — waiting goes on.
* `Session.listenFor_resume` — two waits in a row are one.
-/

namespace MudDialogue

open Pattern Operation

namespace Peer

/-- The server's end without a trace of reads that failed. -/
def gist (p : Peer) : Peer := { p with past := p.past.filter (·.2 ≠ .readFailed) }

theorem gist_record_readFailed (p : Peer) : (p.record .readFailed).gist = p.gist := by
  simp [gist, record]

theorem gist_record {e : Event} (h : e ≠ .readFailed) (p : Peer) :
    (p.record e).gist = p.gist.record e := by
  simp [gist, record, h]

theorem readFailed_notMem_writeEvents (p : Peer) (bytes : List UInt8) :
    ∀ e ∈ p.writeEvents bytes, e ≠ .readFailed := by
  intro e he
  unfold writeEvents at he
  split at he <;> split at he <;> simp at he <;> grind

/-- The server takes the same after a failed read. -/
theorem write_gist (p : Peer) (bytes : List UInt8) :
    p.gist.write bytes = ((p.write bytes).1, (p.write bytes).2.gist) := by
  have hkeep : ((p.writeEvents bytes).map (p.clock, ·)).filter (·.2 ≠ .readFailed) =
      (p.writeEvents bytes).map (p.clock, ·) := by
    rw [List.filter_eq_self]
    intro e he
    obtain ⟨e, hmem, rfl⟩ := List.mem_map.mp he
    simpa using p.readFailed_notMem_writeEvents bytes e hmem
  rw [write_eq, write_eq]
  simp only [gist, List.filter_append, hkeep]
  rfl

end Peer

namespace Session

/-- The session without its log and without a trace of reads that failed. -/
def gist (s : Session) : Session := { s with past := [], peer := s.peer.gist }

/-- What an operation comes to, without the log and without a trace of reads that failed. -/
def gistResult {α : Type} : EStateM.Result Failure Session α → EStateM.Result Failure Session α
  | .ok a s => .ok a s.gist
  | .error e s => .error e s.gist

theorem gistResult_unloggedResult {α : Type} (r : EStateM.Result Failure Session α) :
    gistResult (unloggedResult r) = gistResult r := by
  cases r <;> rfl

theorem takeUp_gist (s : Session) (bytes : List UInt8) :
    s.gist.takeUp bytes = ((s.takeUp bytes).1, (s.takeUp bytes).2.gist) := by
  unfold takeUp
  simp only [gist, Peer.write_gist]

variable {τ : Type} {prompts : Prompts τ} {s t : Session}

theorem gist_gist (s : Session) : s.gist.gist = s.gist := by
  simp [gist, Peer.gist]

theorem gist_reach (s : Session) (a : Arrival) (later : List Arrival) :
    (s.reach a later).gist = s.gist.reach a later := rfl

theorem gist_record_readFailed (s : Session) : (s.record .readFailed).gist = s.gist := by
  simp only [gist, record, Peer.gist_record_readFailed]

theorem gist_record {e : Event} (h : e ≠ .readFailed) (s : Session) :
    (s.record e).gist = s.gist.record e := by
  simp only [gist, record, Peer.gist_record h]

theorem hear_gist (s : Session) (a : Arrival) (bytes : List UInt8) (later : List Arrival) :
    s.gist.hear a bytes later =
      ((s.hear a bytes later).1, (s.hear a bytes later).2.gist) := by
  rw [hear, ← gist_reach, ← gist_record (by simp), takeUp_gist]
  rfl

/-- **A failed read leaves no mark on a wait.** -/
theorem Waits.gist {deadline : Nat} {arrivals : List Arrival}
    {r : EStateM.Result Failure Session (Option (Match τ))}
    (h : Waits prompts deadline arrivals s r) :
    ∃ q, Waits prompts deadline arrivals s.gist q ∧ gistResult q = gistResult r := by
  induction h with
  | @found _ s found backlog hsearch =>
    exact ⟨_, .found hsearch, congrArg (EStateM.Result.ok _) (gist_gist { s with backlog })⟩
  | @silence _ s hsearch hnext =>
    refine ⟨_, .silence hsearch hnext, congrArg (EStateM.Result.ok _) ?_⟩
    exact gist_gist (s.waitUntil deadline)
  | @ended s hsearch hclose =>
    refine ⟨_, .ended hsearch hclose, congrArg (EStateM.Result.error _) ?_⟩
    change ((s.waitUntil s.peer.closesAt).gist.record .ended).gist = _
    rw [← gist_record (by simp), gist_gist]
  | fault hsearch ht ha =>
    refine ⟨_, .fault hsearch ht ha, congrArg (EStateM.Result.error _) ?_⟩
    rw [gist_record_readFailed, gist_record_readFailed, ← gist_reach, gist_gist]
  | unwritten hsearch ht ha hwrite =>
    refine ⟨_, .unwritten hsearch ht ha (by rw [hear_gist]; exact hwrite),
      congrArg (EStateM.Result.error _) ?_⟩
    rw [hear_gist, gist_gist]
  | bytes hsearch ht ha hwrite hrest ih =>
    obtain ⟨q, hq, heq⟩ := ih
    refine ⟨q, .bytes hsearch ht ha (by rw [hear_gist]; exact hwrite) ?_, heq⟩
    rw [hear_gist]
    exact hq

/-! ### Going on to wait -/

theorem waitUntil_waitUntil (s : Session) {time deadline : Nat} (h : time ≤ deadline) :
    (s.waitUntil time).waitUntil deadline = s.waitUntil deadline := by
  simp only [waitUntil, Peer.waitUntil, Nat.max_assoc, Nat.max_eq_right h]

theorem reach_waitUntil (s : Session) {time : Nat} {a : Arrival} (h : time ≤ a.time)
    (later : List Arrival) : (s.waitUntil time).reach a later = s.reach a later := by
  simp only [reach, waitUntil, Peer.waitUntil, Nat.max_assoc, Nat.max_eq_right h]

/-- It makes no difference to a wait to let time pass first, as long as nothing would have happened
until then. -/
theorem Waits.of_waitUntil {time deadline : Nat} {arrivals : List Arrival}
    {r : EStateM.Result Failure Session (Option (Match τ))}
    (h : Waits prompts deadline arrivals (s.waitUntil time) r)
    (hsearch : s.backlog.search prompts = none) (hdeadline : time ≤ deadline)
    (hnext : time ≤ nextTime s.peer.closesAt arrivals) :
    Waits prompts deadline arrivals s r := by
  cases h with
  | found hfound => cases hsearch.symm.trans hfound
  | silence _ hpending =>
    rw [waitUntil_waitUntil s hdeadline]
    exact .silence hsearch hpending
  | ended _ hclose =>
    have hwait : (s.waitUntil time).waitUntil s.peer.closesAt = s.waitUntil s.peer.closesAt :=
      waitUntil_waitUntil s hnext
    exact hwait ▸ .ended hsearch hclose
  | fault _ ht ha =>
    rw [reach_waitUntil s hnext]
    exact .fault hsearch ht ha
  | unwritten _ ht ha hwrite =>
    simp only [hear, reach_waitUntil s hnext] at hwrite ⊢
    exact .unwritten hsearch ht ha hwrite
  | bytes _ ht ha hwrite hrest =>
    simp only [hear, reach_waitUntil s hnext] at hwrite hrest
    exact .bytes hsearch ht ha hwrite hrest

/-- **A wait that timed out goes on as if it had not been given up.** -/
theorem Waits.resume_of_silence {deadline further : Nat} {arrivals : List Arrival}
    (h : Waits prompts deadline arrivals s (.ok none t)) (harrivals : s.peer.arrivals = arrivals)
    (hclock : s.peer.clock ≤ deadline) (hfurther : deadline ≤ further) :
    t.peer.clock = deadline ∧
      ∀ {q}, Waits prompts further t.peer.arrivals t q → Waits prompts further arrivals s q := by
  generalize hr : EStateM.Result.ok none t = r at h
  induction h with
  | silence hsearch hnext =>
    obtain ⟨-, rfl⟩ := EStateM.Result.ok.inj hr
    refine ⟨Nat.max_eq_right hclock, fun hq => ?_⟩
    rw [← harrivals] at hnext ⊢
    exact Waits.of_waitUntil hq hsearch hfurther (Nat.le_of_lt hnext)
  | bytes hsearch ht ha hwrite hrest ih =>
    obtain ⟨htime, hresume⟩ := ih (arrivals_hear ..) (by simp; omega) hr
    exact ⟨htime, fun hq => .bytes hsearch (Nat.le_trans ht hfurther) ha hwrite (hresume hq)⟩
  | _ => cases hr

/-! ### Going on after a failed read -/

/-- The session with other arrivals to come. -/
def expecting (s : Session) (arrivals : List Arrival) : Session :=
  { s with peer := { s.peer with arrivals } }

theorem hear_expecting (s : Session) (arrivals : List Arrival) (a : Arrival) (bytes : List UInt8)
    (soon later : List Arrival) :
    (s.expecting arrivals).hear a bytes later =
      ((s.hear a bytes soon).1, (s.hear a bytes soon).2.expecting later) := by
  simp only [hear, takeUp, Peer.write_eq]
  rfl

/-- When the server does not take the refusals, that is the last thing that happens. -/
theorem head?_past_hear {a : Arrival} {bytes : List UInt8} {later : List Arrival}
    (h : (s.hear a bytes later).1 = false) :
    (s.hear a bytes later).2.peer.past.head? =
      some ((s.hear a bytes later).2.peer.clock, .writeFailed) := by
  simp only [hear, takeUp, Peer.write_eq, decide_eq_false_iff_not] at h ⊢
  simp [Peer.writeEvents, h]

/-- **A wait that ended with a failed read goes on as if that read had never been.** -/
theorem Waits.resume_of_fault {deadline : Nat} {arrivals : List Arrival} {e : Failure}
    (h : Waits prompts deadline arrivals s (.error e t))
    (hfault : t.peer.past.head? = some (t.peer.clock, .readFailed))
    (horder : InOrder s.peer.clock s.peer.closesAt arrivals) :
    ∃ heard reason later, arrivals = heard ++ ⟨t.peer.clock, .fault reason⟩ :: later ∧
      e = .stream reason ∧ t.peer.arrivals = later ∧ t.peer.closesAt = s.peer.closesAt ∧
      s.peer.clock ≤ t.peer.clock ∧
      ∀ {further q}, t.peer.clock ≤ further → Waits prompts further later t q →
        ∃ r, Waits prompts further (heard ++ later) (s.expecting (heard ++ later)).gist r ∧
          gistResult r = gistResult q := by
  generalize hr : EStateM.Result.error e t = r at h
  -- The session without the failed read cannot have seen it, so it is compared by its gist.
  induction h with
  | ended hsearch hclose =>
    obtain ⟨-, rfl⟩ := EStateM.Result.error.inj hr
    simp [record, Peer.record] at hfault
  | unwritten hsearch ht ha hwrite =>
    obtain ⟨-, rfl⟩ := EStateM.Result.error.inj hr
    simp [head?_past_hear hwrite] at hfault
  | @fault a later s reason hsearch ht ha =>
    obtain ⟨rfl, rfl⟩ := EStateM.Result.error.inj hr
    have htime : ((s.reach a later).record .readFailed).peer.clock = a.time :=
      Nat.max_eq_right horder.1
    refine ⟨[], reason, later, ?_, rfl, rfl, rfl, htime ▸ horder.1, fun hfurther hq => ?_⟩
    · rw [htime, ← ha]
      rfl
    · obtain ⟨r, hr, hgist⟩ := hq.gist
      rw [gist_record_readFailed] at hr
      exact ⟨r, Waits.of_waitUntil (s := (s.expecting later).gist) hr hsearch (htime ▸ hfurther)
        horder.2.le_nextTime, hgist⟩
  | @bytes a later s bytes result hsearch ht ha hwrite hrest ih =>
    have htime : (s.hear a bytes later).2.peer.clock = a.time := by
      rw [clock_hear, Nat.max_eq_right horder.1]
    obtain ⟨heard, reason, after, rfl, rfl, harrivals, hcloses, hclock, hresume⟩ :=
      ih (by rw [htime, closesAt_hear]; exact horder.2) hr
    rw [htime] at hclock
    refine ⟨a :: heard, reason, after, rfl, rfl, harrivals, hcloses.trans (closesAt_hear ..),
      Nat.le_trans horder.1 hclock, fun hfurther hq => ?_⟩
    obtain ⟨r, hrest', hgist⟩ := hresume hfurther hq
    refine ⟨r, .bytes hsearch (Nat.le_trans hclock hfurther) ha ?_ ?_, hgist⟩
    · rw [hear_gist, hear_expecting]
      exact hwrite
    · rw [hear_gist, hear_expecting]
      exact hrest'
  | _ => cases hr

/-- The part of a script behind a failing read is what is still to come after that read, and without
the read the same arrivals come at the same times. -/
theorem facing_of_fault {s t : Session} {before after : List ServerAct} {reason : String}
    (hbefore : (Peer.timeline s.peer.clock before).2 = t.peer.clock)
    (harrivals : t.peer.arrivals = (Peer.timeline t.peer.clock after).1)
    (hcloses : t.peer.closesAt = (s.facing (before ++ .fault reason :: after)).peer.closesAt) :
    t.facing after = t ∧
      s.facing (before ++ after) = (s.facing (before ++ .fault reason :: after)).expecting
        ((Peer.timeline s.peer.clock before).1 ++ t.peer.arrivals) := by
  have hend : t.peer.closesAt = (Peer.timeline t.peer.clock after).2 := by
    rw [hcloses, facing, Peer.timeline_append, hbefore]
    rfl
  constructor
  · rw [facing, ← harrivals, ← hend]
  · simp only [facing, expecting, Peer.timeline_append, hbefore, harrivals, Peer.timeline]

/-- **Two waits in a row are one.** A wait that timed out, and one that ended because a read failed,
can be taken up again: the second wait comes to what one wait of both lengths together comes to, if
the read that failed is taken out of what the server does. Whether it was a read that failed and not
a write is told by what happened last. -/
theorem listenFor_resume [ToString τ] (prompts : Prompts τ) (a b : Nat) (s : Session)
    (script : List ServerAct) :
    (∀ t, listenFor prompts a (s.facing script) = .ok none t →
      t.peer.clock = s.peer.clock + a ∧
        unloggedResult (listenFor prompts b t) =
          unloggedResult (listenFor prompts (a + b) (s.facing script))) ∧
    ∀ e t, listenFor prompts a (s.facing script) = .error e t →
      t.peer.past.head? = some (t.peer.clock, .readFailed) →
      ∃ before reason after elapsed, script = before ++ .fault reason :: after ∧
        e = .stream reason ∧ t.facing after = t ∧ t.peer.clock = s.peer.clock + elapsed ∧
        gistResult (listenFor prompts b t) =
          gistResult (listenFor prompts (elapsed + b) (s.facing (before ++ after))) := by
  have hfirst := waits_listenFor prompts a (s.facing script)
  constructor
  · intro t hrun
    rw [hrun] at hfirst
    have hfurther : s.peer.clock + a ≤ s.peer.clock + (a + b) :=
      Nat.add_le_add_left (Nat.le_add_right a b) _
    obtain ⟨hclock, hresume⟩ := hfirst.resume_of_silence rfl (Nat.le_add_right _ a) hfurther
    have hsecond := waits_listenFor prompts b t
    have hclock' : t.peer.clock = s.peer.clock + a := hclock
    rw [hclock', Nat.add_assoc] at hsecond
    exact ⟨hclock, (hresume hsecond).unique (waits_listenFor prompts (a + b) (s.facing script))⟩
  · intro e t hrun hfault
    rw [hrun] at hfirst
    obtain ⟨heard, reason, later, harrivals, he, rfl, hcloses, hclock, hresume⟩ :=
      hfirst.resume_of_fault hfault (Peer.inOrder_timeline s.peer.clock script)
    obtain ⟨before, after, rfl, rfl, hbefore, hafter⟩ := Peer.exists_fault_of_timeline harrivals
    obtain ⟨elapsed, helapsed⟩ : ∃ elapsed, t.peer.clock = s.peer.clock + elapsed :=
      Nat.exists_eq_add_of_le hclock
    obtain ⟨hfacing, hwithout⟩ := facing_of_fault (t := t) hbefore hafter.symm hcloses
    refine ⟨before, reason, after, elapsed, rfl, he, hfacing, helapsed, ?_⟩
    obtain ⟨r, hr, hgist⟩ := hresume (Nat.le_add_right _ b) (waits_listenFor prompts b t)
    obtain ⟨q, hq, hwhole⟩ :=
      (waits_listenFor prompts (elapsed + b) (s.facing (before ++ after))).gist
    rw [hwithout] at hq
    have hdeadline : t.unlogged.peer.clock + b = s.peer.clock + (elapsed + b) := by
      rw [← Nat.add_assoc, ← helapsed]
      rfl
    rw [hdeadline] at hr
    calc gistResult (listenFor prompts b t)
        = gistResult r := by rw [hgist, gistResult_unloggedResult]
      _ = gistResult q := congrArg gistResult (hr.unique hq)
      _ = _ := by rw [hwhole, gistResult_unloggedResult]

/-- A word that comes in pieces: time passes and a read fails inside a telnet command within it. -/
def inPieces : List ServerAct :=
  [.send [103], .wait 10, .send [255, 253], .wait 10, .fault "reset", .send [1, 111]]

theorem listenFor_resume_inPieces :
    let word : Prompts String := ⟨[("word", .literal "go")]⟩
    let s := start (.ofScript [] none) {}
    (∃ t, listenFor word 15 (s.facing inPieces) = .ok none t ∧
      unloggedResult (listenFor word 10 t) =
        unloggedResult (listenFor word 25 (s.facing inPieces))) ∧
    ∃ e t, listenFor word 30 (s.facing inPieces) = .error e t ∧
      ∃ before reason after elapsed, inPieces = before ++ .fault reason :: after ∧
        t.peer.clock = s.peer.clock + elapsed ∧
        gistResult (listenFor word 10 t) =
          gistResult (listenFor word (elapsed + 10) (s.facing (before ++ after))) := by
  intro word s
  constructor
  · have hsilent : succeeds (fun found _ => found.isNone)
        (listenFor word 15 (s.facing inPieces)) = true := by decide +kernel
    obtain ⟨found, t, hrun, hnone⟩ := exists_of_succeeds hsilent
    obtain rfl := Option.isNone_iff_eq_none.mp hnone
    exact ⟨t, hrun, ((listenFor_resume word 15 10 s inPieces).1 t hrun).2⟩
  · have hfault : fails (fun _ t => t.peer.past.head? = some (t.peer.clock, .readFailed))
        (listenFor word 30 (s.facing inPieces)) = true := by decide +kernel
    obtain ⟨e, t, hrun, hlast⟩ := exists_of_fails hfault
    obtain ⟨before, reason, after, elapsed, hscript, -, -, hclock, hresume⟩ :=
      (listenFor_resume word 30 10 s inPieces).2 e t hrun (of_decide_eq_true hlast)
    exact ⟨e, t, hrun, before, reason, after, elapsed, hscript, hclock, hresume⟩

end Session

end MudDialogue
