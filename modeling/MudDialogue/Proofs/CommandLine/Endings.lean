import MudDialogue.Proofs.Client.Courses
import MudDialogue.Proofs.Client.Endless
import MudDialogue.Proofs.Session.Calls

/-!
# What the status of a program tells

The status that a program leaves to its caller tells how its session ended: by the answer of the
server to the login, by a failure of the stream, or regularly. The end of the stream is a regular
end at any time. Whatever it was, it was the last thing that happened on the stream, and nothing was
picked at random and nothing said on a walk unless the login had succeeded. There is no status only
if the walk goes on for ever.

## Main definitions

* `Login.Ends` — a login comes to a stage.
* `Program.NeverEnds` — a login succeeds, and the walk after it goes on for ever.
* `Program.WanderStatus`, `Program.BatchStatus` — what the status of a program tells.

## Main results

* `Program.exit_status` — what is told by the status of either program, whenever it ends.
-/

namespace MudDialogue

open ClientM Operation Session

/-- A login over a session comes to a stage. -/
def Login.Ends (c : Credentials) (s : Session) (stage : Login.Stage) : Prop :=
  ∃ d, Login.run c ⟨.start, s⟩ = .ok (some stage) d

namespace Login

variable {c : Credentials} {s : Session} {stage : Stage}

theorem ends_iff {stage' : Stage} {d : Client Stage}
    (h : run c ⟨.start, s⟩ = .ok (some stage) d) : Ends c s stage' ↔ stage = stage' := by
  constructor
  · rintro ⟨d', h'⟩
    exact Option.some.inj (EStateM.Result.ok.inj (h.symm.trans h')).1
  · rintro rfl
    exact ⟨d, h⟩

theorem not_ends_of_error {f : Failure} {d : Client Stage}
    (h : run c ⟨.start, s⟩ = .error f d) : ¬ Ends c s stage := by
  rintro ⟨d', h'⟩
  cases h.symm.trans h'

end Login

namespace Program

/-- What the status of the program that wanders about tells, if `new` has happened on the stream:
the account was in use, the account was unknown, or a read or a write failed; or else the server
hung up at some time, did not answer in the login, or the client has gone as far as it should. -/
structure WanderStatus (c : Credentials) (limit? : Option Nat) (s : Session) (new : List Event)
    (moves : Nat) (code : ExitCode) : Prop where
  inUse : code.status = 2 ↔ Login.Ends c s .inUse
  unknown : code.status = 3 ↔ Login.Ends c s .unknown
  broken : code.status = 5 ↔ .readFailed ∈ new ∨ .writeFailed ∈ new
  regular : code.status = 0 ↔ .ended ∈ new ∨ Login.Ends c s .silence ∨
    (Login.Ends c s .playing ∧ limit?.any (· ≤ moves) ∧ ¬ (.readFailed ∈ new ∨ .writeFailed ∈ new))
  range : code.status ∈ [0, 2, 3, 5]

/-- What the status of the program that creates accounts tells. -/
structure BatchStatus (new : List Event) (code : ExitCode) : Prop where
  broken : code.status = 5 ↔ .readFailed ∈ new ∨ .writeFailed ∈ new
  regular : code.status = 0 ↔ ¬ (.readFailed ∈ new ∨ .writeFailed ∈ new)
  range : code.status ∈ [0, 5]

variable {c : Credentials} {limit? : Option Nat} {s t : Session} {new : List Event} {moves : Nat}
  {f : Failure}

/-- The code of a failure that comes from the stream. -/
theorem ofFailure_of_breaks (h : s.Breaks f t) :
    ExitCode.ofFailure f = if f.isClosed then .success else .broken := by
  obtain ⟨_, last, -, -, hlast⟩ := h
  cases hlast <;> rfl

/-- The program ends after a failure of the stream, in the login or on the walk. -/
theorem wanderStatus_of_breaks (h : s.Recount t (some f) new)
    (hlogin : ∀ stage, stage ≠ .playing → ¬ Login.Ends c s stage) :
    WanderStatus c limit? s new moves (if f.isClosed then .success else .broken) := by
  have hended := h.ended_iff
  have hfailed := h.failed_iff
  cases hclosed : f.isClosed <;> constructor <;> simp_all [ExitCode.status]

/-- The program ends after a login that did not succeed. -/
theorem wanderStatus_of_login (h : s.Recount t none new) {stage : Login.Stage}
    (hlogin : ∀ stage', Login.Ends c s stage' ↔ stage = stage') (hover : stage.isOver)
    (hstage : stage ≠ .playing) : WanderStatus c limit? s new moves (.ofLogin stage) := by
  have hended := h.ended_iff
  have hfailed := h.failed_iff
  cases stage with
  | start | named | proving => cases hover
  | playing => exact absurd rfl hstage
  | inUse | unknown | silence => constructor <;> simp_all [ExitCode.status, ExitCode.ofLogin]

/-- The program ends when the client has gone far enough. -/
theorem wanderStatus_of_farEnough (h : s.Recount t none new)
    (hlogin : ∀ stage, Login.Ends c s stage ↔ .playing = stage)
    (hfar : limit?.any (· ≤ moves)) : WanderStatus c limit? s new moves .success := by
  have hended := h.ended_iff
  have hfailed := h.failed_iff
  constructor <;> simp_all [ExitCode.status]

/-- A program whose work fails ends with the code of the failure. -/
theorem finish_of_error {σ : Type} {act : ClientM σ (Option ExitCode)} {client d : Client σ}
    (h : act client = .error f d) (hbreaks : s.Breaks f d.session) :
    ∃ d', finish act client = .ok (some (if f.isClosed then .success else .broken)) d' ∧
      d'.memory = d.memory ∧ Noted d.session d'.session := by
  have hcode := ofFailure_of_breaks hbreaks
  rw [finish_eq, tryCatch_apply, h]
  dsimp only [afterFailure]
  cases hclosed : f.isClosed with
  | true => exact ⟨_, rfl, rfl, .note .refl .info (.of_head? (by decide))⟩
  | false =>
    rw [hclosed] at hcode
    rw [hcode]
    exact ⟨_, rfl, rfl, .note .refl .error f.isOwnMessage⟩

theorem finish_of_ok {σ : Type} {act : ClientM σ (Option ExitCode)} {client d : Client σ}
    {code? : Option ExitCode} (h : act client = .ok code? d) :
    finish act client = .ok code? d := by
  rw [finish_eq, tryCatch_apply, h]

/-- What is done after a login that succeeded. -/
def wanderOn (limit? : Option Nat) : ClientM Wander.Walk (Option ExitCode) := do
  match ← Wander.run limit? with
  | none => return none
  | some tally =>
    note .info (toString tally.moves ++ " moves, " ++ toString tally.looks ++ " looks (" ++
      tally.ending.label ++ ")")
    return some .success

/-- What the login comes to decides whether there is a walk. -/
theorem loginAndWander_apply (c : Credentials) (limit? : Option Nat) (walk : Wander.Walk)
    (s : Session) :
    loginAndWander c limit? ⟨walk, s⟩ = match Login.run c ⟨.start, s⟩ with
      | .error f d => .error f ⟨walk, d.session⟩
      | .ok none d => .ok none ⟨walk, d.session⟩
      | .ok (some stage) d =>
        if stage = .playing then wanderOn limit? ⟨walk, d.session⟩
        else .ok (some (.ofLogin stage)) ⟨walk, d.session⟩ := by
  rw [loginAndWander, bind_apply, delegate]
  cases Login.run c ⟨.start, s⟩ with
  | error f d => rfl
  | ok stage? d =>
    cases stage? with
    | none => rfl
    | some stage => cases stage <;> rfl

theorem endless_of_wanderOn {client d : Client Wander.Walk} (hs : client.session.Sound)
    (h : wanderOn limit? client = .ok none d) :
    Endless (Wander.round limit?) ⟨.start client.memory.source, client.session⟩ := by
  obtain ⟨tally?, e, hrun, h⟩ := exists_of_bind_ok h
  cases tally? with
  | none => exact Wander.endless_of_run hs hrun
  | some tally =>
    obtain ⟨_, _, -, h⟩ := exists_of_bind_ok h
    cases (eq_of_pure_ok h).1

/-- How a walk after a login ends, if it does: the program succeeds, or the stream fails. -/
def WalkEnds (limit? : Option Nat) (s : Session) :
    EStateM.Result Failure (Client Wander.Walk) (Option ExitCode) → Prop
  | .ok none d => s.Flows d.session
  | .ok (some code) d => code = .success ∧
    (s.Flows d.session ∧ limit?.any (· ≤ d.memory.moves) ∨ s.Breaks .closed d.session)
  | .error f d => f.isClosed = false ∧ s.Breaks f d.session

theorem walkEnds_wanderOn {client : Client Wander.Walk} (h : s.Flows client.session) :
    WalkEnds limit? s (wanderOn limit? client) := by
  have hcourse : Wander.Course s limit? (Wander.run limit? client) := Wander.course_run h
  rw [wanderOn, bind_apply]
  cases hrun : Wander.run limit? client with
  | error f d =>
    rw [hrun] at hcourse
    exact hcourse
  | ok tally? d =>
    rw [hrun] at hcourse
    cases tally? with
    | none => exact hcourse
    | some tally =>
      refine ⟨rfl, ?_⟩
      change Wander.Ends s limit? tally d at hcourse
      unfold Wander.Ends at hcourse
      cases hending : tally.ending with
      | farEnough =>
        rw [hending] at hcourse
        exact .inl hcourse
      | hungUp =>
        rw [hending] at hcourse
        exact .inr hcourse

/-- The login succeeds, and the walk after it goes on for ever. -/
def NeverEnds (c : Credentials) (limit? : Option Nat) (walk : Wander.Walk) (s : Session) : Prop :=
  ∃ e, Login.run c ⟨.start, s⟩ = .ok (some .playing) e ∧
    Endless (Wander.round limit?) ⟨.start walk.source, e.session⟩

/-- How a run of the program that wanders about ended, or is after so many rounds that it never
will: what happened on the stream, with anything fatal at last, what the status tells of it, that
there is one unless the walk goes on for ever, and that nothing is done but logging after a login
that did not succeed. -/
structure Wandered (c : Credentials) (limit? : Option Nat) (walk : Wander.Walk) (s : Session)
    (code? : Option ExitCode) (d : Client Wander.Walk) (new : List Event) : Prop where
  happened : d.session.peer.happened = s.peer.happened ++ new
  fatal_last : ∀ e ∈ new.dropLast, ¬ e.IsFatal
  status : ∀ code ∈ code?, WanderStatus c limit? s new d.memory.moves code
  endless : s.Sound → code? = none → NeverEnds c limit? walk s
  unsuccessful : ¬ Login.Ends c s .playing → d.memory = walk ∧
    d.session.unlogged = (endState (Login.run c ⟨.start, s⟩)).session.unlogged ∧
    MadeBy (Login.lines c) c.password.reveal s d.session

theorem madeBy_login (c : Credentials) (s : Session) :
    MadeBy (Login.lines c) c.password.reveal s (endState (Login.run c ⟨.start, s⟩)).session := by
  have hcalls := isBisimulation_madeBy (Login.lines c) c.password.reveal s
  exact kept_endState (Login.alike_run (c := c) hcalls fun _ h => h) .refl

/-- A run of the program, if it does not fail by itself. -/
theorem Wandered.of_recount {walk : Wander.Walk} {code? : Option ExitCode}
    {d : Client Wander.Walk} {f? : Option Failure} (h : s.Recount d.session f? new)
    (hstatus : ∀ code ∈ code?, WanderStatus c limit? s new d.memory.moves code)
    (hendless : s.Sound → code? = none → NeverEnds c limit? walk s)
    (hrest : ¬ Login.Ends c s .playing → d.memory = walk ∧
      Noted (endState (Login.run c ⟨.start, s⟩)).session d.session) :
    Wandered c limit? walk s code? d new where
  happened := h.happened
  fatal_last := h.fatal_last
  status := hstatus
  endless := hendless
  unsuccessful hends := by
    obtain ⟨hmemory, hsession⟩ := hrest hends
    exact ⟨hmemory, hsession.unlogged_eq, (madeBy_login c s).noted hsession⟩

/-- The login failed with the stream, and so does the program. -/
theorem exists_wandered_of_error {e : Client Login.Stage} (walk : Wander.Walk)
    (hrun : Login.run c ⟨.start, s⟩ = .error f e) (hbreaks : s.Breaks f e.session) :
    ∃ code? d new, wander c limit? ⟨walk, s⟩ = .ok code? d ∧
      Wandered c limit? walk s code? d new := by
  have happly := loginAndWander_apply c limit? walk s
  rw [hrun] at happly
  obtain ⟨d, hfinish, hmemory, hnoted⟩ := finish_of_error happly hbreaks
  obtain ⟨new, hnew⟩ := hbreaks.exists_recount
  have hnew' : s.Recount d.session (some f) new :=
    { hnew with happened := hnoted.peer_eq ▸ hnew.happened }
  refine ⟨_, d, new, hfinish, .of_recount hnew' ?_ (fun _ h => by cases h) fun _ => ⟨hmemory, ?_⟩⟩
  · intro code hcode
    obtain rfl := Option.some.inj hcode
    exact wanderStatus_of_breaks hnew' fun _ _ => Login.not_ends_of_error hrun
  · rw [hrun]
    exact hnoted

/-- The login did not succeed, and nothing more is done. -/
theorem exists_wandered_of_login {e : Client Login.Stage} (walk : Wander.Walk)
    {stage? : Option Login.Stage} (hrun : Login.run c ⟨.start, s⟩ = .ok stage? e)
    (hflows : s.Flows e.session) (hstage : stage? ≠ some .playing) :
    ∃ code? d new, wander c limit? ⟨walk, s⟩ = .ok code? d ∧
      Wandered c limit? walk s code? d new := by
  have happly : loginAndWander c limit? ⟨walk, s⟩ =
      .ok (stage?.map .ofLogin) ⟨walk, e.session⟩ := by
    rw [loginAndWander_apply, hrun]
    cases stage? with
    | none => rfl
    | some stage => exact if_neg fun h => hstage (congrArg some h)
  obtain ⟨new, hnew⟩ := hflows.exists_recount
  refine ⟨_, ⟨walk, e.session⟩, new, finish_of_ok happly,
    .of_recount hnew ?_ (fun hs hnone => ?_) fun _ => ⟨rfl, ?_⟩⟩
  · intro code hcode
    obtain ⟨stage, rfl, rfl⟩ := Option.map_eq_some_iff.mp hcode
    exact wanderStatus_of_login hnew (fun _ => Login.ends_iff hrun) (Login.isOver_of_run hrun)
      fun h => hstage (congrArg some h)
  · obtain rfl := Option.map_eq_none_iff.mp hnone
    exact absurd hrun (Login.run_ne_none hs.reachable)
  · rw [hrun]
    exact .refl

/-- The login succeeded, and the walk is made. -/
theorem exists_wandered_of_playing {e : Client Login.Stage} (walk : Wander.Walk)
    (hrun : Login.run c ⟨.start, s⟩ = .ok (some .playing) e) (hflows : s.Flows e.session) :
    ∃ code? d new, wander c limit? ⟨walk, s⟩ = .ok code? d ∧
      Wandered c limit? walk s code? d new := by
  have happly : loginAndWander c limit? ⟨walk, s⟩ = wanderOn limit? ⟨walk, e.session⟩ := by
    rw [loginAndWander_apply, hrun]
    exact if_pos rfl
  have hends (stage : Login.Stage) : Login.Ends c s stage ↔ .playing = stage :=
    Login.ends_iff hrun
  have hplaying : Login.Ends c s .playing := (hends _).mpr rfl
  have hother (stage : Login.Stage) (h : stage ≠ .playing) : ¬ Login.Ends c s stage :=
    fun hstage => h ((hends stage).mp hstage).symm
  have hwalk : WalkEnds limit? s (wanderOn limit? ⟨walk, e.session⟩) := walkEnds_wanderOn hflows
  cases hon : wanderOn limit? ⟨walk, e.session⟩ with
  | error f d =>
    rw [hon] at happly hwalk
    obtain ⟨-, hbreaks⟩ := hwalk
    obtain ⟨d', hfinish, -, hnoted⟩ := finish_of_error happly hbreaks
    obtain ⟨new, hnew⟩ := hbreaks.exists_recount
    have hnew' : s.Recount d'.session (some f) new :=
      { hnew with happened := hnoted.peer_eq ▸ hnew.happened }
    refine ⟨_, d', new, hfinish,
      .of_recount hnew' ?_ (fun _ h => by cases h) fun h => absurd hplaying h⟩
    intro code hcode
    obtain rfl := Option.some.inj hcode
    exact wanderStatus_of_breaks hnew' hother
  | ok code? d =>
    rw [hon] at happly hwalk
    have hendless (hs : s.Sound) (hnone : code? = none) : NeverEnds c limit? walk s := by
      subst hnone
      exact ⟨e, hrun, endless_of_wanderOn (Login.sound_of_run hs hrun) hon⟩
    have hend {f? : Option Failure} {new : List Event} (hnew : s.Recount d.session f? new)
        (hstatus : ∀ code ∈ code?, WanderStatus c limit? s new d.memory.moves code) :
        ∃ code? d new, wander c limit? ⟨walk, s⟩ = .ok code? d ∧
          Wandered c limit? walk s code? d new :=
      ⟨code?, d, new, finish_of_ok happly,
        .of_recount hnew hstatus hendless fun h => absurd hplaying h⟩
    cases code? with
    | none =>
      obtain ⟨new, hnew⟩ := Flows.exists_recount hwalk
      exact hend hnew fun _ hcode => by cases hcode
    | some code =>
      obtain ⟨rfl, ⟨hon, hfar⟩ | hbreaks⟩ := hwalk
      · obtain ⟨new, hnew⟩ := hon.exists_recount
        refine hend hnew fun code hcode => ?_
        obtain rfl := Option.some.inj hcode
        exact wanderStatus_of_farEnough hnew hends hfar
      · obtain ⟨new, hnew⟩ := hbreaks.exists_recount
        refine hend hnew fun code hcode => ?_
        obtain rfl := Option.some.inj hcode
        exact wanderStatus_of_breaks hnew hother

theorem exists_wandered (c : Credentials) (limit? : Option Nat) (walk : Wander.Walk)
    (s : Session) : ∃ code? d new, wander c limit? ⟨walk, s⟩ = .ok code? d ∧
      Wandered c limit? walk s code? d new := by
  have hlogin : Client.Course s (Login.run c ⟨.start, s⟩) := Login.course_run (.of_eq rfl)
  cases hrun : Login.run c ⟨.start, s⟩ with
  | error f e =>
    rw [hrun] at hlogin
    exact exists_wandered_of_error walk hrun hlogin
  | ok stage? e =>
    rw [hrun] at hlogin
    by_cases hstage : stage? = some .playing
    · subst hstage
      exact exists_wandered_of_playing walk hrun hlogin
    · exact exists_wandered_of_login walk hrun hlogin hstage

/-- How a run of the program that creates accounts ended. -/
structure Provisioned (s : Session) (code : ExitCode) (d : Client Signup.Ledger)
    (new : List Event) : Prop where
  happened : d.session.peer.happened = s.peer.happened ++ new
  fatal_last : ∀ e ∈ new.dropLast, ¬ e.IsFatal
  status : BatchStatus new code

theorem Provisioned.of_recount {code : ExitCode} {d : Client Signup.Ledger} {f? : Option Failure}
    (h : s.Recount d.session f? new)
    (hcode : code = if f?.any (!·.isClosed) then .broken else .success) :
    Provisioned s code d new where
  happened := h.happened
  fatal_last := h.fatal_last
  status := by
    have hfailed := h.failed_iff
    cases hany : f?.any (!·.isClosed) <;> constructor <;> simp_all [ExitCode.status]

theorem exists_provisioned (b : Batch) (ledger : Signup.Ledger) (s : Session) :
    ∃ code d new, provision b ⟨ledger, s⟩ = .ok (some code) d ∧ Provisioned s code d new := by
  have hcourse : Signup.Course s (Signup.run b ⟨ledger, s⟩) := Signup.course_run (.of_eq rfl)
  cases hrun : Signup.run b ⟨ledger, s⟩ with
  | error f e =>
    rw [hrun] at hcourse
    obtain ⟨hclosed, hbreaks⟩ := hcourse
    have hbatch : createBatch b ⟨ledger, s⟩ = .error f e := by
      rw [createBatch, bind_apply, hrun]
    obtain ⟨d, hfinish, -, hnoted⟩ := finish_of_error hbatch hbreaks
    obtain ⟨new, hnew⟩ := hbreaks.exists_recount
    have hnew' : s.Recount d.session (some f) new :=
      { hnew with happened := hnoted.peer_eq ▸ hnew.happened }
    exact ⟨_, d, new, hfinish, .of_recount hnew' (by simp [hclosed])⟩
  | ok report e =>
    rw [hrun] at hcourse
    obtain ⟨d, hbatch, hpeer⟩ : ∃ d, createBatch b ⟨ledger, s⟩ = .ok (some .success) d ∧
        d.session.peer = e.session.peer := by
      rw [createBatch, bind_apply, hrun]
      cases h : report.cutShort with
      | true => simp only [h]; exact ⟨_, rfl, rfl⟩
      | false => simp only [h]; exact ⟨_, rfl, rfl⟩
    obtain ⟨f?, new, hnew, hregular⟩ : ∃ f? new, s.Recount e.session f? new ∧
        f?.any (!·.isClosed) = false := by
      change if _ then _ else _ at hcourse
      split at hcourse
      · obtain ⟨new, hnew⟩ := Breaks.exists_recount hcourse
        exact ⟨_, new, hnew, rfl⟩
      · obtain ⟨new, hnew⟩ := Flows.exists_recount hcourse
        exact ⟨_, new, hnew, rfl⟩
    have hnew' : s.Recount d.session f? new := { hnew with happened := hpeer ▸ hnew.happened }
    exact ⟨_, d, new, finish_of_ok hbatch, .of_recount hnew' (by simp [hregular])⟩

/-- **What the status of a program tells.** Over any session, neither program fails. When it ends,
its status says how the session ended: the program that wanders about tells a login turned down, as
in use or unknown, from a read or a write that failed, and both from a regular end; the one that
creates accounts tells a read or a write that failed from anything else. The end of the stream, or a
read or a write that fails, is the last thing that happens. After a login that did not succeed
nothing is drawn at random and nothing sent; the login itself sends its lines and the password. The
one that creates accounts always ends, and the other one does unless its walk goes on for ever. -/
theorem exit_status (c : Credentials) (limit? : Option Nat) (walk : Wander.Walk) (b : Batch)
    (ledger : Signup.Ledger) (s : Session) :
    (∃ code? d new, wander c limit? ⟨walk, s⟩ = .ok code? d ∧
      Wandered c limit? walk s code? d new) ∧
    ∃ code d new, provision b ⟨ledger, s⟩ = .ok (some code) d ∧ Provisioned s code d new :=
  ⟨exists_wandered c limit? walk s, exists_provisioned b ledger s⟩

end Program

end MudDialogue
