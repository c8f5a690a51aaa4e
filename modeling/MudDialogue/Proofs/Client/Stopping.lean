import MudDialogue.Proofs.Client.Endless
import MudDialogue.Proofs.Signup.Report

/-!
# Every dialogue stops

A server that acts as a script says has only so much to say and takes only so long. A login and the
dialogues of a batch use it up prompt by prompt, and so they end whatever the settings are. A walk
can also go on in silence, but if a wait takes any time at all, it uses up the time that is left
until the stream ends. So the only walks that do not stop are those on which no wait takes time.

A walk without a limit that nothing goes wrong with has one end only: the server hangs up.

## Main definitions

* `Prompts.Consumes` — how much is given up for a prompt of a set, at least.
* `Session.Faultless` — nothing can go wrong with reading or writing.
* `Session.Stops` — every dialogue over a session stops.

## Main results

* `Wander.run_ne_none` — a walk stops if waiting takes time.
* `Wander.exists_hungUp_of_faultless` — a walk that nothing goes wrong with ends as the server hangs
  up.
* `Session.stops_facing` — every dialogue stops, whatever the script is.
-/

namespace MudDialogue

open Pattern ClientM Operation

/-- Whenever a prompt of the set is recognised, so many bytes are given up for it, at least. -/
def Pattern.Prompts.Consumes {τ : Type} (set : Prompts τ) (n : Nat) : Prop :=
  ∀ (b : Backlog) (found : Match τ) (rest : Backlog), b.search set = some (found, rest) →
    rest.content.length + n ≤ b.content.length

theorem Pattern.Prompts.OpensWith.consumes {τ : Type} {set : Prompts τ} {n : Nat}
    (hset : set.OpensWith n) : set.Consumes n := by
  intro b found rest hsearch
  obtain ⟨⟨_, stop⟩, hfind, hrest⟩ := Option.map_eq_some_iff.mp hsearch
  obtain ⟨-, rfl⟩ := Prod.mk.inj hrest
  obtain ⟨hle, hstop⟩ := hset.le_stop hfind
  simp only [Backlog.consume, List.length_drop]
  omega

/-! ### Nothing goes wrong -/

namespace Session

variable {s t : Session}

/-- Nothing can go wrong: the server takes whatever it is sent, and no read is going to fail. -/
structure Faultless (s : Session) : Prop where
  room : s.peer.room? = none
  brings : ∀ a ∈ s.peer.arrivals, ∃ bytes, a.delivery = .bytes bytes

theorem Faultless.of_peer (h : s.Faultless) (hroom : t.peer.room? = s.peer.room?)
    (harrivals : t.peer.arrivals ⊆ s.peer.arrivals) : t.Faultless :=
  ⟨hroom.trans h.room, fun a ha => h.brings a (harrivals ha)⟩

/-- An operation leaves nothing that can go wrong, unless it finds the end of the stream. -/
def Runs {α : Type} : EStateM.Result Failure Session α → Prop
  | .ok _ t => t.Faultless
  | .error f _ => f = .closed

/-- **Only the end of the stream makes a wait fail** if nothing can go wrong. -/
theorem Waits.runs {τ : Type} {prompts : Prompts τ} {deadline : Nat} {arrivals : List Arrival}
    {r : EStateM.Result Failure Session (Option (Match τ))}
    (h : Waits prompts deadline arrivals s r) (harrivals : s.peer.arrivals = arrivals)
    (hs : s.Faultless) : Runs r := by
  induction h with
  | found hsearch => exact hs.of_peer rfl (List.Subset.refl _)
  | silence hsearch hnext => exact hs.of_peer rfl (List.Subset.refl _)
  | ended hsearch hclose => rfl
  | @fault a later s reason hsearch ht ha =>
    obtain ⟨bytes, hbytes⟩ := hs.brings a (harrivals ▸ List.mem_cons_self)
    cases ha.symm.trans hbytes
  | unwritten hsearch ht ha hwrite => cases (hear_fst_of_room hs.room ..).symm.trans hwrite
  | @bytes a later s bytes result hsearch ht ha hwrite hrest ih =>
    refine ih (arrivals_hear ..) ⟨?_, fun b hb => hs.brings b ?_⟩
    · rw [room_hear, hs.room]
      rfl
    · rw [arrivals_hear] at hb
      exact harrivals ▸ List.mem_cons_of_mem a hb

theorem runs_listen {τ : Type} [ToString τ] (prompts : Prompts τ) (hs : s.Faultless) :
    Runs (listen prompts s) := by
  have hwaits := waits_listenFor prompts s.settings.timeout s
  have hruns : Runs (unloggedResult (listenFor prompts s.settings.timeout s)) :=
    hwaits.runs rfl (hs.of_peer rfl (List.Subset.refl _))
  rw [listen_eq]
  cases hr : listenFor prompts s.settings.timeout s with
  | error f t =>
    rw [hr] at hruns
    exact hruns
  | ok found? t =>
    rw [hr] at hruns
    exact Faultless.of_peer hruns rfl (List.Subset.refl _)

theorem runs_line (message line : String) (hs : s.Faultless) :
    Runs ((do note .debug message; writeLine line : SessionM Unit) s) := by
  rw [line_eq, write_eq, if_pos (Peer.write_fst_of_room hs.room _)]
  rw [Peer.write_eq]
  exact ⟨congrArg (Option.map _) hs.room, hs.brings⟩

theorem alike_runs {α : Type} {x : SessionM α} (hx : ∀ {s : Session}, s.Faultless → Runs (x s)) :
    Alike (Itself Faultless) (fun f => Itself fun _ => f = .closed) x x :=
  .of_keeps (fun {_ a t} hs h => (h ▸ hx hs : Runs (.ok a t)))
    fun {_ f t} hs h => (h ▸ hx hs : Runs (.error (α := α) f t))

/-- **Whatever is done, nothing goes wrong** but that the stream ends. -/
theorem isBisimulation_faultless (secret : String) :
    IsBisimulation (fun _ => True) secret secret (Itself Faultless)
      fun f => Itself fun _ => f = .closed where
  horizon := by
    rintro s _ ⟨rfl, -⟩
    rfl
  note _ _ _ := alike_runs fun hs => hs.of_peer rfl (List.Subset.refl _)
  say _ := alike_runs (runs_line _ _)
  whisper := alike_runs (runs_line _ _)
  listen prompts := alike_runs (runs_listen prompts)

/-- Nothing can go wrong with a server whose script has no read that fails in it. -/
theorem faultless_facing {script : List ServerAct} (hroom : s.peer.room? = none)
    (hscript : ∀ reason, .fault reason ∉ script) : (s.facing script).Faultless := by
  refine ⟨hroom, fun a ha => ?_⟩
  change a ∈ (Peer.timeline s.peer.clock script).1 at ha
  generalize s.peer.clock = now at ha
  induction script generalizing now with
  | nil => cases ha
  | cons act script ih =>
    have hrest (reason : String) : .fault reason ∉ script := fun hmem =>
      hscript reason (List.mem_cons_of_mem act hmem)
    cases act with
    | send bytes =>
      rcases List.mem_append.mp ha with ha | ha
      · obtain ⟨read, -, rfl⟩ := List.mem_map.mp ha
        exact ⟨read, rfl⟩
      · exact ih hrest now ha
    | wait n => exact ih hrest (now + n) ha
    | fault reason => exact absurd List.mem_cons_self (hscript reason)

end Session

/-! ### Walks -/

namespace Wander

open Session

variable {limit? : Option Nat} {c d : Client Walk}

/-- A walk does not change the settings. -/
theorem settings_of_round (hc : c.session.Sound) (h : round limit? c = .ok none d) :
    d.session.settings = c.session.settings := by
  have honward : c.session.Onward d.session :=
    kept_of_ok (alike_advance (isBisimulation_onward c.session "") fun _ _ => trivial)
      hc.orderly.onward (advance_of_round h).2
  exact honward.settings

/-- **A walk stops if waiting takes time.** -/
theorem run_ne_none (hc : c.session.Sound) (htimeout : 0 < c.session.settings.timeout) :
    run limit? c ≠ .ok none d := by
  have hround {c d : Client Walk}
      (hc : c.session.Sound ∧ 0 < c.session.settings.timeout) (h : round limit? c = .ok none d) :
      (d.session.Sound ∧ 0 < d.session.settings.timeout) ∧ d.session.left < c.session.left := by
    have htime : 0 < d.session.settings.timeout := settings_of_round hc.1 h ▸ hc.2
    rcases left_of_round hc.1 h with ⟨hd, hless⟩ | hidle
    · exact ⟨⟨hd, htime⟩, hless⟩
    · exact absurd hidle.deaf.timeout (Nat.ne_of_gt htime)
  exact rounds_ne_none (c := ⟨.start c.memory.source, c.session⟩) hround ⟨hc, htimeout⟩
    (left_lt_horizon c.session)

/-- A walk without a limit that does not fail ends as the server hangs up. -/
theorem ending_of_run {tally : Tally} (h : run none c = .ok (some tally) d) :
    tally.ending = .hungUp := by
  have hcourse : Course c.session none (run none c) := course_run (.of_eq rfl)
  rw [h] at hcourse
  change Ends c.session none tally d at hcourse
  unfold Ends at hcourse
  cases hending : tally.ending with
  | hungUp => rfl
  | farEnough =>
    rw [hending] at hcourse
    exact absurd hcourse.2 Bool.false_ne_true

/-- What fails in a walk is a read or a write. -/
theorem failed_of_run {f : Failure} (h : run limit? c = .error f d) {new : List Event}
    (hnew : d.session.peer.happened = c.session.peer.happened ++ new) :
    .readFailed ∈ new ∨ .writeFailed ∈ new := by
  have hcourse : Course c.session limit? (run limit? c) := course_run (.of_eq rfl)
  rw [h] at hcourse
  obtain ⟨hopen, before, last, hbefore, -, hlast⟩ := hcourse
  rw [hbefore, List.append_assoc, List.append_cancel_left_eq] at hnew
  have hmem : last ∈ new := hnew ▸ List.mem_append_right before List.mem_cons_self
  rcases hlast.failed_iff.mpr hopen with rfl | rfl
  · exact .inl hmem
  · exact .inr hmem

/-- A round in which nothing can go wrong does not fail. -/
theorem runs_round (hc : c.session.Faultless) :
    (∀ f d, round limit? c ≠ .error f d) ∧
      ∀ d, round limit? c = .ok none d → d.session.Faultless := by
  have halike : AlikeOver (Itself Faultless) (fun f => Itself fun _ => f = .closed)
      advance advance := alike_advance (isBisimulation_faultless "") fun _ _ => trivial
  refine ⟨fun f d h => ?_, fun d h => kept_of_ok halike hc (advance_of_round h).2⟩
  rw [round_apply] at h
  split at h
  · cases h
  · cases hadvance : advance c with
    | ok _ e =>
      rw [hadvance] at h
      cases h
    | error g e =>
      obtain rfl : g = .closed := kept_of_error halike hc hadvance
      rw [hadvance] at h
      cases h

/-- **A walk that nothing goes wrong with ends as the server hangs up**, if it has no limit and
waiting takes time. -/
theorem exists_hungUp_of_faultless (hc : c.session.Sound)
    (htimeout : 0 < c.session.settings.timeout) (hfaultless : c.session.Faultless) :
    ∃ tally d, run none c = .ok (some tally) d ∧ tally.ending = .hungUp := by
  cases h : run none c with
  | ok tally? d =>
    cases tally? with
    | none => exact absurd h (run_ne_none hc htimeout)
    | some tally => exact ⟨tally, d, rfl, ending_of_run h⟩
  | error f d =>
    change rounds (round none) c.session.horizon ⟨.start c.memory.source, c.session⟩ = _ at h
    rcases rounds_last (P := fun c => c.session.Faultless) (fun hc h => (runs_round hc).2 _ h)
      (c := ⟨.start c.memory.source, c.session⟩) hfaultless with
      ⟨e, he, -⟩ | ⟨c', tally, e, -, -, he⟩ | ⟨c', g, e, hc', hlast, -⟩
    · cases he.symm.trans h
    · cases he.symm.trans h
    · exact absurd hlast ((runs_round hc').1 g e)

end Wander

/-! ### All dialogues -/

/-- Every dialogue over a session stops, in a result or a failure. Where a loop can be told to have
no result, it has one or fails: a login, each dialogue of a batch, and a walk if waiting takes time.
A batch that is over has attempted everything, unless the server hung up. A walk without a limit
that did not fail has ended as the server hung up, and it fails only by a read or a write. -/
structure Session.Stops (s : Session) : Prop where
  login (c : Credentials) (stage : Login.Stage) (d : Client Login.Stage) :
    Login.run c ⟨stage, s⟩ ≠ .ok none d
  signup (b : Batch) {n : Nat} {t : Session} (hturn : Signup.Turn b s n t)
    (d : Client Signup.Stage) : Signup.createOne b (b.username n) ⟨.start, t⟩ ≠ .ok none d
  batch (b : Batch) (before : Signup.Ledger) {ledger : Signup.Ledger} {d : Client Signup.Ledger}
    (hrun : Signup.run b ⟨before, s⟩ = .ok ledger d) :
    ledger.cutShort = false → ledger.attempted = b.count
  walk (limit? : Option Nat) (walk : Wander.Walk) (htimeout : 0 < s.settings.timeout)
    (d : Client Wander.Walk) : Wander.run limit? ⟨walk, s⟩ ≠ .ok none d
  hungUp (walk : Wander.Walk) (htimeout : 0 < s.settings.timeout) {new : List Event}
    (hnew : (endState (Wander.run none ⟨walk, s⟩)).session.peer.happened =
      s.peer.happened ++ new) (hread : .readFailed ∉ new) (hwrite : .writeFailed ∉ new) :
    ∃ tally d, Wander.run none ⟨walk, s⟩ = .ok (some tally) d ∧ tally.ending = .hungUp

namespace Session

/-- A dialogue of a batch starts on a session of a program. -/
theorem reachable_of_turn {b : Batch} {s t : Session} {n : Nat} (hs : s.backlog.Reachable)
    (h : Signup.Turn b s n t) : t.backlog.Reachable := by
  induction h with
  | first h => exact hs
  | @next n t fate c hturn hcount hone ih =>
    exact (supply_of_alike (fun m => Signup.alike_createOne
      (isBisimulation_supplied m b.password.reveal) fun _ _ => trivial) (c := ⟨.start, t⟩) ih
        hone).1

theorem Sound.stops {s : Session} (hs : s.Sound) : s.Stops where
  login c stage d := by
    have hc : (⟨stage, s⟩ : Client Login.Stage).Reachable := hs.reachable
    exact Login.run_ne_none hc
  signup b n t hturn d :=
    Signup.createOne_ne_none (c := ⟨.start, t⟩) (reachable_of_turn hs.reachable hturn)
  batch b before ledger d hrun hcut := by
    obtain ⟨-, e, hover, rfl, -⟩ :=
      Signup.over_of_run (c := ⟨before, s⟩) hs.reachable hrun
    have hnot : ¬ e.memory.attempted < b.count := by
      rw [← hover.cutShort_iff, hcut]
      exact Bool.false_ne_true
    exact Nat.le_antisymm hover.attempted_le (Nat.le_of_not_lt hnot)
  walk limit? walk htimeout d := Wander.run_ne_none (c := ⟨walk, s⟩) hs htimeout
  hungUp walk htimeout new hnew hread hwrite := by
    cases h : Wander.run none ⟨walk, s⟩ with
    | error f d =>
      rw [h] at hnew
      exact ((Wander.failed_of_run h hnew).elim hread hwrite).elim
    | ok tally? d =>
      cases tally? with
      | none => exact absurd h (Wander.run_ne_none (c := ⟨walk, s⟩) hs htimeout)
      | some tally => exact ⟨tally, d, rfl, Wander.ending_of_run h⟩

theorem sound_facing {s : Session} (hs : s.backlog.Reachable) (script : List ServerAct) :
    (s.facing script).Sound :=
  ⟨hs, Peer.inOrder_timeline s.peer.clock script⟩

/-- **Every dialogue stops, whatever the server does.** Whatever a session of a program has heard,
whatever its settings are and however much the server is going to take: over a server that acts as a
script says and then hangs up, every dialogue stops. At least two bytes are given up for every
prompt that is answered. A walk without a limit over a script without a read that fails, with a
server that takes everything, always ends as the server hangs up. -/
theorem stops_facing {s : Session} (hs : s.backlog.Reachable) (script : List ServerAct) :
    (s.facing script).Stops ∧
      (Login.prompts.Consumes 2 ∧ Signup.accountPrompts.Consumes 2 ∧
        Signup.characterPrompts.Consumes 2 ∧ Wander.prompts.Consumes 2) ∧
      (0 < s.settings.timeout → s.peer.room? = none → (∀ reason, .fault reason ∉ script) →
        ∀ walk : Wander.Walk, ∃ tally d,
          Wander.run none ⟨walk, s.facing script⟩ = .ok (some tally) d ∧
            tally.ending = .hungUp) := by
  have hsound : (s.facing script).Sound := sound_facing hs script
  refine ⟨hsound.stops, ⟨?_, ?_, ?_, ?_⟩, fun htimeout hroom hscript walk => ?_⟩
  · exact Login.opensWith_prompts.consumes
  · exact Signup.opensWith_accountPrompts.consumes
  · exact Signup.opensWith_characterPrompts.consumes
  · exact Wander.opensWith_prompts.consumes
  · exact Wander.exists_hungUp_of_faultless (c := ⟨walk, s.facing script⟩) hsound htimeout
      (faultless_facing hroom hscript)

/-- The stream ends while a walk without a limit waits for a room that never comes. -/
theorem stops_facing_in_silence :
    let s := start (.ofScript [] none) {}
    let script := [.send (Text.Utf8.bytes "Exits: [N]orth\n"), .wait 12000]
    s.backlog.Reachable ∧ (s.facing script).Stops ∧
      ∃ tally d, Wander.run none ⟨.start (.ofList [7]), s.facing script⟩ = .ok (some tally) d ∧
        tally.ending = .hungUp := by
  intro s script
  have hs : s.backlog.Reachable := .empty _
  obtain ⟨hstops, -, hwalk⟩ := stops_facing hs script
  exact ⟨hs, hstops, hwalk (by decide) rfl (by simp [script]) _⟩

end Session

end MudDialogue
