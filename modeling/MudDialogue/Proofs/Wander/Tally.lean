import Mathlib.Algebra.Ring.Nat
import MudDialogue.Proofs.Client.Endless
import MudDialogue.Proofs.Client.HangingUp
import MudDialogue.Proofs.Client.Manner
import MudDialogue.Proofs.World.Picks

/-!
# The account of a walk

A walk goes step by step. In each step a wait comes to a list of exits, or to nothing in time, and
exactly one line is sent: the way through one of the exits of that list, or the command to look
around if there is none. The tally counts the one and the other, random words are drawn for a move
and for nothing else, and the walk is over as soon as the server hangs up or the limit is reached.

## Main definitions

* `Wander.Step` — what a wait came to, with the source of random words at that time; it tells the
  exits, the one that is taken and the line that is sent.
* `Wander.steps` — the steps of a walk, as its waits tell them.
* `Wander.manner` — how a wanderer reacts to what its waits come to.
* `Wander.Account` — what a tally says of the steps.

## Main results

* `Wander.exists_account` — the tally of every walk is a faithful account of it.
-/

namespace MudDialogue.Wander

open Pattern ClientM Operation

/-- One step of a walk. -/
structure Step where
  /-- What the wait came to. -/
  heard? : Option (Match Prompt)
  /-- Where the random words come from. -/
  source : WordSource

namespace Step

/-- The exits that were heard of. -/
def exits (step : Step) : Exits := step.heard?.elim .empty ExitLine.read

/-- The exit that is taken, if there is any. -/
def taken? (step : Step) : Option Direction := (step.exits.choose? step.source).1

/-- Where the random words come from afterwards. -/
def rest (step : Step) : WordSource := (step.exits.choose? step.source).2

/-- How many words are drawn. -/
def drawn (step : Step) : Nat := step.rest.drawn - step.source.drawn

/-- The client leaves the room. -/
def isMove (step : Step) : Bool := step.taken?.isSome

/-- The line that is sent. -/
def line (step : Step) : String := step.taken?.elim look Direction.code

/-- What is done over the session. -/
def deeds (step : Step) : List (Deed Prompt) := [.waited step.heard?, .said step.line]

/-- What a step is like: a move goes through an exit of the list that was heard, and words are drawn
for it; otherwise there are no exits, and no word is drawn. -/
def IsFair (step : Step) : Prop :=
  match step.taken? with
  | some d => d ∈ step.exits.toList ∧ step.line = d.code ∧ 1 ≤ step.drawn
  | none => step.exits.toList = [] ∧ step.line = look ∧ step.drawn = 0

theorem isFair (step : Step) : step.IsFair := by
  rcases step.exits.choose?_cases step.source with ⟨hnone, hpick⟩ | ⟨d, hd, hpick, hdrawn⟩
  · have htaken : step.taken? = none := congrArg Prod.fst hpick
    have hrest : step.rest = step.source := congrArg Prod.snd hpick
    rw [IsFair, htaken]
    exact ⟨hnone, by rw [line, htaken]; rfl, by rw [drawn, hrest, Nat.sub_self]⟩
  · have htaken : step.taken? = some d := hpick
    rw [IsFair, htaken]
    exact ⟨hd, by rw [line, htaken]; rfl, Nat.sub_pos_of_lt hdrawn⟩

theorem drawn_source_le (step : Step) : step.source.drawn ≤ step.rest.drawn := by
  rcases step.exits.choose?_cases step.source with ⟨-, hpick⟩ | ⟨d, -, -, hdrawn⟩
  · exact Nat.le_of_eq (congrArg (fun pick => pick.2.drawn) hpick).symm
  · exact Nat.le_of_lt hdrawn

end Step

/-- The steps of a walk, as its waits tell them. -/
def steps : WordSource → List (Option (Match Prompt)) → List Step
  | _, [] => []
  | source, heard? :: talk => ⟨heard?, source⟩ :: steps (Step.rest ⟨heard?, source⟩) talk

/-- How a wanderer reacts to what its waits come to. -/
def manner (limit? : Option Nat) : Manner Walk Prompt where
  going walk := ¬ limit?.any (· ≤ walk.moves)
  replies walk heard? := [.said (Step.line ⟨heard?, walk.source⟩)]
  next walk heard? :=
    let step : Step := ⟨heard?, walk.source⟩
    ⟨step.rest, walk.moves + if step.isMove then 1 else 0,
      walk.looks + if step.isMove then 0 else 1⟩
  broken walk heard? := { walk with source := Step.rest ⟨heard?, walk.source⟩ }

/-- What a wanderer does when a wait is over. -/
def react : Option (Match Prompt) → ClientM Walk Unit
  | some found => leave (ExitLine.read found)
  | none => lookAgain "no exit list"

theorem advance_eq : advance = listen prompts >>= react := rfl

variable {limit? : Option Nat} {c d e : Client Walk}

theorem performs_lookAgain (reason : String) (c : Client Walk) :
    Performs prompts (lookAgain reason) c () [.said look]
      { c.memory with looks := c.memory.looks + 1 } c.memory :=
  (performs_note prompts c .debug _).bind fun t => (performs_say prompts ⟨c.memory, t⟩ look).bind
    fun t => (performs_remembered prompts ⟨c.memory, t⟩).bind fun _ => performs_remember ..

/-- What is done about the exits of a room. -/
theorem performs_leave (exits : Exits) (c : Client Walk) :
    Performs prompts (leave exits) c ()
      [.said ((exits.choose? c.memory.source).1.elim look Direction.code)]
      ⟨(exits.choose? c.memory.source).2,
        c.memory.moves + if (exits.choose? c.memory.source).1.isSome then 1 else 0,
        c.memory.looks + if (exits.choose? c.memory.source).1.isSome then 0 else 1⟩
      { c.memory with source := (exits.choose? c.memory.source).2 } := by
  refine (performs_remembered prompts c).bind fun t => ?_
  dsimp only
  rcases exits.choose? c.memory.source with ⟨_ | d, source⟩
  · let walk : Walk := { c.memory with source }
    exact (performs_remember prompts ⟨c.memory, t⟩ walk).bind fun t =>
      performs_lookAgain "room has no exits" ⟨walk, t⟩
  · let walk : Walk := { c.memory with source }
    exact (performs_remember prompts ⟨c.memory, t⟩ walk).bind fun t =>
      (performs_note prompts ⟨walk, t⟩ .debug _).bind fun t =>
        (performs_say prompts ⟨walk, t⟩ d.code).bind fun _ => performs_remember ..

/-- **A wanderer reacts in its manner.** -/
theorem guides_react (limit? : Option Nat) : (manner limit?).Guides prompts react := by
  intro heard? c
  cases heard? with
  | none => exact performs_lookAgain "no exit list" c
  | some found => exact performs_leave (ExitLine.read found) c

/-! ### Steps -/

variable {talk : List (Option (Match Prompt))}

theorem deeds_eq (limit? : Option Nat) (walk : Walk) (talk : List (Option (Match Prompt))) :
    (manner limit?).deeds walk talk = (steps walk.source talk).flatMap Step.deeds := by
  induction talk generalizing walk with
  | nil => rfl
  | cons heard? talk ih =>
    exact congrArg (Step.deeds ⟨heard?, walk.source⟩ ++ ·) (ih ((manner limit?).next walk heard?))

/-- What is remembered after several waits counts the steps. -/
theorem after_eq (limit? : Option Nat) (walk : Walk) (talk : List (Option (Match Prompt))) :
    let path := steps walk.source talk
    let walked := (manner limit?).after walk talk
    walked.moves = walk.moves + path.countP Step.isMove ∧
      walked.looks = walk.looks + path.countP (!·.isMove) ∧
      walked.source.drawn = walk.source.drawn + (path.map Step.drawn).sum := by
  induction talk generalizing walk with
  | nil => exact ⟨rfl, rfl, rfl⟩
  | cons heard? talk ih =>
    let step : Step := ⟨heard?, walk.source⟩
    have hdrawn : step.rest.drawn = walk.source.drawn + step.drawn :=
      (Nat.add_sub_of_le step.drawn_source_le).symm
    obtain ⟨hmoves, hlooks, hsum⟩ := ih ((manner limit?).next walk heard?)
    have hsource : ((manner limit?).next walk heard?).source = step.rest := rfl
    have hmove : ((manner limit?).next walk heard?).moves =
      walk.moves + if step.isMove then 1 else 0 := rfl
    have hlook : ((manner limit?).next walk heard?).looks =
      walk.looks + if step.isMove then 0 else 1 := rfl
    have hsteps : steps walk.source (heard? :: talk) = step :: steps step.rest talk := rfl
    rw [hsource, hmove] at hmoves
    rw [hsource, hlook] at hlooks
    rw [hsource, hdrawn] at hsum
    dsimp only
    rw [hsteps, List.countP_cons, List.countP_cons, List.map_cons, List.sum_cons]
    refine ⟨hmoves.trans (by omega), hlooks.trans ?_, hsum.trans (by omega)⟩
    cases step.isMove with
    | true => simp
    | false => simp; omega

/-- The last wait tells the last step. -/
theorem steps_concat (limit? : Option Nat) (walk : Walk) (talk : List (Option (Match Prompt)))
    (heard? : Option (Match Prompt)) : steps walk.source (talk ++ [heard?]) =
      steps walk.source talk ++ [⟨heard?, ((manner limit?).after walk talk).source⟩] := by
  induction talk generalizing walk with
  | nil => rfl
  | cons first talk ih => exact congrArg (_ :: ·) (ih ((manner limit?).next walk first))

/-- A wanderer that has come somewhere has made its steps and counted them. -/
theorem did_of_comes {source : WordSource} {s : Session}
    (h : (manner limit?).Comes prompts (round limit?) ⟨.start source, s⟩ talk d) :
    let path := steps source talk
    s.Did prompts (path.flatMap Step.deeds) d.session ∧
      d.memory.moves = path.countP Step.isMove ∧ d.memory.looks = path.countP (!·.isMove) ∧
      d.memory.source.drawn = source.drawn + (path.map Step.drawn).sum := by
  obtain ⟨hdid, hmemory⟩ := h.did
  obtain ⟨hmoves, hlooks, hdrawn⟩ := after_eq limit? (.start source) talk
  rw [deeds_eq] at hdid
  rw [← hmemory] at hmoves hlooks hdrawn
  exact ⟨hdid, hmoves.trans (Nat.zero_add _), hlooks.trans (Nat.zero_add _), hdrawn⟩

/-! ### The end of a walk -/

/-- How a walk ends: the client has gone far enough, or the server hangs up while it waits. -/
inductive Finishes (limit? : Option Nat) (d : Client Walk) : Tally → Session → Prop where
  | farEnough {t} (hfar : limit?.any (· ≤ d.memory.moves))
      (hlog : t.unlogged = d.session.unlogged) : Finishes limit? d (d.memory.tally .farEnough) t
  | hungUp {s t} (hfar : ¬ limit?.any (· ≤ d.memory.moves))
      (hlisten : Session.listen prompts d.session = .error .closed s)
      (hlog : t.unlogged = s.unlogged) : Finishes limit? d (d.memory.tally .hungUp) t

theorem afterFailure_ok {walk : Walk} {f : Failure} {tally : Tally}
    (h : afterFailure walk f d = .ok (some tally) e) :
    f = .closed ∧ tally = d.memory.tally .hungUp ∧ e.memory = d.memory ∧
      e.session.unlogged = d.session.unlogged := by
  unfold afterFailure at h
  cases hclosed : f.isClosed with
  | false =>
    rw [hclosed] at h
    cases h
  | true =>
    rw [hclosed] at h
    obtain ⟨htally, rfl⟩ := EStateM.Result.ok.inj h
    exact ⟨Failure.isClosed_iff.mp hclosed, (Option.some.inj htally).symm, rfl, rfl⟩

/-- What a round comes to that has a result. -/
theorem finishes_of_round {tally : Tally} (h : round limit? d = .ok (some tally) e) :
    Finishes limit? d tally e.session ∧ e.memory = d.memory := by
  rw [round_apply] at h
  split at h
  · next hfar =>
    obtain ⟨htally, rfl⟩ := EStateM.Result.ok.inj h
    obtain rfl := Option.some.inj htally
    exact ⟨.farEnough hfar rfl, rfl⟩
  · next hfar =>
    rw [advance_eq] at h
    have hadvances := (guides_react limit?).advances d
    generalize (listen prompts >>= react) d = r at h hadvances
    cases hadvances with
    | complete => cases h
    | deaf hlisten =>
      obtain ⟨rfl, rfl, hmemory, hlog⟩ := afterFailure_ok h
      exact ⟨.hungUp hfar hlisten hlog, hmemory⟩
    | @mute _ _ done _ _ _ _ hlisten hreplies hmisses =>
      -- the server does not hang up while a line is sent
      obtain ⟨rfl, -⟩ := afterFailure_ok h
      rcases done with _ | ⟨_, _ | ⟨_, _⟩⟩ <;> cases hreplies
      obtain ⟨u, -, hfails⟩ := hmisses
      obtain ⟨events, ⟨hclosed, -⟩, -⟩ := hfails.exists_shown
      cases hclosed

/-- A wanderer that has gone far enough has made the last of its moves just now, or it was not to
make any. -/
theorem moves_of_comes {m : Nat} (h : (manner (some m)).Comes prompts (round (some m)) c talk d)
    (hstart : c.memory.moves = 0) (hfar : m ≤ d.memory.moves) :
    d.memory.moves = m ∧ ∀ last ∈ (steps c.memory.source talk).getLast?, last.isMove = true := by
  have hmemory := h.did.2
  cases h with
  | start =>
    rw [hstart] at hfar ⊢
    exact ⟨(Nat.le_zero.mp hfar).symm, fun last hlast => by cases hlast⟩
  | @round before heard? d₀ _ h hgoing hround hanswers =>
    obtain ⟨-, -, -, hnext⟩ := hanswers
    let step : Step := ⟨heard?, d₀.memory.source⟩
    have hmoves : d.memory.moves = d₀.memory.moves + if step.isMove then 1 else 0 :=
      congrArg Walk.moves hnext
    have hbefore : d₀.memory.moves < m := by
      simpa [manner] using hgoing
    have hlast : (steps c.memory.source (before ++ [heard?])).getLast? = some step := by
      rw [steps_concat (some m), List.getLast?_concat, ← h.did.2]
    cases hmove : step.isMove with
    | true =>
      rw [hmove] at hmoves
      refine ⟨by simp only [if_true] at hmoves; omega, fun last h => ?_⟩
      rw [hlast] at h
      exact Option.some.inj h ▸ hmove
    | false =>
      rw [hmove] at hmoves
      simp only [Bool.false_eq_true, if_false] at hmoves
      omega

/-- What is missed at the end of a walk: nothing, or a wait. -/
def Ending.missed? : Ending → Option (Attempt × Failure)
  | farEnough => none
  | hungUp => some (.wait, .closed)

/-- What a tally says of the steps of a walk from `c` to `d`. -/
structure Account (limit? : Option Nat) (c : Client Walk) (tally : Tally) (d : Client Walk)
    (path : List Step) : Prop where
  /-- What the client did are its steps; if it has gone far enough, it did nothing after them, and
  otherwise the server hung up in the next wait. -/
  went : ∃ u, c.session.Went prompts (path.flatMap Step.deeds) tally.ending.missed? u ∧
    d.session.unlogged = u.unlogged
  /-- In each step a way through an exit that was heard of is taken, if there is any. -/
  fair : ∀ step ∈ path, step.IsFair
  /-- The tally counts the moves. -/
  moves : tally.moves = path.countP Step.isMove
  /-- It counts the other steps. -/
  looks : tally.looks = path.countP (!·.isMove)
  /-- It counts all lines that were sent. -/
  total : tally.moves + tally.looks = path.length
  /-- No words were drawn but in the steps. -/
  drawn : d.memory.source.drawn = c.memory.source.drawn + (path.map Step.drawn).sum
  /-- The client has gone far enough when it has made as many moves as it was told to. -/
  farEnough_iff : tally.ending = .farEnough ↔ ∃ m, limit? = some m ∧ tally.moves = m
  /-- Then the last step was a move. -/
  last_isMove : tally.ending = .farEnough → ∀ last ∈ path.getLast?, last.isMove = true
  /-- If the server hung up, the client was to go further. -/
  moves_lt : tally.ending = .hungUp → ∀ m ∈ limit?, tally.moves < m
  /-- If the client was not to move, it did nothing. -/
  idle : limit? = some 0 → path = [] ∧ d.session.unlogged = c.session.unlogged

/-- **A walk comes somewhere and ends there.** -/
theorem exists_finishes {tally : Tally} (h : run limit? c = .ok (some tally) d) :
    ∃ talk d₀, (manner limit?).Comes prompts (round limit?) ⟨.start c.memory.source, c.session⟩
      talk d₀ ∧ Finishes limit? d₀ tally d.session ∧ d.memory = d₀.memory := by
  have hround {d e : Client Walk} (h : round limit? d = .ok none e) :
      (¬ limit?.any (· ≤ d.memory.moves)) ∧
        ∃ heard?, (manner limit?).Answers prompts d heard? e := by
    obtain ⟨hgoing, hadvance⟩ := advance_of_round h
    refine ⟨hgoing, ?_⟩
    have hadvances := (guides_react limit?).advances d
    rw [← advance_eq, hadvance] at hadvances
    cases hadvances with
    | complete hanswers => exact ⟨_, hanswers⟩
  obtain ⟨talk, d₀, hcomes, hnone | ⟨hlast, -⟩⟩ := (manner limit?).exists_comes hround
    c.session.horizon ⟨.start c.memory.source, c.session⟩
  · cases hnone.symm.trans h
  · exact ⟨talk, d₀, hcomes, finishes_of_round (hlast.symm.trans h)⟩

/-- Of the two ways in which a walk ends, the limit tells which it is. -/
theorem Finishes.ending_cases {tally : Tally} {t : Session} (h : Finishes limit? d tally t)
    (hcomes : (manner limit?).Comes prompts (round limit?) c talk d) (hstart : c.memory.moves = 0) :
    (tally.ending = .farEnough ∧ (∃ m, limit? = some m ∧ tally.moves = m) ∧
        ∀ last ∈ (steps c.memory.source talk).getLast?, last.isMove = true) ∨
      (tally.ending = .hungUp ∧ ∀ m ∈ limit?, tally.moves < m) := by
  cases h with
  | farEnough hfar =>
    cases limit? with
    | none => cases hfar
    | some m =>
      obtain ⟨hmoves, hlast⟩ := moves_of_comes hcomes hstart (of_decide_eq_true hfar)
      exact .inl ⟨rfl, ⟨m, rfl, hmoves⟩, hlast⟩
  | hungUp hfar =>
    refine .inr ⟨rfl, fun m hm => Nat.lt_of_not_le fun hle => hfar ?_⟩
    rw [Option.mem_def.mp hm]
    exact decide_eq_true hle

/-- A client that is not to move does nothing. -/
theorem Finishes.idle {tally : Tally} {t : Session} (h : Finishes (some 0) d tally t)
    (hcomes : (manner (some 0)).Comes prompts (round (some 0)) c talk d) :
    talk = [] ∧ t.unlogged = c.session.unlogged := by
  cases hcomes with
  | start =>
    cases h with
    | farEnough hfar hlog => exact ⟨rfl, hlog⟩
    | hungUp hfar => exact absurd (by simp) hfar
  | round h hgoing => exact absurd (by simp) hgoing

/-- What a walk has done, it has done over the session of its client. -/
theorem Finishes.exists_went {tally : Tally} {s t : Session} {deeds : List (Deed Prompt)}
    (h : Finishes limit? d tally t) (hdid : s.Did prompts deeds d.session) :
    ∃ u, s.Went prompts deeds tally.ending.missed? u ∧ t.unlogged = u.unlogged := by
  cases h with
  | farEnough hfar hlog => exact ⟨_, hdid, hlog⟩
  | hungUp hfar hlisten hlog => exact ⟨_, ⟨_, hdid, hlisten⟩, hlog⟩

/-- A walk that has come somewhere and ends there is as its tally says. -/
theorem Finishes.account {tally : Tally} (h : Finishes limit? d tally e.session)
    (hcomes : (manner limit?).Comes prompts (round limit?) ⟨.start c.memory.source, c.session⟩
      talk d) (hmemory : e.memory = d.memory) :
    Account limit? c tally e (steps c.memory.source talk) := by
  obtain ⟨hdid, hmoves, hlooks, hdrawn⟩ := did_of_comes hcomes
  have htally : tally.moves = d.memory.moves ∧ tally.looks = d.memory.looks := by
    cases h <;> exact ⟨rfl, rfl⟩
  have hcases := h.ending_cases hcomes rfl
  constructor
  · exact h.exists_went hdid
  · exact fun step _ => step.isFair
  · rw [htally.1, hmoves]
  · rw [htally.2, hlooks]
  · rw [htally.1, htally.2, hmoves, hlooks, List.length_eq_countP_add_countP Step.isMove]
    simp
  · rw [hmemory]
    exact hdrawn
  · rcases hcases with ⟨hending, hlimit, -⟩ | ⟨hending, hlimit⟩
    · exact iff_of_true hending hlimit
    · refine iff_of_false (by simp [hending]) ?_
      rintro ⟨m, hm, heq⟩
      exact absurd heq (Nat.ne_of_lt (hlimit m hm))
  · intro hending
    rcases hcases with ⟨-, -, hlast⟩ | ⟨hother, -⟩
    · exact hlast
    · cases hending.symm.trans hother
  · intro hending
    rcases hcases with ⟨hother, -⟩ | ⟨-, hlimit⟩
    · cases hending.symm.trans hother
    · exact hlimit
  · rintro rfl
    obtain ⟨rfl, hidle⟩ := h.idle hcomes
    exact ⟨rfl, hidle⟩

/-- **The tally of every walk is a faithful account of it.** Each step is a wait and one line, the
way through an exit of the list that was just heard, or the command to look around if there is none.
The tally counts the two kinds, and words are drawn for moves only. The client stops exactly when it
has made as many moves as it was told to, and does nothing after the last of them, or when the
server hangs up. Nothing else is seen on the stream. -/
theorem exists_account {tally : Tally} (h : run limit? c = .ok (some tally) d) :
    ∃ talk, Account limit? c tally d (steps c.memory.source talk) ∧
      ∃ parts last,
        ((steps c.memory.source talk).flatMap Step.deeds).Forall₂ (Deed.Shows c.session.settings)
          parts ∧
        d.session.peer.happened = c.session.peer.happened ++ parts.flatten ++ last ∧
        (tally.ending = .farEnough → last = []) ∧
        (tally.ending = .hungUp → Attempt.wait.Shows c.session.settings .closed last) := by
  obtain ⟨talk, d₀, hcomes, hfinishes, hmemory⟩ := exists_finishes h
  have haccount : Account limit? c tally d (steps c.memory.source talk) :=
    hfinishes.account hcomes hmemory
  obtain ⟨u, hwent, hlog⟩ := haccount.went
  obtain ⟨parts, last, hparts, hhappened, hnone, hsome⟩ := hwent.exists_shown
  refine ⟨talk, haccount, parts, last, hparts, ?_, fun hending => ?_, fun hending => ?_⟩
  · rw [← hhappened]
    exact congrArg (·.peer.happened) hlog
  · exact hnone (by rw [hending]; rfl)
  · exact hsome _ _ (by rw [hending]; rfl)

/-- No list of exits comes in time, then one with an exit; the list after it is not read any more,
as one move was asked for. -/
theorem exists_account_far_enough :
    let s := Session.start (.ofScript [.wait 6000, .send (Text.Utf8.bytes "Exits: [N]\n"),
      .send (Text.Utf8.bytes "Exits: [S]\n")] none) {}
    ∃ d, run (some 1) ⟨.start (.ofList [7]), s⟩ = .ok (some ⟨1, 1, .farEnough⟩) d ∧
      ∃ talk, let path := steps (.ofList [7]) talk
        Account (some 1) ⟨.start (.ofList [7]), s⟩ ⟨1, 1, .farEnough⟩ d path ∧
          path.length = 2 ∧ path.countP Step.isMove = 1 := by
  intro s
  have hrun : succeeds (fun tally? _ => tally? = some ⟨1, 1, .farEnough⟩)
      (run (some 1) ⟨.start (.ofList [7]), s⟩) = true := by decide +kernel
  obtain ⟨tally?, d, hd, htally⟩ := exists_of_succeeds hrun
  obtain rfl := of_decide_eq_true htally
  obtain ⟨talk, haccount, -⟩ := exists_account hd
  exact ⟨d, hd, talk, haccount, haccount.total.symm, haccount.moves.symm⟩

end MudDialogue.Wander
