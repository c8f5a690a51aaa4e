import MudDialogue.Proofs.Client.Ending
import MudDialogue.Proofs.Client.Manner
import MudDialogue.Proofs.Login.Conforming

/-!
# What a login has sent and where it stands

A login reacts to each prompt by itself, wherever it stands, and forgets what it was told before:
the last prompt tells the stage. So the transcript of a login can be read off the prompts that came.
It is a number of answers to menus and to the question for the name, in any order, and then the
login is over, or it is broken off by a failure; only in the last answer can there be the password.
What the login remembers agrees with the transcript in every case.

## Main definitions

* `Login.manner` — how a login reacts to what its waits come to.
* `Login.Transcript` — what a login has done, what it has missed, and what it came to.

## Main results

* `Login.exists_transcript` — every login has a transcript, and when it is over it stays so.
-/

namespace MudDialogue.Login

open Pattern ClientM Operation Text

/-- What is done in answer to a prompt. -/
def Prompt.replies (c : Credentials) : Prompt → List (Deed Prompt)
  | menu => [.said enter]
  | name => [.said c.username]
  | password => [.whispered c.password.reveal, .said firstCharacter]
  | inUse | unknown => []

/-- How a login reacts to what its waits come to. -/
def manner (c : Credentials) : Manner Stage Prompt where
  going stage := stage.isOver = false
  replies _ found? := found?.elim [] (·.tag.replies c)
  next _ found? := found?.elim .silence (·.tag.stage)
  broken stage found? := if found?.any (·.tag = .password) then .proving else stage

/-- What a login does when a wait is over. -/
def react (c : Credentials) : Option (Match Prompt) → ClientM Stage Unit
  | some found => answer c found.tag
  | none => do
    note .warn ("login timed out in state " ++ (← remembered).label)
    remember .silence

theorem advance_eq (c : Credentials) : advance c = listen prompts >>= react c := rfl

variable {c : Credentials} {s t : Session} {client d e : Client Stage}

theorem performs_answer (p : Prompt) (client : Client Stage) :
    Performs prompts (answer c p) client () (p.replies c) p.stage
      (if p = .password then .proving else client.memory) := by
  cases p with
  | menu => exact (performs_say _ _ enter).bind fun t => performs_remember ..
  | name => exact (performs_say _ _ c.username).bind fun t => performs_remember ..
  | password =>
    exact (performs_remember _ _ Stage.proving).bind fun t =>
      (performs_whisper _ _ c.password.reveal).bind fun t =>
        (performs_say _ _ firstCharacter).bind fun t =>
          (performs_note ..).bind fun t => performs_remember ..
  | inUse | unknown => exact (performs_note ..).bind fun t => performs_remember ..

/-- **A login reacts in its manner.** -/
theorem guides_react (c : Credentials) : (manner c).Guides prompts (react c) := by
  intro found? client
  cases found? with
  | none =>
    exact (performs_remembered ..).bind fun t => (performs_note ..).bind fun t =>
      performs_remember ..
  | some found => simpa [manner, react] using performs_answer (c := c) found.tag client

/-! ### Rounds -/

/-- What a round comes to. -/
theorem round_apply (c : Credentials) (client : Client Stage) : round c client =
    if client.memory.isOver then .ok (some client.memory) client
    else match (listen prompts >>= react c) client with
      | .ok _ d => .ok none d
      | .error f d => .error f d := by
  rw [← advance_eq, round, bind_apply]
  change (if client.memory.isOver then _ else _ : ClientM Stage (Option Stage)) client = _
  split
  · rfl
  · rw [bind_apply]
    cases advance c client <;> rfl

/-- A login before its first round. -/
def announced (c : Credentials) (s : Session) : Client Stage :=
  ⟨.start, { s with past := (.info, "logging in as " ++ c.username) :: s.past }⟩

/-- A login over a session comes to some state, and this is what it was told on the way. -/
abbrev Comes (c : Credentials) (s : Session) (talk : List (Option (Match Prompt)))
    (d : Client Stage) : Prop :=
  (manner c).Comes prompts (round c) (announced c s) talk d

/-- How a login ends: it is over, a wait fails, or an answer does. -/
inductive Finishes (c : Credentials) (d : Client Stage) :
    EStateM.Result Failure (Client Stage) (Option Stage) → Prop where
  | atEnd (hover : d.memory.isOver = true) : Finishes c d (.ok (some d.memory) d)
  | deaf {f t} (hgoing : d.memory.isOver = false)
      (hlisten : Session.listen prompts d.session = .error f t) :
      Finishes c d (.error f ⟨d.memory, t⟩)
  | mute {found? s done missed rest f t} (hgoing : d.memory.isOver = false)
      (hlisten : Session.listen prompts d.session = .ok found? s)
      (hreplies : found?.elim [] (·.tag.replies c) = done ++ missed :: rest)
      (hmisses : s.Misses prompts done missed.attempt f t) :
      Finishes c d (.error f ⟨(manner c).broken d.memory found?, t⟩)

/-- A round either goes on, with one more wait that is answered, or the login ends. -/
theorem round_cases (c : Credentials) (d : Client Stage) :
    (d.memory.isOver = false ∧ ∃ found? e, round c d = .ok none e ∧
      (manner c).Answers prompts d found? e) ∨ Finishes c d (round c d) := by
  rw [round_apply]
  split
  · next hover => exact .inr (.atEnd hover)
  · next hgoing =>
    replace hgoing : d.memory.isOver = false := eq_false_of_ne_true hgoing
    have hadvances := (guides_react c).advances d
    generalize (listen prompts >>= react c) d = r at hadvances
    cases hadvances with
    | complete h => exact .inl ⟨hgoing, _, _, rfl, h⟩
    | deaf hlisten => exact .inr (.deaf hgoing hlisten)
    | mute hlisten hreplies hmisses => exact .inr (.mute hgoing hlisten hreplies hmisses)

theorem Finishes.ne_none {r : EStateM.Result Failure (Client Stage) (Option Stage)}
    (h : Finishes c d r) : r ≠ .ok none e := by
  cases h <;> exact fun h => by cases h

/-- A round that does not end the login has answered. -/
theorem answers_of_round (h : round c d = .ok none e) :
    d.memory.isOver = false ∧ ∃ found?, (manner c).Answers prompts d found? e := by
  rcases round_cases c d with ⟨hgoing, found?, e', he, hanswers⟩ | hfinishes
  · obtain ⟨-, rfl⟩ := EStateM.Result.ok.inj (he.symm.trans h)
    exact ⟨hgoing, found?, hanswers⟩
  · exact absurd h hfinishes.ne_none

/-- Rounds that do not end a login bring it somewhere. -/
theorem exists_comes_of_rounds {n : Nat} (h : rounds (round c) n (announced c s) = .ok none d) :
    ∃ talk, Comes c s talk d := by
  obtain ⟨talk, e, hcomes, hnone | ⟨hlast, hnone⟩⟩ :=
    (manner c).exists_comes answers_of_round n (announced c s)
  · obtain ⟨-, rfl⟩ := EStateM.Result.ok.inj (hnone.symm.trans h)
    exact ⟨talk, hcomes⟩
  · exact absurd (hlast.symm.trans h) (hnone d)

/-- **Every login comes somewhere and ends there.** -/
theorem exists_finishes (hs : s.backlog.Reachable) (c : Credentials) :
    ∃ talk d, Comes c s talk d ∧ Finishes c d (run c ⟨.start, s⟩) := by
  have hclient : (⟨.start, s⟩ : Client Stage).Reachable := hs
  obtain ⟨talk, d, hcomes, hnone | ⟨hrounds, hnone⟩⟩ :=
    (manner c).exists_comes answers_of_round (announced c s).session.horizon (announced c s)
  · exact absurd hnone (run_ne_none hclient)
  · have hrun : run c ⟨.start, s⟩ = round c d := hrounds
    refine ⟨talk, d, hcomes, ?_⟩
    rw [hrun]
    refine (round_cases c d).resolve_left ?_
    rintro ⟨-, found?, e, he, -⟩
    exact hnone e he

/-! ### Transcripts -/

/-- What a wait came to, and what was done in answer to it. -/
def exchange (c : Credentials) (found? : Option (Match Prompt)) : List (Deed Prompt) :=
  .waited found? :: found?.elim [] (·.tag.replies c)

/-- The password was asked for. -/
def asksForPassword (found? : Option (Match Prompt)) : Bool := found?.any (·.tag = .password)

/-- What is sent to a server that asks for the password. -/
def proof (c : Credentials) : List (Deed Prompt) := Prompt.password.replies c

/-- What a login came to, when it sent the proof or a part of it and missed something or nothing. -/
structure Stands (c : Credentials) (r : EStateM.Result Failure (Client Stage) (Option Stage))
    (proved : List (Deed Prompt)) (missed? : Option (Attempt × Failure)) : Prop where
  /-- There is a result if the login is over. -/
  ok_iff : (∃ stage? d, r = .ok stage? d) ↔ (endState r).memory.isOver = true
  /-- The result is the stage, and nothing was missed. -/
  ok : ∀ stage? d, r = .ok stage? d → stage? = some d.memory ∧ missed? = none
  /-- The login has succeeded if the whole proof was sent. -/
  playing_iff : (endState r).memory = .playing ↔ proved = proof c
  /-- After a failure the login is not over, and it is the failure of what was missed. -/
  error : ∀ f d, r = .error f d →
    (∃ attempt, missed? = some (attempt, f)) ∧
      (d.memory = .start ∨ d.memory = .named ∨ d.memory = .proving)

/-- What a login over a session has done, and what it has missed if it came to a failure: `talk` is
what its waits came to, `answers` and `proved` are the lines that were sent completely. -/
structure Transcript (c : Credentials) (s : Session)
    (r : EStateM.Result Failure (Client Stage) (Option Stage)) (talk : List (Option (Match Prompt)))
    (deeds answers proved : List (Deed Prompt)) (missed? : Option (Attempt × Failure)) : Prop where
  /-- This was done over the session, and nothing else. -/
  went : s.Went prompts deeds missed? (endState r).session
  /-- Every prompt was answered, unless the answer is what was missed. -/
  answered : ∃ unanswered, talk.flatMap (exchange c) = deeds ++ unanswered ∧
    unanswered.head?.map Deed.attempt = (missed?.map Prod.fst).filter (· ≠ .wait)
  /-- The lines that were sent, in order. -/
  sent : deeds.filter Deed.isSent = answers ++ proved
  /-- First come answers to menus and to the question for the name. -/
  answers_mem : ∀ a ∈ answers, a = .said enter ∨ a = .said c.username
  /-- Then comes nothing, or the password and the choice of the first character, which is left out
  only if it could not be sent. -/
  proved_cases : proved = [] ∨
    proved = [.whispered c.password.reveal] ∧ missed?.map Prod.fst = some (.say firstCharacter) ∨
    proved = [.whispered c.password.reveal, .said firstCharacter]
  /-- The password was asked for at most once. -/
  asked_once : talk.countP asksForPassword ≤ 1
  /-- What it came to agrees with that. -/
  stands : Stands c r proved missed?

variable {talk : List (Option (Match Prompt))}

theorem deeds_eq (c : Credentials) (stage : Stage) (talk : List (Option (Match Prompt))) :
    (manner c).deeds stage talk = talk.flatMap (exchange c) := by
  induction talk generalizing stage with
  | nil => rfl
  | cons found? talk ih =>
    rw [List.flatMap_cons, ← ih ((manner c).next stage found?)]
    rfl

/-- A menu or the question for the name was heard. -/
def IsCommon (found? : Option (Match Prompt)) : Prop :=
  ∃ found, found? = some found ∧ (found.tag = .menu ∨ found.tag = .name)

/-- Where a login does not end, it was shown a menu or asked for the name. -/
theorem isCommon_of_going {found? : Option (Match Prompt)}
    (h : (found?.elim Stage.silence (·.tag.stage)).isOver = false) : IsCommon found? := by
  cases found? with
  | none => cases h
  | some found =>
    refine ⟨found, rfl, ?_⟩
    rw [Option.elim_some] at h
    cases htag : found.tag <;> simp_all [Prompt.stage, Stage.isOver]

theorem isCommon_of_comes (h : Comes c s talk d) (hgoing : d.memory.isOver = false) :
    ∀ found? ∈ talk, IsCommon found? := by
  induction h with
  | start => exact List.forall_mem_nil _
  | round h hbefore hround hanswers ih =>
    obtain ⟨-, -, -, hmemory⟩ := hanswers
    rw [hmemory] at hgoing
    rw [List.forall_mem_append, List.forall_mem_singleton]
    exact ⟨ih hbefore, isCommon_of_going hgoing⟩

/-- What a login has done when it has come somewhere. -/
theorem did_of_comes (h : Comes c s talk d) :
    s.Did prompts (talk.flatMap (exchange c)) d.session := by
  have hdid : (announced c s).session.Did prompts _ d.session := h.did.1
  rw [deeds_eq] at hdid
  exact .of_unlogged (t := (announced c s).session) rfl hdid

section Common

variable (hcommon : ∀ found? ∈ talk, IsCommon found?)
include hcommon

theorem answers_mem_of_common : ∀ a ∈ (talk.flatMap (exchange c)).filter Deed.isSent,
    a = .said enter ∨ a = .said c.username := by
  intro a ha
  obtain ⟨hmem, hsent⟩ := List.mem_filter.mp ha
  obtain ⟨found?, hfound, ha⟩ := List.mem_flatMap.mp hmem
  obtain ⟨found, rfl, htag⟩ := hcommon found? hfound
  rcases List.mem_cons.mp ha with rfl | ha
  · cases hsent
  · rcases htag with htag | htag <;> simp only [Option.elim_some, htag, Prompt.replies] at ha
    · exact .inl (List.mem_singleton.mp ha)
    · exact .inr (List.mem_singleton.mp ha)

theorem countP_of_common : talk.countP asksForPassword = 0 := by
  rw [List.countP_eq_zero]
  intro found? hfound
  obtain ⟨found, rfl, htag⟩ := hcommon found? hfound
  rcases htag with htag | htag <;> simp [asksForPassword, htag]

end Common

/-! ### Where a login stands in the end -/

theorem stands_of_ok {proved : List (Deed Prompt)} (hover : d.memory.isOver = true)
    (hproved : d.memory = .playing ↔ proved = proof c) :
    Stands c (.ok (some d.memory) d) proved none where
  ok_iff := iff_of_true ⟨_, _, rfl⟩ hover
  ok stage? e h := by
    obtain ⟨rfl, rfl⟩ := EStateM.Result.ok.inj h
    exact ⟨rfl, rfl⟩
  playing_iff := hproved
  error f e h := by cases h

theorem stands_of_error {proved : List (Deed Prompt)} {f : Failure} {attempt : Attempt}
    (hgoing : d.memory.isOver = false) (hproved : proved ≠ proof c) :
    Stands c (.error f d) proved (some (attempt, f)) where
  ok_iff := iff_of_false (fun ⟨_, _, h⟩ => by cases h) (by simp [endState, hgoing])
  ok stage? e h := by cases h
  playing_iff := by
    refine iff_of_false (fun hplaying => ?_) hproved
    rw [show d.memory = .playing from hplaying] at hgoing
    cases hgoing
  error f' e h := by
    obtain ⟨rfl, rfl⟩ := EStateM.Result.error.inj h
    refine ⟨⟨attempt, rfl⟩, ?_⟩
    revert hgoing
    cases d.memory <;> simp [Stage.isOver]

/-! ### Every login has a transcript -/

variable {r : EStateM.Result Failure (Client Stage) (Option Stage)}
  {missed? : Option (Attempt × Failure)} {found? : Option (Match Prompt)}
  {done unanswered : List (Deed Prompt)}

/-- A login whose last wait was over. Only in answer to that can it have sent the proof. -/
theorem transcript_of_last (hcommon : ∀ found? ∈ talk, IsCommon found?)
    (hwent : s.Went prompts (talk.flatMap (exchange c) ++ .waited found? :: done) missed?
      (endState r).session)
    (hreplies : found?.elim [] (·.tag.replies c) = done ++ unanswered)
    (hmissed : unanswered.head?.map Deed.attempt = (missed?.map Prod.fst).filter (· ≠ .wait))
    (hdone : done = [] ∨
      done = [.whispered c.password.reveal] ∧ missed?.map Prod.fst = some (.say firstCharacter) ∨
      done = [.whispered c.password.reveal, .said firstCharacter])
    (hstands : Stands c r done missed?) :
    Transcript c s r (talk ++ [found?]) (talk.flatMap (exchange c) ++ .waited found? :: done)
      ((talk.flatMap (exchange c)).filter Deed.isSent) done missed? where
  went := hwent
  answered := by
    refine ⟨unanswered, ?_, hmissed⟩
    rw [List.flatMap_append, List.flatMap_singleton, exchange, hreplies, List.append_assoc]
    rfl
  sent := by
    have hsent : (Deed.waited found? :: done).filter Deed.isSent = done := by
      rcases hdone with rfl | ⟨rfl, -⟩ | rfl <;> rfl
    rw [List.filter_append, hsent]
  answers_mem := answers_mem_of_common hcommon
  proved_cases := hdone
  asked_once := by
    rw [List.countP_append, countP_of_common hcommon, Nat.zero_add, List.countP_singleton]
    split
    · exact Nat.le_refl 1
    · exact Nat.zero_le 1
  stands := hstands

/-- A login that fails while it waits. -/
theorem transcript_of_deaf {f : Failure} (hcommon : ∀ found? ∈ talk, IsCommon found?)
    (hgoing : d.memory.isOver = false)
    (hmisses : s.Misses prompts (talk.flatMap (exchange c)) .wait f d.session) :
    Transcript c s (.error f d) talk (talk.flatMap (exchange c))
      ((talk.flatMap (exchange c)).filter Deed.isSent) [] (some (.wait, f)) where
  went := hmisses
  answered := ⟨[], (List.append_nil _).symm, rfl⟩
  sent := (List.append_nil _).symm
  answers_mem := answers_mem_of_common hcommon
  proved_cases := .inl rfl
  asked_once := by
    rw [countP_of_common hcommon]
    exact Nat.zero_le 1
  stands := stands_of_error hgoing (List.cons_ne_nil _ _).symm

/-- If an answer is not complete, at most the password of the proof was sent. -/
theorem done_cases {missed : Deed Prompt} {rest : List (Deed Prompt)}
    (h : found?.elim [] (·.tag.replies c) = done ++ missed :: rest) : missed.attempt ≠ .wait ∧
      (done = [] ∨
        done = [.whispered c.password.reveal] ∧ missed.attempt = .say firstCharacter) := by
  cases found? with
  | none => cases done <;> cases h
  | some found =>
    rw [Option.elim_some] at h
    cases htag : found.tag <;> rw [htag, Prompt.replies] at h
    case inUse | unknown => cases done <;> cases h
    case menu | name =>
      rcases done with _ | ⟨_, _ | ⟨_, _⟩⟩ <;> cases h
      exact ⟨by simp [Deed.attempt], .inl rfl⟩
    case password =>
      rcases done with _ | ⟨_, _ | ⟨_, _ | ⟨_, _⟩⟩⟩ <;> cases h
      · exact ⟨by simp [Deed.attempt], .inl rfl⟩
      · exact ⟨by simp [Deed.attempt], .inr ⟨rfl, rfl⟩⟩

/-- A login that fails while it answers. -/
theorem transcript_of_mute {missed : Deed Prompt} {rest : List (Deed Prompt)} {f : Failure}
    (hcommon : ∀ found? ∈ talk, IsCommon found?) {stage : Stage} (hgoing : stage.isOver = false)
    (hreplies : found?.elim [] (·.tag.replies c) = done ++ missed :: rest)
    (hmisses : s.Misses prompts (talk.flatMap (exchange c) ++ .waited found? :: done)
      missed.attempt f t) :
    Transcript c s (.error f ⟨(manner c).broken stage found?, t⟩) (talk ++ [found?])
      (talk.flatMap (exchange c) ++ .waited found? :: done)
      ((talk.flatMap (exchange c)).filter Deed.isSent) done (some (missed.attempt, f)) := by
  obtain ⟨hattempt, hdone⟩ := done_cases hreplies
  have hbroken : ((manner c).broken stage found?).isOver = false := by
    simp only [manner]
    split
    · rfl
    · exact hgoing
  refine transcript_of_last hcommon hmisses hreplies ?_ ?_ (stands_of_error hbroken ?_)
  · simp [Option.filter, hattempt]
  · rcases hdone with hdone | ⟨hdone, hmissed⟩
    · exact .inl hdone
    · exact .inr (.inl ⟨hdone, congrArg some hmissed⟩)
  · rcases hdone with rfl | ⟨rfl, -⟩ <;> simp [proof, Prompt.replies]

/-- What is answered when the login is over: nothing, or the proof if it has succeeded. -/
theorem replies_of_isOver (c : Credentials)
    (h : (found?.elim Stage.silence (·.tag.stage)).isOver = true) :
    found?.elim [] (·.tag.replies c) = [] ∧ found?.elim Stage.silence (·.tag.stage) ≠ .playing ∨
      found?.elim [] (·.tag.replies c) = proof c ∧
        found?.elim Stage.silence (·.tag.stage) = .playing := by
  cases found? with
  | none => exact .inl ⟨rfl, by simp⟩
  | some found =>
    rw [Option.elim_some] at h
    cases htag : found.tag <;> rw [htag] at h <;> simp [htag, Prompt.replies, Prompt.stage, proof]
    case menu | name => cases h

/-- A login that is over. -/
theorem transcript_of_over (h : Comes c s talk d) (hover : d.memory.isOver = true) :
    ∃ deeds answers proved,
      Transcript c s (.ok (some d.memory) d) talk deeds answers proved none := by
  have hdid := did_of_comes h
  cases h with
  | start => cases hover
  | @round before last d₀ _ h hgoing hround hanswers =>
    obtain ⟨-, -, -, hmemory⟩ := hanswers
    replace hmemory : d.memory = last.elim .silence (·.tag.stage) := hmemory
    rw [List.flatMap_append, List.flatMap_singleton, exchange] at hdid
    have hcases := replies_of_isOver c (hmemory ▸ hover)
    rw [← hmemory] at hcases
    refine ⟨_, _, _, transcript_of_last (isCommon_of_comes h hgoing) hdid
      (List.append_nil _).symm rfl ?_ (stands_of_ok hover ?_)⟩
    · rcases hcases with ⟨hnone, -⟩ | ⟨hproof, -⟩
      · exact .inl hnone
      · exact .inr (.inr hproof)
    · rcases hcases with ⟨hnone, hstage⟩ | ⟨hproof, hstage⟩
      · refine iff_of_false hstage ?_
        rw [hnone]
        exact (List.cons_ne_nil _ _).symm
      · exact iff_of_true hstage hproof

/-- **Every login has a transcript.** Whatever the server does, and however much it takes of what is
sent to it, the lines that a login has sent are answers to menus and to the question for the name,
and after them nothing, or the password and the choice of the first character; each prompt was
answered once, unless the server did not take the answer, and nothing else was sent. The login has a
result if and only if it is over, and success means that everything was sent. A login that is over
stays as it is: to run it again does nothing on the stream and takes no time. -/
theorem exists_transcript (hs : s.backlog.Reachable) (c : Credentials) :
    (∃ talk deeds answers proved missed?,
      Transcript c s (run c ⟨.start, s⟩) talk deeds answers proved missed? ∧
      ∃ parts last, deeds.Forall₂ (Deed.Shows s.settings) parts ∧
        (endState (run c ⟨.start, s⟩)).session.peer.happened =
          s.peer.happened ++ parts.flatten ++ last ∧
        (missed? = none → last = []) ∧
        ∀ attempt f, missed? = some (attempt, f) → attempt.Shows s.settings f last) ∧
    ∀ (stage : Stage) (t : Session), stage.isOver = true →
      ∃ u, run c ⟨stage, t⟩ = .ok (some stage) ⟨stage, u⟩ ∧ u.unlogged = t.unlogged := by
  refine ⟨?_, fun stage t hover => ?_⟩
  · obtain ⟨talk, d, hcomes, hfinishes⟩ := exists_finishes hs c
    have hdid := did_of_comes hcomes
    obtain ⟨talk', deeds, answers, proved, missed?, h⟩ : ∃ talk' deeds answers proved missed?,
        Transcript c s (run c ⟨.start, s⟩) talk' deeds answers proved missed? := by
      generalize run c ⟨.start, s⟩ = r at hfinishes
      cases hfinishes with
      | atEnd hover =>
        obtain ⟨deeds, answers, proved, h⟩ := transcript_of_over hcomes hover
        exact ⟨_, _, _, _, _, h⟩
      | @deaf f t hgoing hlisten =>
        exact ⟨_, _, _, _, _, transcript_of_deaf (d := ⟨d.memory, t⟩)
          (isCommon_of_comes hcomes hgoing) hgoing ⟨_, hdid, hlisten⟩⟩
      | mute hgoing hlisten hreplies hmisses =>
        exact ⟨_, _, _, _, _, transcript_of_mute (isCommon_of_comes hcomes hgoing) hgoing hreplies
          (hdid.misses (Session.Does.misses (.waited _) hlisten hmisses))⟩
    exact ⟨_, _, _, _, _, h, h.went.exists_shown⟩
  · let u := (announced c t).session
    have hround : round c ⟨stage, u⟩ = .ok (some stage) ⟨stage, u⟩ := by
      rw [round_apply, if_pos hover]
    have hrun : run c ⟨stage, t⟩ = .ok (some stage) ⟨stage, u⟩ := bind_of_ok hround
    exact ⟨u, hrun, rfl⟩

/-- A server that takes the password and nothing after it: the login fails, it is not over, and it
has not sent the whole proof. -/
theorem exists_transcript_cut_off :
    let c : Credentials := ⟨"localhost", 8945, "unit1", ⟨"unit123"⟩⟩
    let s := Session.start (.ofScript [.send (Utf8.bytes "> "), .send (Utf8.bytes "Username: "),
      .send (Utf8.bytes "Password: ")] (some 20)) {}
    s.backlog.Reachable ∧ (endState (run c ⟨.start, s⟩)).memory = .proving ∧
      (∃ talk deeds answers proved missed?,
        Transcript c s (run c ⟨.start, s⟩) talk deeds answers proved missed? ∧
          proved ≠ proof c) ∧
      ∃ u, run c ⟨.silence, s⟩ = .ok (some .silence) ⟨.silence, u⟩ ∧ u.unlogged = s.unlogged := by
  intro c s
  have hs : s.backlog.Reachable := .empty _
  have hstage : (endState (run c ⟨.start, s⟩)).memory = .proving := by decide +kernel
  obtain ⟨⟨talk, deeds, answers, proved, missed?, h, -⟩, hover⟩ := exists_transcript hs c
  refine ⟨hs, hstage, ⟨talk, deeds, answers, proved, missed?, h, fun hproved => ?_⟩,
    hover .silence s rfl⟩
  cases hstage.symm.trans (h.stands.playing_iff.mpr hproved)

end MudDialogue.Login
