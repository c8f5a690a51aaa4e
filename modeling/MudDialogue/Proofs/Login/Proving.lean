import MudDialogue.Proofs.Login.Transcript

/-!
# When a login sends the password

A login sends the password whenever the server asks for it. Whether it has sent the name before
makes no difference: the stage is kept, but no answer depends on it. So the password can be sent
from two stages. It is sent from the stage at which the name is sent and answered for, as it should
be, if the question for the name is the last that was heard before; otherwise it is sent from the
start, to a server that was never told a name, or that has shown a menu since.

## Main definitions

* `Login.Asked` — a login that has come somewhere is asked for the password.

## Main results

* `Login.stage_of_asked` — where a login stands when it sends the password.
* `Login.playing_from_start` — a login that sends the password to a server without a name.
-/

namespace MudDialogue.Login

open Pattern ClientM Operation Text

/-- When the waits of a login over a session have come to `talk`, the login is at `d`, and its next
wait comes to the question for the password. -/
structure Asked (c : Credentials) (s : Session) (talk : List (Option (Match Prompt)))
    (d : Client Stage) (found : Match Prompt) (t : Session) : Prop where
  comes : Comes c s talk d
  going : d.memory.isOver = false
  listen : Session.listen prompts d.session = .ok (some found) t
  tag : found.tag = .password

variable {c : Credentials} {s t : Session} {talk : List (Option (Match Prompt))}
  {d : Client Stage} {found : Match Prompt}

/-- A login that goes on stands where the last prompt has led it. -/
theorem stage_of_comes (h : Comes c s talk d) (hgoing : d.memory.isOver = false) :
    (d.memory = .start ∨ d.memory = .named) ∧
      (d.memory = .named ↔ ∃ last, talk.getLast? = some (some last) ∧ last.tag = .name) := by
  cases h with
  | start => exact ⟨.inl rfl, by simp [announced]⟩
  | @round before last d₀ _ h hbefore hround hanswers =>
    obtain ⟨-, -, -, hmemory⟩ := hanswers
    replace hmemory : d.memory = last.elim .silence (·.tag.stage) := hmemory
    rw [hmemory] at hgoing ⊢
    obtain ⟨found, rfl, htag⟩ := isCommon_of_going hgoing
    rcases htag with htag | htag <;> simp [htag, Prompt.stage]

/-- A login that has sent the proof is over. -/
theorem run_of_playing (hs : s.backlog.Reachable) (h : Comes c s talk d)
    (hplaying : d.memory = .playing) : run c ⟨.start, s⟩ = .ok (some .playing) d := by
  have hlast : round c d = .ok (some .playing) d := by
    rw [round_apply, hplaying]
    rfl
  have hclient : (⟨.start, s⟩ : Client Stage).Reachable := hs
  exact h.leads.untilDone_eq hlast fun e => run_ne_none (c := c) hclient

/-- A login ends when it fails. -/
theorem run_of_error {f : Failure} {e : Client Stage} (hs : s.backlog.Reachable)
    (h : Comes c s talk d) (hround : round c d = .error f e) : run c ⟨.start, s⟩ = .error f e := by
  have hclient : (⟨.start, s⟩ : Client Stage).Reachable := hs
  refine Eq.trans ?_ hround
  exact h.leads.untilDone_eq_round (fun e' he => by cases hround.symm.trans he) fun e' =>
    run_ne_none (c := c) hclient

/-- **Asked for the password, a login sends it**, or fails to. -/
theorem Asked.exists_went (hs : s.backlog.Reachable) (h : Asked c s talk d found t) :
    ∃ deeds missed?, s.Went prompts (talk.flatMap (exchange c) ++ .waited (some found) :: deeds)
        missed? (endState (run c ⟨.start, s⟩)).session ∧
      (deeds.head? = some (.whispered c.password.reveal) ∨
        deeds = [] ∧ missed?.map Prod.fst = some (.whisper c.password.reveal)) := by
  obtain ⟨hcomes, hgoing, hlisten, htag⟩ := h
  have hproof : found.tag.replies c = proof c := congrArg (Prompt.replies c) htag
  have hnotOver : ¬ d.memory.isOver = true := by simp [hgoing]
  rcases (guides_react c).answers hlisten with
    ⟨e, hok, hanswers⟩ | ⟨done, missed, rest, f, u, hreplies, herror, hmisses⟩
  · have hround : round c d = .ok none e := by
      rw [round_apply, if_neg hnotOver, hok]
    have hplaying : e.memory = .playing := by
      obtain ⟨-, -, -, hmemory⟩ := hanswers
      rw [hmemory]
      exact congrArg Prompt.stage htag
    have hcomes' : Comes c s (talk ++ [some found]) e := hcomes.round hgoing hround hanswers
    have hdid := did_of_comes hcomes'
    rw [List.flatMap_append, List.flatMap_singleton, exchange, Option.elim_some, hproof] at hdid
    rw [run_of_playing hs hcomes' hplaying]
    exact ⟨proof c, none, hdid, .inl rfl⟩
  · have hround : round c d = .error f ⟨(manner c).broken d.memory (some found), u⟩ := by
      rw [round_apply, if_neg hnotOver, herror]
    rw [run_of_error hs hcomes hround]
    refine ⟨done, some (missed.attempt, f), (did_of_comes hcomes).misses
      (Session.Does.misses (.waited _) hlisten hmisses), ?_⟩
    -- the proof begins with the password, whether that is done or missed
    replace hreplies : proof c = done ++ missed :: rest := hproof.symm.trans hreplies
    cases done with
    | nil =>
      obtain ⟨rfl, -⟩ := List.cons.inj hreplies
      exact .inr ⟨rfl, rfl⟩
    | cons first done =>
      obtain ⟨rfl, -⟩ := List.cons.inj hreplies
      exact .inl rfl

/-- A login that has sent the password, or tried to, was asked for it. -/
theorem exists_asked (hs : s.backlog.Reachable)
    (h : (endState (run c ⟨.start, s⟩)).memory = .proving ∨
      (endState (run c ⟨.start, s⟩)).memory = .playing) :
    ∃ talk d found t, Asked c s talk d found t := by
  obtain ⟨talk, d, hcomes, hfinishes⟩ := exists_finishes hs c
  have hbefore (hgoing : d.memory.isOver = false) :
      ¬ (d.memory = .proving ∨ d.memory = .playing) := by
    rcases (stage_of_comes hcomes hgoing).1 with hstage | hstage <;> simp [hstage]
  generalize run c ⟨.start, s⟩ = r at h hfinishes
  cases hfinishes with
  | deaf hgoing => exact absurd h (hbefore hgoing)
  | @mute found? t done missed rest f u hgoing hlisten =>
    by_cases hasks : found?.any (·.tag = .password)
    · cases found? with
      | none => cases hasks
      | some found =>
        exact ⟨talk, d, found, t, hcomes, hgoing, hlisten, of_decide_eq_true hasks⟩
    · have hbroken : (manner c).broken d.memory found? = d.memory := if_neg hasks
      exact absurd (hbroken ▸ h) (hbefore hgoing)
  | atEnd hover =>
    cases hcomes with
    | start => cases hover
    | @round before last d₀ _ hcomes hgoing hround hanswers =>
      obtain ⟨t, hlisten, -, hmemory⟩ := hanswers
      replace hmemory : d.memory = last.elim .silence (·.tag.stage) := hmemory
      change d.memory = .proving ∨ d.memory = .playing at h
      rw [hmemory] at h
      cases last with
      | none => simp at h
      | some found =>
        refine ⟨before, d₀, found, t, hcomes, hgoing, hlisten, ?_⟩
        cases htag : found.tag <;> simp_all [Prompt.stage]

/-- **Where a login stands when it sends the password.** Asked for the password, a login sends it,
or fails to, wherever it stands. It has sent the name and stands where it waits for this question if
and only if the question for the name is the last prompt that was heard before; otherwise it stands
at the start. And a login that has sent the password, or tried to, was asked for it so. -/
theorem stage_of_asked (hs : s.backlog.Reachable) (c : Credentials) :
    (∀ talk d found t, Asked c s talk d found t →
      (d.memory = .start ∨ d.memory = .named) ∧
      (d.memory = .named ↔ ∃ last, talk.getLast? = some (some last) ∧ last.tag = .name) ∧
      ∃ deeds missed?, s.Went prompts (talk.flatMap (exchange c) ++ .waited (some found) :: deeds)
          missed? (endState (run c ⟨.start, s⟩)).session ∧
        (deeds.head? = some (.whispered c.password.reveal) ∨
          deeds = [] ∧ missed?.map Prod.fst = some (.whisper c.password.reveal))) ∧
    ((endState (run c ⟨.start, s⟩)).memory = .proving ∨
        (endState (run c ⟨.start, s⟩)).memory = .playing →
      ∃ talk d found t, Asked c s talk d found t) := by
  refine ⟨fun talk d found t h => ?_, exists_asked hs⟩
  obtain ⟨hstage, hnamed⟩ := stage_of_comes h.comes h.going
  exact ⟨hstage, hnamed, h.exists_went hs⟩

/-- A server that asks for the name, shows a menu and then asks for the password. The login stands
at the start when it is asked for the password, since the menu was heard after the question for the
name, and it sends the password all the same. -/
theorem stage_of_asked_after_menu :
    let c : Credentials := ⟨"localhost", 8945, "unit1", ⟨"unit123"⟩⟩
    let s := Session.start (.ofScript [.send (Utf8.bytes "Username: "), .send (Utf8.bytes "> "),
      .send (Utf8.bytes "Password: ")] none) {}
    s.backlog.Reachable ∧ (endState (run c ⟨.start, s⟩)).memory = .playing ∧
      ∃ talk d found t, Asked c s talk d found t ∧ d.memory = .start ∧
        ¬ ∃ last, talk.getLast? = some (some last) ∧ last.tag = .name := by
  intro c s
  have hs : s.backlog.Reachable := .empty _
  have hplaying : (endState (run c ⟨.start, s⟩)).memory = .playing := by decide +kernel
  obtain ⟨stage?, d, hrounds, hd⟩ := exists_of_succeeds (r := rounds (round c) 2 (announced c s))
    (p := fun stage? d => stage? = none ∧ d.memory = .start ∧
      succeeds (fun found? _ => asksForPassword found?) (Session.listen prompts d.session))
    (by decide +kernel)
  obtain ⟨rfl, hstart, hasks⟩ := of_decide_eq_true hd
  obtain ⟨talk, hcomes⟩ := exists_comes_of_rounds hrounds
  obtain ⟨found?, t, hlisten, hasks⟩ := exists_of_succeeds hasks
  cases found? with
  | none => cases hasks
  | some found =>
    have hasked : Asked c s talk d found t :=
      ⟨hcomes, by rw [hstart]; rfl, hlisten, of_decide_eq_true hasks⟩
    obtain ⟨hstage, -⟩ := stage_of_asked hs c
    obtain ⟨-, hnamed, -⟩ := hstage talk d found t hasked
    refine ⟨hs, hplaying, talk, d, found, t, hasked, hstart, fun hlast => ?_⟩
    cases hstart.symm.trans (hnamed.mpr hlast)

/-- **The password is sent from the start.** To a server that says nothing but the question for the
password the login sends it, with no name before it, and it is done. -/
theorem playing_from_start :
    let c : Credentials := ⟨"localhost", 8945, "chris", ⟨"asdf"⟩⟩
    let s := Session.start (.ofScript [.send (Utf8.bytes "Password: ")] none) {}
    (∃ d found t, Asked c s [] d found t ∧ d.memory = .start) ∧
      ∃ d, run c ⟨.start, s⟩ = .ok (some .playing) d ∧
        d.session.peer.written = Utf8.bytes "asdf\r\n1\r\n" := by
  intro c s
  obtain ⟨found?, t, hlisten, hasks⟩ := exists_of_succeeds
    (r := Session.listen prompts (announced c s).session)
    (p := fun found? _ => asksForPassword found?) (by decide +kernel)
  obtain ⟨stage?, d, hrun, hd⟩ := exists_of_succeeds (r := run c ⟨.start, s⟩)
    (p := fun stage? d => stage? = some .playing ∧
      d.session.peer.written = Utf8.bytes "asdf\r\n1\r\n") (by decide +kernel)
  obtain ⟨rfl, hwritten⟩ := of_decide_eq_true hd
  refine ⟨?_, d, hrun, hwritten⟩
  cases found? with
  | none => cases hasks
  | some found =>
    exact ⟨_, found, t, ⟨.start, rfl, hlisten, of_decide_eq_true hasks⟩, rfl⟩

end MudDialogue.Login
