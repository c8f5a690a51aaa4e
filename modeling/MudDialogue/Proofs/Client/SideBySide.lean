import MudDialogue.Proofs.Client.Bisimulation
import MudDialogue.Proofs.Client.HangingUp

/-!
# The clients, each beside itself

Each client is taken apart once, down to its four dealings with the session. Whatever relation the
dealings keep is kept by the whole client, if the lines that it says are among those that the
relation allows. The password is not one of these lines, so that two runs of a client with different
passwords can be compared.

## Main definitions

* `Login.lines`, `Signup.lines`, `Wander.lines` — all lines that a client says.

## Main results

* `Login.alike_run`, `Signup.alike_createOne`, `Wander.alike_advance` — the dialogues.
* `Signup.alike_run`, `Wander.alike_run` — the clients that take it for an end when the server hangs
  up.
* `Program.alike_wander`, `Program.alike_provision` — the programs.
-/

namespace MudDialogue

open Pattern ClientM Operation Session

variable {allowed : String → Prop} {p q : Secret} {R : Session → Session → Prop}
  {E : Failure → Session → Session → Prop}

/-! ### What their messages begin and end with -/

theorem Signup.Stage.getLast?_label (stage : Stage) :
    stage.label.toList.getLast? ∉ [none, some '>', some '"'] := by
  cases stage <;> decide

theorem Direction.getLast?_code (d : Direction) :
    d.code.toList.getLast? ∉ [none, some '>', some '"'] := by
  cases d <;> decide

theorem Failure.isOwnMessage (f : Failure) : IsOwnMessage f.message := by
  have harea : f.area.toList.head? ∉ [none, some 's'] := by cases f <;> simp [area]
  exact .opening harea f.detail

/-! ### Logging in -/

namespace Login

/-- What is said in a login, apart from the password. -/
def lines (c : Credentials) : List String := [enter, c.username, firstCharacter]

section

variable {c : Credentials} (h : IsBisimulation allowed p.reveal q.reveal R E)
  (hlines : ∀ line ∈ Login.lines c, allowed line)
include h hlines

theorem alike_answer (prompt : Prompt) :
    AlikeOver R E (answer { c with password := p } prompt)
      (answer { c with password := q } prompt) := by
  cases prompt with
  | menu =>
    exact .bind (h.say' (hlines enter (by simp [Login.lines]))) fun _ => alike_remember Stage.start
  | name =>
    exact .bind (h.say' (hlines c.username (by simp [Login.lines]))) fun _ =>
      alike_remember Stage.named
  | password =>
    refine .bind (alike_remember Stage.proving) fun _ => .bind h.whisper' fun _ => ?_
    refine .bind (h.say' (hlines firstCharacter (by simp [Login.lines]))) fun _ => ?_
    exact .bind (h.note' _ (.opening (by decide) _)) fun _ => alike_remember Stage.playing
  | inUse =>
    exact .bind (h.note' _ (.closing _ (by decide))) fun _ => alike_remember Stage.inUse
  | unknown =>
    exact .bind (h.note' _ (.closing _ (by decide))) fun _ => alike_remember Stage.unknown

theorem alike_advance :
    AlikeOver R E (advance { c with password := p }) (advance { c with password := q }) := by
  refine .bind (h.listen' prompts) fun found? => ?_
  cases found? with
  | some found => exact alike_answer h hlines found.tag
  | none =>
    refine .bind alike_remembered fun stage => ?_
    exact .bind (h.note' _ (.opening (by decide) _)) fun _ => alike_remember Stage.silence

theorem alike_round :
    AlikeOver R E (round { c with password := p }) (round { c with password := q }) := by
  refine .bind alike_remembered fun stage => ?_
  cases stage.isOver with
  | true => exact .pure (some stage)
  | false => exact .bind (alike_advance h hlines) fun _ => .pure none

/-- **A login beside itself.** -/
theorem alike_run :
    AlikeOver R E (run { c with password := p }) (run { c with password := q }) :=
  .bind (h.note' _ (.opening (by decide) _)) fun _ => h.untilDone (alike_round h hlines)

end

end Login

/-! ### Creating accounts -/

namespace Signup

/-- What is said to create an account, apart from the password. -/
def lines (username : String) : List String := [newEntry, placeholder, username]

section

variable {b : Batch} {username : String} (h : IsBisimulation allowed p.reveal q.reveal R E)
  (hlines : ∀ line ∈ Signup.lines username, allowed line)
include h

theorem alike_reach (username : String) (stage : Stage) :
    AlikeOver R E (reach username stage) (reach username stage) :=
  .bind (alike_remember stage) fun _ => h.note' _ (.closing _ (stage.getLast?_label))

include hlines

theorem alike_answerCharacter (prompt : CharacterPrompt) :
    AlikeOver R E (answerCharacter username prompt) (answerCharacter username prompt) := by
  cases prompt with
  | menu =>
    refine .bind (h.say' (hlines newEntry (by simp [Signup.lines]))) fun _ => ?_
    exact .bind (alike_remember Stage.characterRequested) fun _ => .pure none
  | name =>
    have hfiller : AlikeOver R E (ClientM.say placeholder : ClientM Stage Unit)
        (ClientM.say placeholder) := h.say' (hlines placeholder (by simp [Signup.lines]))
    refine .bind (h.say' (hlines username (by simp [Signup.lines]))) fun _ => ?_
    refine .bind hfiller fun _ => .bind hfiller fun _ => ?_
    refine .bind (h.note' _ (.closing _ (by decide))) fun _ => ?_
    exact .bind (h.note' _ (.opening (by decide) _)) fun _ => .pure (some Fate.created)

theorem alike_characterRound :
    AlikeOver R E (characterRound username) (characterRound username) := by
  refine .bind (h.listen' characterPrompts) fun found? => ?_
  cases found? with
  | some found => exact alike_answerCharacter h hlines found.tag
  | none =>
    refine .bind alike_remembered fun stage => ?_
    exact .bind (h.note' _ (.closing _ (stage.getLast?_label))) fun _ =>
      .pure (some Fate.abandoned)

theorem alike_answerAccount (prompt : AccountPrompt) :
    AlikeOver R E (answerAccount { b with password := p } username prompt)
      (answerAccount { b with password := q } username prompt) := by
  cases prompt with
  | menu =>
    refine .bind (h.say' (hlines newEntry (by simp [Signup.lines]))) fun _ => ?_
    exact .bind (alike_reach h username .requested) fun _ => .pure none
  | name =>
    refine .bind (h.say' (hlines username (by simp [Signup.lines]))) fun _ => ?_
    exact .bind (alike_reach h username .named) fun _ => .pure none
  | taken =>
    refine .bind (h.note' _ (.closing _ (by decide))) fun _ => ?_
    exact .bind (h.note' _ (.closing _ (by decide))) fun _ => .pure (some (AccountEnd.over .taken))
  | password =>
    exact .bind h.whisper' fun _ => .bind (alike_reach h username .proving) fun _ => .pure none
  | confirmation => exact .bind h.whisper' fun _ => .pure (some AccountEnd.registered)

theorem alike_accountRound :
    AlikeOver R E (accountRound { b with password := p } username)
      (accountRound { b with password := q } username) := by
  refine .bind (h.listen' accountPrompts) fun found? => ?_
  cases found? with
  | some found => exact alike_answerAccount h hlines found.tag
  | none =>
    refine .bind alike_remembered fun stage => ?_
    exact .bind (h.note' _ (.closing _ (stage.getLast?_label))) fun _ =>
      .pure (some (AccountEnd.over .abandoned))

/-- **The dialogue for an account beside itself.** -/
theorem alike_createOne :
    AlikeOver R E (createOne { b with password := p } username)
      (createOne { b with password := q } username) := by
  refine .bind (alike_remember Stage.start) fun _ => ?_
  refine .bind (h.untilDone (alike_accountRound h hlines)) fun last? => ?_
  match last? with
  | some .registered =>
    refine .bind (alike_remember Stage.registered) fun _ => ?_
    exact h.untilDone (alike_characterRound h hlines)
  | some (.over fate) => exact .pure (some fate)
  | none => exact .pure none

end

section

-- When the server hangs up, a batch is ended in good order. After that failure nothing else may be
-- known of the sessions than before it.
variable {b : Batch} (h : IsBisimulation allowed p.reveal q.reveal R fun _ => R)
  (hlines : ∀ number, ∀ line ∈ Signup.lines (b.username number), allowed line)
include h hlines

theorem alike_createNext (number : Nat) :
    AlikeOver R (fun _ => R)
      (createNext { b with password := p } (b.username number))
      (createNext { b with password := q } (b.username number)) := by
  have hone : AlikeOver R (fun _ => R)
      (createOne { b with password := p } (b.username number))
      (createOne { b with password := q } (b.username number)) :=
    alike_createOne h (hlines number)
  rw [createNext_eq, createNext_eq]
  refine .tryCatch (alike_delegate Stage.start hone) fun e => ?_
  unfold afterFailure
  cases e.isClosed with
  | true =>
    refine Alike.bind alike_remembered fun ledger => ?_
    refine .bind (h.note' _ (.closing _ (by decide))) fun _ => ?_
    exact .bind (alike_remember _) fun _ => .pure none
  | false => exact fun _ _ hfailed => .error hfailed

theorem alike_createFrom (remaining number : Nat) :
    AlikeOver R (fun _ => R)
      (createFrom { b with password := p } remaining number)
      (createFrom { b with password := q } remaining number) := by
  induction remaining generalizing number with
  | zero => exact .pure ()
  | succ remaining ih =>
    refine .bind (alike_createNext h hlines number) fun fate? => ?_
    cases fate? with
    | some fate =>
      exact .bind alike_remembered fun _ => .bind (alike_remember _) fun _ => ih (number + 1)
    | none => exact .pure ()

/-- **A batch beside itself.** -/
theorem alike_run :
    AlikeOver R (fun _ => R) (run { b with password := p }) (run { b with password := q }) := by
  refine .bind (alike_remember Ledger.empty) fun _ => ?_
  refine .bind (alike_createFrom h hlines b.count 1) fun _ => ?_
  refine .bind alike_remembered fun ledger => ?_
  exact .bind (h.note' _ (.closing _ (by decide))) fun _ => .pure ledger

end

end Signup

/-! ### Wandering about -/

namespace Wander

/-- What is said on a walk. -/
def lines : List String := look :: Direction.all.map Direction.code

section

variable {secret secret' : String} (h : IsBisimulation allowed secret secret' R E)
  (hlines : ∀ line ∈ Wander.lines, allowed line)
include h hlines

theorem alike_lookAgain (reason : String) :
    AlikeOver R E (lookAgain reason) (lookAgain reason) := by
  refine .bind (h.note' _ (.closing _ (by decide))) fun _ => ?_
  refine .bind (h.say' (hlines look List.mem_cons_self)) fun _ => ?_
  exact .bind alike_remembered fun _ => alike_remember _

theorem alike_leave (exits : Exits) : AlikeOver R E (leave exits) (leave exits) := by
  refine .bind alike_remembered fun walk => ?_
  rcases exits.choose? walk.source with ⟨picked, source⟩
  refine .bind (alike_remember _) fun _ => ?_
  cases picked with
  | some d =>
    have hcode : d.code ∈ Wander.lines :=
      List.mem_cons_of_mem _ (List.mem_map_of_mem d.mem_all)
    refine .bind (h.note' _ (.closing _ (d.getLast?_code))) fun _ => ?_
    exact .bind (h.say' (hlines _ hcode)) fun _ => alike_remember _
  | none => exact alike_lookAgain h hlines _

theorem alike_advance : AlikeOver R E advance advance := by
  refine .bind (h.listen' prompts) fun found? => ?_
  cases found? with
  | some found => exact alike_leave h hlines _
  | none => exact alike_lookAgain h hlines _

end

section

variable {secret secret' : String} (h : IsBisimulation allowed secret secret' R fun _ => R)
  (hlines : ∀ line ∈ Wander.lines, allowed line) (limit? : Option Nat)
include h hlines

theorem alike_round : AlikeOver R (fun _ => R) (round limit?) (round limit?) := by
  rw [round_eq]
  refine .bind alike_remembered fun walk => ?_
  by_cases hfar : limit?.any (· ≤ walk.moves) = true
  · rw [if_pos hfar]
    exact .bind (h.note' _ (.closing _ (by decide))) fun _ => .pure _
  · rw [if_neg hfar]
    refine .tryCatch (.bind (alike_advance h hlines) fun _ => .pure none) fun e => ?_
    unfold afterFailure
    cases e.isClosed with
    | true =>
      refine Alike.bind (h.note' _ (.closing _ (by decide))) fun _ => ?_
      exact .bind alike_remembered fun _ => .pure _
    | false => exact fun _ _ hfailed => .error hfailed

/-- **A walk beside itself.** -/
theorem alike_run : AlikeOver R (fun _ => R) (run limit?) (run limit?) := by
  refine .bind alike_remembered fun _ => .bind (alike_remember _) fun _ => ?_
  exact h.untilDone (alike_round h hlines limit?)

end

end Wander

/-! ### The programs -/

namespace Program

variable (h : IsBisimulation allowed p.reveal q.reveal R fun _ => R)
include h

theorem alike_finish {σ : Type} {x y : ClientM σ (Option ExitCode)}
    (hact : AlikeOver R (fun _ => R) x y) :
    AlikeOver R (fun _ => R) (finish x) (finish y) := by
  rw [finish_eq, finish_eq]
  refine .tryCatch hact fun e => ?_
  unfold afterFailure
  cases e.isClosed with
  | true => exact Alike.bind (h.note' _ (.of_head? (by decide))) fun _ => .pure _
  | false => exact Alike.bind (h.note' _ e.isOwnMessage) fun _ => .pure _

/-- **The program that wanders about, beside itself.** -/
theorem alike_wander {c : Credentials} (hlogin : ∀ line ∈ Login.lines c, allowed line)
    (hwalk : ∀ line ∈ Wander.lines, allowed line) (limit? : Option Nat) :
    AlikeOver R (fun _ => R) (wander { c with password := p } limit?)
      (wander { c with password := q } limit?) := by
  refine alike_finish h (.bind (alike_delegate .start (Login.alike_run h hlogin)) fun stage? => ?_)
  cases stage? with
  | none => exact .pure none
  | some stage =>
    cases hstage : stage.isSuccess with
    | false =>
      simp only [hstage]
      exact .pure _
    | true =>
      simp only [hstage]
      refine .bind (Wander.alike_run h hwalk limit?) fun tally? => ?_
      cases tally? with
      | none => exact .pure none
      | some tally => exact .bind (h.note' _ (.closing _ (by decide))) fun _ => .pure _

/-- **The program that creates accounts, beside itself.** -/
theorem alike_provision {b : Batch}
    (hlines : ∀ number, ∀ line ∈ Signup.lines (b.username number), allowed line) :
    AlikeOver R (fun _ => R) (provision { b with password := p })
      (provision { b with password := q }) := by
  refine alike_finish h (.bind (Signup.alike_run h hlines) fun ledger => ?_)
  cases ledger.cutShort with
  | true => exact .bind (h.note' _ (.of_head? (by decide))) fun _ => .pure _
  | false => exact .pure _

end Program

end MudDialogue
