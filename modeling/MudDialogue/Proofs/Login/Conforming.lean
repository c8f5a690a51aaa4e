import MudDialogue.Proofs.Client.Conforming
import MudDialogue.Proofs.Client.Ending

/-!
# Logging in to a server that keeps to the dialogue

A server that keeps to the dialogue shows some menus and then asks for the name and for the
password, or turns the account down in place of a question. Each message comes in as many pieces as
the server likes. The login sends just what is asked for, in this order, and ends as the server
says.

The questions count only at the end of what was received, so the first part of a message is not
taken for one, and neither is a message that turns the account down, whatever comes behind that.

## Main definitions

* `Login.Prompt.text`, `Login.Prompt.lines`, `Login.Prompt.stage` — what the server says, what is
  answered, and where that leads.
* `Login.Rejects` — the text of a message that turns the account down.

## Main results

* `Login.run_of_series` — a login goes as the messages of the server say.
* `Login.run_of_conforming` — a login to a server that keeps to the dialogue.
-/

namespace MudDialogue.Login

open Pattern ClientM Operation Text Terminal

namespace Prompt

/-- A prompt as the server says it. -/
def text : Prompt → String
  | inUse => "already online"
  | unknown => "User not found"
  | name => "Username: "
  | password => "Password: "
  | menu => "> "

/-- The answer to a prompt. -/
def lines (c : Credentials) : Prompt → List String
  | menu => [enter]
  | name => [c.username]
  | password => [c.password.reveal, firstCharacter]
  | inUse | unknown => []

/-- The stage to which the answer leads. -/
def stage : Prompt → Stage
  | menu => .start
  | name => .named
  | password => .playing
  | inUse => .inUse
  | unknown => .unknown

end Prompt

/-- Some prompts with their texts. -/
abbrev texts (ps : List Prompt) : List (Prompt × String) := ps.map fun p => (p, p.text)

theorem prompts_eq :
    prompts = .ofTexts (texts [.inUse, .unknown]) (texts [.name, .password] ++ [(.menu, "> ")]) :=
  rfl

/-- The texts that a menu must not hold. -/
def others : List String := [Prompt.inUse, .unknown, .name, .password].map Prompt.text

variable {c : Credentials} {settings : Settings} {depth : Nat}
  {menu name password : List (List UInt8)} {menus : List (List (List UInt8))}

/-! ### One round -/

theorem speaks_answer {client : Client Stage} (hroom : client.session.peer.room? = none)
    (p : Prompt) : Speaks (answer c p) client () p.stage (p.lines c) := by
  cases p with
  | menu => exact (speaks_say hroom enter).bind fun _ h => speaks_remember h.room _
  | name => exact (speaks_say hroom c.username).bind fun _ h => speaks_remember h.room _
  | password =>
    exact (speaks_remember hroom _).bind fun _ h =>
      (speaks_whisper h.room c.password.reveal).bind fun _ h =>
        (speaks_say h.room firstCharacter).bind fun _ h =>
          (speaks_note h.room _ _).bind fun _ h => speaks_remember h.room _
  | inUse => exact (speaks_note hroom _ _).bind fun _ h => speaks_remember h.room _
  | unknown => exact (speaks_note hroom _ _).bind fun _ h => speaks_remember h.room _

/-- A round with a prompt. -/
theorem exists_round_of_heard {stage : Stage} {s t : Session} {found : Match Prompt}
    (hstage : stage.isOver = false) (hlisten : Session.listen prompts s = .ok (some found) t)
    (hroom : t.peer.room? = none) :
    ∃ u, round c ⟨stage, s⟩ = .ok none ⟨found.tag.stage, u⟩ ∧ t.Spoke (found.tag.lines c) u := by
  have hclient : (⟨stage, t⟩ : Client Stage).session.peer.room? = none := hroom
  obtain ⟨u, hanswer, hu⟩ := speaks_answer (c := c) hclient found.tag
  have hadvance : advance c ⟨stage, s⟩ = .ok () ⟨found.tag.stage, u⟩ := by
    rw [advance, bind_apply, ClientM.listen, talk, hlisten]
    exact hanswer
  refine ⟨u, ?_, hu⟩
  change (if stage.isOver = true then _ else _ : ClientM Stage (Option Stage)) ⟨stage, s⟩ = _
  rw [hstage, if_neg Bool.false_ne_true, bind_of_ok hadvance]
  rfl

/-! ### Messages -/

theorem brings_menu (h : IsMenu others menu.flatten) (hdepth : 2 ≤ depth) :
    prompts.Brings depth [] menu .menu [] := by
  have hleft : Inert ("> " :: others) [] := by decide
  rw [prompts_eq]
  exact h.brings hleft (by decide) (by decide) hdepth

theorem brings_name (hname : name.flatten = Utf8.bytes "Username: ") (hdepth : 10 ≤ depth) :
    prompts.Brings depth [] name .name [] := by
  rw [prompts_eq]
  refine .of_text hname (by decide) ?_ (List.append_nil _).symm
  exact Prompts.announces_question [] (texts [.password, .menu])
    (by decide +kernel) (by decide +kernel) (by decide) (by decide) hdepth

theorem brings_password (hpassword : password.flatten = Utf8.bytes "Password: ")
    (hdepth : 10 ≤ depth) : prompts.Brings depth [] password .password [] := by
  rw [prompts_eq]
  refine .of_text hpassword (by decide) ?_ (List.append_nil _).symm
  exact Prompts.announces_question (texts [.name]) (texts [.menu])
    (by decide +kernel) (by decide +kernel) (by decide) (by decide) hdepth

/-- The text of a message that turns the account down for one of the two reasons: no other prompt
occurs up to the end of the reason, and behind it neither reason does. -/
structure Rejects (depth : Nat) (reason : Prompt) (text : List UInt8) : Prop where
  isReason : reason = .inUse ∨ reason = .unknown
  plain : IsPlain text
  fits : text.length ≤ depth
  parts : ∃ u v, text = u ++ Utf8.bytes reason.text ++ v ∧
    (∀ p, p ≠ reason → ¬ Utf8.bytes p.text <:+: u ++ Utf8.bytes reason.text) ∧
    ¬ Utf8.bytes Prompt.inUse.text <:+: v ∧ ¬ Utf8.bytes Prompt.unknown.text <:+: v

/-- The one reason does not begin at the end of the other. -/
theorem inert_unknown {u : List UInt8}
    (h : ¬ Utf8.bytes Prompt.inUse.text <:+: u ++ Utf8.bytes Prompt.unknown.text) :
    Inert [Prompt.inUse.text] (u ++ Utf8.bytes Prompt.unknown.text) := by
  have hparts : ∀ n < (Utf8.bytes Prompt.inUse.text).length,
      ¬ (Utf8.bytes Prompt.inUse.text).take (n + 1) <:+ Utf8.bytes Prompt.unknown.text := by decide
  have hlength :
      (Utf8.bytes Prompt.inUse.text).length = (Utf8.bytes Prompt.unknown.text).length := by decide
  intro text htext
  obtain rfl := List.mem_singleton.mp htext
  refine ⟨h, fun n hn hsuffix => hparts n hn ?_⟩
  refine List.suffix_of_suffix_length_le hsuffix (List.suffix_append u _) ?_
  rw [List.length_take, ← hlength]
  exact Nat.min_le_right _ _

/-- **A message that turns the account down brings the reason**, wherever it stands in it. -/
theorem Rejects.exists_brings {reason : Prompt} {message : List (List UInt8)}
    (h : Rejects depth reason message.flatten) :
    ∃ rest, prompts.Brings depth [] message reason rest := by
  obtain ⟨hreason, hplain, hfits, u, v, hmessage, hothers, hinUse, -⟩ := h
  have hne : Utf8.bytes reason.text ≠ [] := by
    cases reason <;> decide
  have hoccurs : Utf8.bytes reason.text <:+: u ++ Utf8.bytes reason.text := List.infix_append_right
  obtain ⟨u', w, hu, hfirst⟩ := exists_first_occurrence hne hoccurs
  have hbefore (p : Prompt) :
      ¬ Utf8.bytes p.text <:+: (u' ++ Utf8.bytes reason.text).dropLast := by
    by_cases hp : p = reason
    · exact hp ▸ hfirst
    · refine fun hoccurs => hothers p hp (hoccurs.trans (List.IsPrefix.isInfix ?_))
      exact hu ▸ (List.dropLast_prefix _).trans (List.prefix_append _ w)
  have htext : u ++ Utf8.bytes reason.text ++ v = u' ++ Utf8.bytes reason.text ++ (w ++ v) := by
    rw [hu, List.append_assoc]
  have hall (ps : List Prompt) : ∀ q ∈ texts ps,
      ¬ Utf8.bytes q.2 <:+: (u' ++ Utf8.bytes reason.text).dropLast := by
    intro q hq
    obtain ⟨p, -, rfl⟩ := List.mem_map.mp hq
    exact hbefore p
  refine ⟨w ++ v, hplain, u' ++ Utf8.bytes reason.text, hmessage.trans htext, ?_⟩
  rw [hmessage] at hfits
  rw [prompts_eq]
  rcases hreason with rfl | rfl
  · exact Prompts.announces_literal [] (texts [.unknown]) (texts [.name, .password, .menu])
      (htext ▸ hfits) (hall [.inUse, .unknown, .name, .password, .menu]) (List.forall_mem_nil _)
  · refine Prompts.announces_literal (texts [.inUse]) [] (texts [.name, .password, .menu])
      (htext ▸ hfits) (hall [.inUse, .unknown, .name, .password, .menu]) fun q hq hoccurs => ?_
    obtain rfl := List.mem_singleton.mp hq
    rw [← htext] at hoccurs
    exact hinUse ((inert_unknown (hothers .inUse (by decide))).infix_of_append
      List.mem_cons_self hoccurs)

/-! ### Whole logins -/

/-- The menus before a login. -/
theorem series_menus (hdepth : 2 ≤ depth)
    (hmenus : ∀ menu ∈ menus, IsMenu others menu.flatten) :
    prompts.Series depth [] menus (List.replicate menus.length .menu) [] := by
  induction menus with
  | nil => exact .done
  | cons menu menus ih =>
    exact .next (brings_menu (hmenus menu List.mem_cons_self) hdepth)
      (ih fun menu h => hmenus menu (List.mem_cons_of_mem _ h))

/-- The messages up to the question for the name. -/
theorem series_name (hdepth : 10 ≤ depth) (hmenus : ∀ menu ∈ menus, IsMenu others menu.flatten)
    (hname : name.flatten = Utf8.bytes "Username: ") :
    prompts.Series depth [] (menus ++ [name]) (List.replicate menus.length .menu ++ [.name]) [] :=
  (series_menus (Nat.le_trans (by decide) hdepth) hmenus).append
    (.next (brings_name hname hdepth) .done)

/-- None of these messages is the end. -/
theorem isOver_stage_eq_false {n : Nat} {p : Prompt}
    (hp : p ∈ List.replicate n Prompt.menu ++ [.name]) : p.stage.isOver = false := by
  rcases List.mem_append.mp hp with hp | hp
  · rw [List.eq_of_mem_replicate hp]
    rfl
  · rw [List.mem_singleton.mp hp]
    rfl

/-- What is sent for the menus. -/
theorem lines_menus (c : Credentials) (n : Nat) :
    (List.replicate n Prompt.menu).flatMap (·.lines c) = List.replicate n enter := by
  rw [List.flatMap_replicate]
  exact List.flatten_replicate_singleton

/-- The session with a server that sends some messages, each in pieces, and then does something
else. -/
abbrev facing (settings : Settings) (messages : List (List (List UInt8)))
    (rest : List ServerAct) : Session :=
  .start (.ofScript (messages.flatten.map .send ++ rest) none) settings

/-- **A login goes as the messages of the server say.** It is over as soon as one of them brings the
end. -/
theorem run_of_series {messages : List (List (List UInt8))} {tags : List Prompt}
    {left after : List UInt8} {message : List (List UInt8)} {p : Prompt}
    (hseries : prompts.Series settings.searchDepth [] messages tags left)
    (htags : ∀ p ∈ tags, p.stage.isOver = false)
    (hmessage : prompts.Brings settings.searchDepth left message p after)
    (hover : p.stage.isOver = true) (rest : List ServerAct) :
    ∃ d, run c ⟨.start, facing settings (messages ++ [message]) rest⟩ = .ok (some p.stage) d ∧
      d.session.peer.writes = Event.saying settings ((tags ++ [p]).flatMap (·.lines c)) ∧
      (after = [] → d.session.backlog.content = []) := by
  have hstart := Session.stands_start settings (messages ++ [message]) rest
  let client : Client Stage := ⟨.start, facing settings (messages ++ [message]) rest⟩
  have hreachable : client.Reachable := hstart.reachable
  have hroom : client.session.peer.room? = none := hstart.room
  obtain ⟨s, hnote, hs⟩ := speaks_note hroom .info ("logging in as " ++ c.username)
  have hrun : run c client = untilDone (round c) ⟨.start, s⟩ := bind_of_ok hnote
  obtain ⟨stage, t, hleads, hstage, ht⟩ := exists_leads_of_series (round c)
    (fun stage => stage.isOver = false) (·.lines c) (m := Stage.start)
    (fun hstage hfound hlisten hroom =>
      let ⟨u, hround, hu⟩ := exists_round_of_heard hstage hlisten hroom
      ⟨_, u, hround, htags _ hfound, hu⟩)
    hseries (hstart.of_spoke hs) rfl
  obtain ⟨found, u, hlisten, rfl, hu⟩ := ht.listen hmessage
  obtain ⟨v, hround, hv⟩ := exists_round_of_heard (c := c) hstage hlisten hu.room
  have hlast : round c ⟨found.tag.stage, v⟩ = .ok (some found.tag.stage) ⟨found.tag.stage, v⟩ := by
    change (if found.tag.stage.isOver = true then _ else _ : ClientM Stage (Option Stage)) _ = _
    rw [if_pos hover]
    rfl
  have hend := hu.of_spoke hv
  refine ⟨⟨found.tag.stage, v⟩, ?_, ?_, ?_⟩
  · refine hrun.trans ((hleads.trans (.of_round hround)).untilDone_eq hlast fun e he => ?_)
    exact run_ne_none hreachable (hrun.trans he)
  · rw [hend.writes, List.flatMap_append, List.flatMap_singleton]
    rfl
  · rintro rfl
    exact hend.content

/-- **A login to a server that keeps to the dialogue.** The server shows any number of menus and
then asks for the name and for the password, each in any pieces: the login sends a choice for each
menu, then the name, the password and the choice of the first character, nothing else, and is over
with an empty backlog. If the server turns the account down in place of a question, the login is
over for the reason it gives, and nothing more is sent. -/
theorem run_of_conforming (settings : Settings) (hdepth : 14 ≤ settings.searchDepth)
    (c : Credentials) {menus : List (List (List UInt8))} {name password : List (List UInt8)}
    (hmenus : ∀ menu ∈ menus, IsMenu others menu.flatten)
    (hname : name.flatten = Utf8.bytes "Username: ")
    (hpassword : password.flatten = Utf8.bytes "Password: ") (rest : List ServerAct) :
    let entering := List.replicate menus.length enter
    (∃ d, run c ⟨.start, facing settings (menus ++ [name, password]) rest⟩ =
        .ok (some .playing) d ∧
      d.session.peer.writes = Event.saying settings
        (entering ++ [c.username, c.password.reveal, firstCharacter]) ∧
      d.session.backlog.content = []) ∧
    ∀ (reason : Prompt) (rejection : List (List UInt8)),
      Rejects settings.searchDepth reason rejection.flatten →
      (∃ d, run c ⟨.start, facing settings (menus ++ [rejection]) rest⟩ =
          .ok (some reason.stage) d ∧
        d.session.peer.writes = Event.saying settings entering) ∧
      ∃ d, run c ⟨.start, facing settings (menus ++ [name, rejection]) rest⟩ =
          .ok (some reason.stage) d ∧
        d.session.peer.writes = Event.saying settings (entering ++ [c.username]) := by
  intro entering
  have hdepth' : 10 ≤ settings.searchDepth := Nat.le_trans (by decide) hdepth
  have hmenu : ∀ p ∈ List.replicate menus.length Prompt.menu, p.stage.isOver = false :=
    fun p hp => isOver_stage_eq_false (List.mem_append_left [.name] hp)
  have hshown := series_menus (Nat.le_trans (by decide) hdepth) hmenus
  have hasked := series_name hdepth' hmenus hname
  refine ⟨?_, fun reason rejection hrejects => ?_⟩
  · obtain ⟨d, hrun, hwrites, hcontent⟩ := run_of_series (c := c) hasked
      (fun p => isOver_stage_eq_false) (brings_password hpassword hdepth') rfl rest
    rw [List.append_assoc] at hrun
    refine ⟨d, hrun, ?_, hcontent rfl⟩
    rw [hwrites, List.flatMap_append, List.flatMap_append, lines_menus, List.append_assoc]
    rfl
  · obtain ⟨after, hmessage⟩ := hrejects.exists_brings
    have hreason : reason.stage.isOver = true ∧ reason.lines c = [] := by
      rcases hrejects.isReason with rfl | rfl <;> exact ⟨rfl, rfl⟩
    refine ⟨?_, ?_⟩
    · obtain ⟨d, hrun, hwrites, -⟩ := run_of_series (c := c) hshown hmenu hmessage hreason.1 rest
      refine ⟨d, hrun, ?_⟩
      rw [hwrites, List.flatMap_append, lines_menus, List.flatMap_singleton, hreason.2,
        List.append_nil]
    · obtain ⟨d, hrun, hwrites, -⟩ := run_of_series (c := c) hasked
        (fun p => isOver_stage_eq_false) hmessage hreason.1 rest
      rw [List.append_assoc] at hrun
      refine ⟨d, hrun, ?_⟩
      rw [hwrites, List.flatMap_append, List.flatMap_append, lines_menus, List.flatMap_singleton,
        List.flatMap_singleton, hreason.2, List.append_nil]
      rfl

/-- There is one menu, the questions are cut in the middle, and so is the reason for which an
account is turned down, with a menu behind it. -/
theorem run_of_conforming_in_pieces :
    let settings : Settings := { searchDepth := 24 }
    let c : Credentials := ⟨"localhost", 8945, "unit1", ⟨"unit123"⟩⟩
    let menu := [Utf8.bytes "[L]og in\r", Utf8.bytes "\n>", Utf8.bytes " "]
    let name := [Utf8.bytes "User", Utf8.bytes "name: "]
    let password := [Utf8.bytes "Password: "]
    let rejection := [Utf8.bytes "User not f", Utf8.bytes "ound\n", Utf8.bytes "> "]
    IsMenu others menu.flatten ∧ Rejects 24 .unknown rejection.flatten ∧
      (∃ d, run c ⟨.start, facing settings [menu, name, password] []⟩ = .ok (some .playing) d ∧
        d.session.peer.writes = Event.saying settings ["l", "unit1", "unit123", "1"] ∧
        d.session.backlog.content = []) ∧
      ∃ d, run c ⟨.start, facing settings [menu, name, rejection] []⟩ = .ok (some .unknown) d ∧
        d.session.peer.writes = Event.saying settings ["l", "unit1"] := by
  intro settings c menu name password rejection
  have hmenu : IsMenu others menu.flatten :=
    ⟨by decide, by decide, by decide +kernel, by decide +kernel⟩
  have hrejection : Rejects 24 .unknown rejection.flatten :=
    ⟨.inr rfl, by decide, by decide, [], Utf8.bytes "\n> ", rfl, fun p hp => by
      cases p <;> first | exact absurd rfl hp | decide +kernel,
      by decide +kernel, by decide +kernel⟩
  have hmenus : ∀ m ∈ [menu], IsMenu others m.flatten := by
    intro m hm
    rw [List.mem_singleton.mp hm]
    exact hmenu
  have hname : name.flatten = Utf8.bytes "Username: " := rfl
  have hpassword : password.flatten = Utf8.bytes "Password: " := rfl
  obtain ⟨haccepted, hrejected⟩ :=
    run_of_conforming settings (by decide) c hmenus hname hpassword []
  exact ⟨hmenu, hrejection, haccepted, (hrejected .unknown rejection hrejection).2⟩

end MudDialogue.Login
