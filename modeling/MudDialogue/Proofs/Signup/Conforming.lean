import Mathlib.Data.List.Chain
import Mathlib.Logic.ExistsUnique
import MudDialogue.Proofs.Client.Conforming
import MudDialogue.Proofs.Client.Ending

/-!
# Creating accounts on a server that keeps to the dialogue

A server that keeps to the dialogue shows a menu for each account and asks for a name. It turns the
name down, or it asks for the password twice, shows another menu, and asks for the name of the
character. Each message comes in as many pieces as the server likes. The batch creates the accounts
whose names are free and skips the others, and sends just what it is asked for.

Most prompts are recognised before the message that brings them is over. What is left of it stands
before the next message, of the same account or of the next one, and must not make a prompt together
with it: it ends a line, or it is the end of a question.

## Main definitions

* `Signup.Conforms` — the messages for one account, and what becomes of it.
* `Signup.Fate.lines` — what is sent for one account.

## Main results

* `Signup.IsRefusal.exists_brings` — a refusal brings the prompt that turns a name down.
* `Signup.exists_createOne_of_proceeds` — what becomes of one account.
* `Signup.run_of_proceeds` — what becomes of a batch.
-/

namespace MudDialogue.Signup

open Pattern ClientM Operation Text Terminal

/-! ### Prompts and answers -/

namespace AccountPrompt

/-- A prompt as the server says it. -/
def text : AccountPrompt → String
  | taken => "unavailable"
  | name => "Desired username"
  | password => "Desired password"
  | confirmation => "Confirm password"
  | menu => "> "

/-- The answer to a prompt. -/
def lines (b : Batch) (username : String) : AccountPrompt → List String
  | menu => [newEntry]
  | name => [username]
  | password | confirmation => [b.password.reveal]
  | taken => []

/-- Where the dialogue leads if the prompt ends it. -/
def end? : AccountPrompt → Option AccountEnd
  | taken => some (.over .taken)
  | confirmation => some .registered
  | name | password | menu => none

end AccountPrompt

namespace CharacterPrompt

/-- A prompt as the server says it. -/
def text : CharacterPrompt → String
  | name => "Desired character name"
  | menu => "> "

/-- The answer to a prompt. -/
def lines (username : String) : CharacterPrompt → List String
  | menu => [newEntry]
  | name => [username, placeholder, placeholder]

/-- What has become of the account if the prompt ends the dialogue. -/
def end? : CharacterPrompt → Option Fate
  | name => some .created
  | menu => none

end CharacterPrompt

/-- Some prompts with their texts. -/
abbrev texts (ps : List AccountPrompt) : List (AccountPrompt × String) :=
  ps.map fun p => (p, p.text)

theorem accountPrompts_eq : accountPrompts =
    .ofTexts (texts [.taken, .name, .password, .confirmation]) ([] ++ [(.menu, "> ")]) :=
  rfl

theorem characterPrompts_eq :
    characterPrompts = .ofTexts [(.name, CharacterPrompt.name.text)] ([] ++ [(.menu, "> ")]) :=
  rfl

/-- The texts of all prompts but the question of a menu. -/
def others : List String :=
  [AccountPrompt.taken, .name, .password, .confirmation].map AccountPrompt.text ++
    [CharacterPrompt.name.text]

variable {b : Batch} {username : String} {settings : Settings} {depth : Nat}
  {c : Client Stage}

theorem speaks_reach (hroom : c.session.peer.room? = none) (stage : Stage) :
    Speaks (reach username stage) c () stage [] :=
  (speaks_remember hroom stage).bind fun _ h => speaks_note h.room _ _

theorem exists_speaks_answerAccount (b : Batch) (username : String) (p : AccountPrompt)
    (hroom : c.session.peer.room? = none) :
    ∃ m, Speaks (answerAccount b username p) c p.end? m (p.lines b username) := by
  cases p with
  | menu =>
    exact ⟨_, (speaks_say hroom _).bind fun _ h => (speaks_reach h.room .requested).bind fun _ h =>
      speaks_pure h.room _⟩
  | name =>
    exact ⟨_, (speaks_say hroom _).bind fun _ h => (speaks_reach h.room .named).bind fun _ h =>
      speaks_pure h.room _⟩
  | taken =>
    exact ⟨_, (speaks_note hroom _ _).bind fun _ h => (speaks_note h.room _ _).bind fun _ h =>
      speaks_pure h.room _⟩
  | password =>
    exact ⟨_, (speaks_whisper hroom _).bind fun _ h =>
      (speaks_reach h.room .proving).bind fun _ h => speaks_pure h.room _⟩
  | confirmation =>
    exact ⟨_, (speaks_whisper hroom _).bind fun _ h => speaks_pure h.room _⟩

theorem exists_speaks_answerCharacter (username : String) (p : CharacterPrompt)
    (hroom : c.session.peer.room? = none) :
    ∃ m, Speaks (answerCharacter username p) c p.end? m (p.lines username) := by
  cases p with
  | menu =>
    exact ⟨_, (speaks_say hroom _).bind fun _ h => (speaks_remember h.room _).bind fun _ h =>
      speaks_pure h.room _⟩
  | name =>
    exact ⟨_, (speaks_say hroom _).bind fun _ h => (speaks_say h.room _).bind fun _ h =>
      (speaks_say h.room _).bind fun _ h => (speaks_note h.room _ _).bind fun _ h =>
        (speaks_note h.room _ _).bind fun _ h => speaks_pure h.room _⟩

/-! ### Messages -/

/-- The text of a message that turns a name down: plain text that ends a line, with the prompt that
turns the name down in one place and no other prompt. -/
structure IsRefusal (text : List UInt8) : Prop where
  plain : IsPlain text
  once : ∃! before, before ++ Utf8.bytes AccountPrompt.taken.text <+: text
  endsLine : text.getLast? = some 0x0A
  none : ∀ other ∈ "> " :: others, other ≠ AccountPrompt.taken.text → ¬ Utf8.bytes other <:+: text

/-- What is left of a question when its text is recognised. -/
def colon : List UInt8 := Utf8.bytes ": "

theorem inert_colon : Inert ("> " :: others) colon := by decide +kernel

variable {left : List UInt8}
  {menu name password confirmation refusal second character : List (List UInt8)}

theorem brings_menu (hmenu : IsMenu others menu.flatten) (hleft : Inert ("> " :: others) left)
    (hdepth : 2 ≤ depth) : accountPrompts.Brings depth left menu .menu [] := by
  rw [accountPrompts_eq]
  exact hmenu.brings hleft (by decide) (by decide) hdepth

theorem brings_name (hname : name.flatten = Utf8.bytes "Desired username: ")
    (hdepth : 18 ≤ depth) : accountPrompts.Brings depth [] name .name colon := by
  rw [accountPrompts_eq]
  refine .of_text hname (by decide) (Prompts.announces_literal (u := [])
    (texts [.taken]) (texts [.password, .confirmation]) [(.menu, "> ")] hdepth
    (by decide +kernel) (by decide +kernel)) ?_
  rfl

theorem brings_password (hpassword : password.flatten = Utf8.bytes "Desired password: ")
    (hdepth : 20 ≤ depth) : accountPrompts.Brings depth colon password .password colon := by
  rw [accountPrompts_eq]
  refine .of_text hpassword (by decide) (Prompts.announces_literal (u := colon)
    (texts [.taken, .name]) (texts [.confirmation]) [(.menu, "> ")] hdepth
    (by decide +kernel) (by decide +kernel)) ?_
  rfl

theorem brings_confirmation (hconfirmation : confirmation.flatten = Utf8.bytes "Confirm password: ")
    (hdepth : 20 ≤ depth) :
    accountPrompts.Brings depth colon confirmation .confirmation colon := by
  rw [accountPrompts_eq]
  refine .of_text hconfirmation (by decide) (Prompts.announces_literal (u := colon)
    (texts [.taken, .name, .password]) [] [(.menu, "> ")] hdepth
    (by decide +kernel) (by decide +kernel)) ?_
  rfl

theorem brings_secondMenu (hsecond : IsMenu others second.flatten)
    (hleft : Inert ("> " :: others) left) (hdepth : 2 ≤ depth) :
    characterPrompts.Brings depth left second .menu [] := by
  rw [characterPrompts_eq]
  exact hsecond.brings hleft (by decide) (by decide) hdepth

theorem brings_characterName
    (hcharacter : character.flatten = Utf8.bytes "Desired character name: ")
    (hdepth : 24 ≤ depth) : characterPrompts.Brings depth [] character .name colon := by
  rw [characterPrompts_eq]
  refine .of_text hcharacter (by decide) (Prompts.announces_literal (u := []) [] []
    [(CharacterPrompt.menu, "> ")] hdepth (by decide +kernel) (List.forall_mem_nil _)) ?_
  rfl

section IsRefusal

variable {u v : List UInt8} {other : String}

/-- The prompt that turns the name down stands in one place. -/
theorem IsRefusal.eq_of_prefix {start : List UInt8}
    (h : IsRefusal (u ++ Utf8.bytes AccountPrompt.taken.text ++ v))
    (hstart : start ++ Utf8.bytes AccountPrompt.taken.text <+:
      u ++ Utf8.bytes AccountPrompt.taken.text ++ v) : start = u :=
  h.once.unique hstart (List.prefix_append _ v)

/-- No prompt is complete before the one that turns the name down. -/
theorem IsRefusal.not_before (h : IsRefusal (u ++ Utf8.bytes AccountPrompt.taken.text ++ v))
    (hother : other ∈ "> " :: others) :
    ¬ Utf8.bytes other <:+: (u ++ Utf8.bytes AccountPrompt.taken.text).dropLast := by
  have hprefix : (u ++ Utf8.bytes AccountPrompt.taken.text).dropLast <+:
      u ++ Utf8.bytes AccountPrompt.taken.text ++ v :=
    (List.dropLast_prefix _).trans (List.prefix_append _ v)
  intro hoccurs
  by_cases htaken : other = AccountPrompt.taken.text
  · -- it would be complete too early
    subst htaken
    obtain ⟨start, rest, hparts⟩ := hoccurs
    obtain rfl := h.eq_of_prefix (List.IsPrefix.trans ⟨rest, hparts⟩ hprefix)
    have hlength := congrArg List.length hparts
    have hpos : 0 < (Utf8.bytes AccountPrompt.taken.text).length := by decide
    simp only [List.length_append, List.length_dropLast] at hlength
    omega
  · exact h.none other hother htaken (hoccurs.trans hprefix.isInfix)

/-- No prompt stands behind the one that turns the name down. -/
theorem IsRefusal.not_behind (h : IsRefusal (u ++ Utf8.bytes AccountPrompt.taken.text ++ v))
    (hother : other ∈ "> " :: others) : ¬ Utf8.bytes other <:+: v := by
  intro hoccurs
  by_cases htaken : other = AccountPrompt.taken.text
  · -- it would stand in two places
    subst htaken
    obtain ⟨start, rest, rfl⟩ := hoccurs
    have hstart : u ++ Utf8.bytes AccountPrompt.taken.text ++ start ++
        Utf8.bytes AccountPrompt.taken.text <+: u ++ Utf8.bytes AccountPrompt.taken.text ++
          (start ++ Utf8.bytes AccountPrompt.taken.text ++ rest) :=
      ⟨rest, by simp only [List.append_assoc]⟩
    have hu := h.eq_of_prefix hstart
    have hlength := congrArg List.length hu
    have hpos : 0 < (Utf8.bytes AccountPrompt.taken.text).length := by decide
    simp only [List.length_append] at hlength
    omega
  · exact h.none other hother htaken (hoccurs.trans (List.suffix_append _ v).isInfix)

/-- What is behind the prompt that turns the name down is inert. -/
theorem IsRefusal.inert (h : IsRefusal (u ++ Utf8.bytes AccountPrompt.taken.text ++ v)) :
    Inert ("> " :: others) v := by
  have hline := h.endsLine
  have hbehind : ∀ other ∈ "> " :: others, ¬ Utf8.bytes other <:+: v := fun _ => h.not_behind
  rcases List.eq_nil_or_concat' v with rfl | ⟨v, last, rfl⟩
  · rw [List.append_nil, List.getLast?_append] at hline
    cases hline
  · rw [List.getLast?_append, List.getLast?_concat] at hline
    obtain rfl : last = 0x0A := Option.some.inj hline
    exact inert_concat (by decide) hbehind

/-- **A refusal brings the prompt that turns the name down**, on top of what is left of the question
for it, and what is left of the refusal is inert. -/
theorem IsRefusal.exists_brings (h : IsRefusal refusal.flatten)
    (hleft : Inert ("> " :: others) left) (hdepth : (left ++ refusal.flatten).length ≤ depth) :
    ∃ rest, Inert ("> " :: others) rest ∧ accountPrompts.Brings depth left refusal .taken rest := by
  obtain ⟨u, ⟨v, hparts⟩, -⟩ := h.once
  have hmessage : left ++ refusal.flatten =
      left ++ u ++ Utf8.bytes AccountPrompt.taken.text ++ v := by
    simp only [← hparts, List.append_assoc]
  have hplain := h.plain
  rw [← hparts] at h
  have hdrop : (left ++ u ++ Utf8.bytes AccountPrompt.taken.text).dropLast =
      left ++ (u ++ Utf8.bytes AccountPrompt.taken.text).dropLast := by
    rw [List.append_assoc, List.dropLast_append_of_ne_nil]
    exact List.append_ne_nil_of_right_ne_nil u (by decide)
  have hall : ∀ p ∈ texts [.taken, .name, .password, .confirmation] ++ [(.menu, "> ")],
      p.2 ∈ "> " :: others := by decide
  refine ⟨v, h.inert, hplain, left ++ u ++ Utf8.bytes AccountPrompt.taken.text, hmessage, ?_⟩
  rw [accountPrompts_eq]
  refine Prompts.announces_literal [] (texts [.name, .password, .confirmation])
    [(.menu, "> ")] (hmessage ▸ hdepth) (fun p hp hoccurs => ?_) (List.forall_mem_nil _)
  rw [hdrop] at hoccurs
  exact h.not_before (hall p hp) (hleft.infix_of_append (hall p hp) hoccurs)

end IsRefusal

/-! ### One account -/

/-- The messages with which a server that keeps to the dialogue goes through it for one account,
each in pieces, and what becomes of the account. -/
inductive Conforms : Fate → List (List (List UInt8)) → Prop where
  | taken {menu name refusal : List (List UInt8)} (hmenu : IsMenu others menu.flatten)
      (hname : name.flatten = Utf8.bytes "Desired username: ")
      (hrefusal : IsRefusal refusal.flatten) : Conforms .taken [menu, name, refusal]
  | created {menu name password confirmation second character : List (List UInt8)}
      (hmenu : IsMenu others menu.flatten)
      (hname : name.flatten = Utf8.bytes "Desired username: ")
      (hpassword : password.flatten = Utf8.bytes "Desired password: ")
      (hconfirmation : confirmation.flatten = Utf8.bytes "Confirm password: ")
      (hsecond : IsMenu others second.flatten)
      (hcharacter : character.flatten = Utf8.bytes "Desired character name: ") :
      Conforms .created [menu, name, password, confirmation, second, character]

theorem Conforms.ne_abandoned {fate : Fate} {messages : List (List (List UInt8))}
    (h : Conforms fate messages) : fate ≠ .abandoned := by
  cases h <;> exact Fate.noConfusion

/-- The messages for one account, of which any two that follow one another are kept together. -/
structure Proceeds (depth : Nat) (fate : Fate) (messages : List (List (List UInt8))) : Prop where
  conforms : Conforms fate messages
  fits : messages.IsChain fun first second =>
    first.flatten.length + second.flatten.length ≤ depth

/-- What is sent for one account. -/
def Fate.lines (b : Batch) (username : String) : Fate → List String
  | .taken => [newEntry, username]
  | .created => [newEntry, username, b.password.reveal, b.password.reveal, newEntry, username,
      placeholder, placeholder]
  | .abandoned => []

variable {messages coming : List (List (List UInt8))} {said : List String} {later : List Arrival}
  {s : Session}

/-- The messages up to the question for the name. -/
theorem series_name (hmenu : IsMenu others menu.flatten)
    (hname : name.flatten = Utf8.bytes "Desired username: ") (hleft : Inert ("> " :: others) left)
    (hdepth : 18 ≤ depth) : accountPrompts.Series depth left [menu, name] [.menu, .name] colon :=
  .next (brings_menu hmenu hleft (Nat.le_trans (by decide) hdepth))
    (.next (brings_name hname hdepth) .done)

theorem untilDone_turn_account_ne_none (hs : s.backlog.Reachable) (d : Client Stage) :
    untilDone (turn accountPrompts (answerAccount b username) (abandonAccount username))
      ⟨.start, s⟩ ≠ .ok none d := by
  rw [← accountRound_eq]
  exact untilDone_accountRound_ne_none (c := ⟨.start, s⟩) hs

/-- The dialogue for an account whose name is turned down. -/
theorem exists_account_of_refusal (b : Batch) (username : String)
    (hmenu : IsMenu others menu.flatten)
    (hname : name.flatten = Utf8.bytes "Desired username: ") (hrefusal : IsRefusal refusal.flatten)
    (hleft : Inert ("> " :: others) left)
    (hdepth : 18 + refusal.flatten.length ≤ settings.searchDepth)
    (hs : s.Stands settings said left (menu :: name :: refusal :: coming) later) :
    ∃ stage t rest, untilDone (accountRound b username) ⟨.start, s⟩ =
        .ok (some (.over .taken)) ⟨stage, t⟩ ∧ Inert ("> " :: others) rest ∧
      t.Stands settings (said ++ [newEntry, username]) rest coming later := by
  have hcolon : (colon ++ refusal.flatten).length ≤ settings.searchDepth := by
    have hlength : colon.length = 2 := by decide
    rw [List.length_append, hlength]
    omega
  obtain ⟨rest, hrest, hmessage⟩ := hrefusal.exists_brings inert_colon hcolon
  obtain ⟨stage, t, hdone, ht⟩ := exists_untilDone_of_series
    (fun p {_} => exists_speaks_answerAccount b username p)
    (untilDone_turn_account_ne_none hs.reachable)
    (series_name hmenu hname hleft (Nat.le_trans (Nat.le_add_right _ _) hdepth)) (by decide)
    hmessage rfl hs
  exact ⟨stage, t, rest, accountRound_eq b username ▸ hdone, hrest, ht⟩

/-- The dialogue for an account whose name is free. -/
theorem exists_account_of_free (b : Batch) (username : String)
    (hmenu : IsMenu others menu.flatten)
    (hname : name.flatten = Utf8.bytes "Desired username: ")
    (hpassword : password.flatten = Utf8.bytes "Desired password: ")
    (hconfirmation : confirmation.flatten = Utf8.bytes "Confirm password: ")
    (hleft : Inert ("> " :: others) left) (hdepth : 20 ≤ settings.searchDepth)
    (hs : s.Stands settings said left (menu :: name :: password :: confirmation :: coming) later) :
    ∃ stage t, untilDone (accountRound b username) ⟨.start, s⟩ =
        .ok (some .registered) ⟨stage, t⟩ ∧
      t.Stands settings (said ++ [newEntry, username, b.password.reveal, b.password.reveal]) colon
        coming later := by
  have hseries := (series_name hmenu hname hleft (Nat.le_trans (by decide) hdepth)).append
    (.next (brings_password hpassword hdepth) .done)
  obtain ⟨stage, t, hdone, ht⟩ := exists_untilDone_of_series
    (fun p {_} => exists_speaks_answerAccount b username p)
    (untilDone_turn_account_ne_none hs.reachable) hseries (by decide)
    (brings_confirmation hconfirmation hdepth) rfl hs
  exact ⟨stage, t, accountRound_eq b username ▸ hdone, ht⟩

/-- The dialogue for a character. -/
theorem exists_character (username : String) (hsecond : IsMenu others second.flatten)
    (hcharacter : character.flatten = Utf8.bytes "Desired character name: ")
    (hdepth : 24 ≤ settings.searchDepth)
    (hs : s.Stands settings said colon (second :: character :: coming) later) :
    ∃ stage t, untilDone (characterRound username) ⟨.registered, s⟩ =
        .ok (some .created) ⟨stage, t⟩ ∧
      t.Stands settings (said ++ [newEntry, username, placeholder, placeholder]) colon coming
        later := by
  have hseries : characterPrompts.Series settings.searchDepth colon [second] [.menu] [] :=
    .next (brings_secondMenu hsecond inert_colon (Nat.le_trans (by decide) hdepth)) .done
  have hends (d : Client Stage) : untilDone (turn characterPrompts (answerCharacter username)
      (abandonCharacter username)) ⟨.registered, s⟩ ≠ .ok none d := by
    rw [← characterRound_eq]
    exact untilDone_characterRound_ne_none (c := ⟨.registered, s⟩) hs.reachable
  obtain ⟨stage, t, hdone, ht⟩ := exists_untilDone_of_series
    (fun p {_} => exists_speaks_answerCharacter username p) hends hseries (by decide)
    (brings_characterName hcharacter hdepth) rfl hs
  exact ⟨stage, t, characterRound_eq username ▸ hdone, ht⟩

/-- **What becomes of one account**, and what is sent for it. -/
theorem exists_createOne_of_proceeds (b : Batch) (username : String) {fate : Fate}
    (h : Proceeds settings.searchDepth fate messages)
    (hleft : Inert ("> " :: others) left)
    (hs : s.Stands settings said left (messages ++ coming) later) :
    ∃ d rest, createOne b username ⟨.start, s⟩ = .ok (some fate) d ∧
      Inert ("> " :: others) rest ∧
      d.session.Stands settings (said ++ fate.lines b username) rest coming later := by
  obtain ⟨hconforms, hfits⟩ := h
  have hstart : (remember .start : ClientM Stage Unit) ⟨.start, s⟩ = .ok () ⟨.start, s⟩ := rfl
  cases hconforms with
  | @taken menu name refusal hmenu hname hrefusal =>
    simp only [List.isChain_cons_cons, hname] at hfits
    obtain ⟨stage, t, rest, haccount, hrest, ht⟩ :=
      exists_account_of_refusal b username hmenu hname hrefusal hleft hfits.2.1 hs
    refine ⟨⟨stage, t⟩, rest, ?_, hrest, ht⟩
    rw [createOne, bind_of_ok hstart, bind_of_ok haccount]
    rfl
  | @created menu name password confirmation second character hmenu hname hpassword hconfirmation
      hsecond hcharacter =>
    simp only [List.isChain_cons_cons, hname, hpassword, hconfirmation, hcharacter] at hfits
    have hdepth : 24 ≤ settings.searchDepth :=
      Nat.le_trans (Nat.le_add_left 24 _) hfits.2.2.2.2.1
    obtain ⟨stage, t, haccount, ht⟩ := exists_account_of_free b username hmenu hname hpassword
      hconfirmation hleft (Nat.le_trans (by decide) hdepth) hs
    obtain ⟨stage', u, hdone, hu⟩ := exists_character username hsecond hcharacter hdepth ht
    have hregistered : (remember .registered : ClientM Stage Unit) ⟨stage, t⟩ =
        .ok () ⟨.registered, t⟩ := rfl
    refine ⟨⟨stage', u⟩, colon, ?_, inert_colon, ?_⟩
    · rw [createOne, bind_of_ok hstart, bind_of_ok haccount]
      exact (bind_of_ok hregistered).trans hdone
    · rw [List.append_assoc] at hu
      exact hu

/-! ### Batches -/

/-- The names of the accounts with a fate, in order. -/
def withFate (fate : Fate) (accounts : List (String × Fate)) : List String :=
  (accounts.filter (·.2 = fate)).map Prod.fst

/-- What is reported of several accounts. -/
theorem foldl_record (ledger : Ledger) (accounts : List (String × Fate)) :
    accounts.foldl (fun ledger account => ledger.record account.1 account.2) ledger =
      ⟨ledger.created ++ withFate .created accounts, ledger.taken ++ withFate .taken accounts,
        ledger.abandoned ++ withFate .abandoned accounts, ledger.cutShort⟩ := by
  induction accounts generalizing ledger with
  | nil => simp [withFate]
  | cons account accounts ih =>
    rw [List.foldl_cons, ih]
    obtain ⟨name, fate⟩ := account
    cases fate <;> simp [Ledger.record, withFate]

/-- The accounts from a number on, with their fates. -/
def accountsFrom (b : Batch) : Nat → List Fate → List (String × Fate)
  | _, [] => []
  | number, fate :: fates => (b.username number, fate) :: accountsFrom b (number + 1) fates

theorem accountsFrom_eq (number : Nat) (fates : List Fate) : accountsFrom b number fates =
    ((List.range' number fates.length).map b.username).zip fates := by
  induction fates generalizing number with
  | nil => rfl
  | cons fate fates ih => rw [accountsFrom, ih]; rfl

/-- **One account after the other.** -/
theorem exists_createFrom_of_proceeds {dialogues : List (Fate × List (List (List UInt8)))}
    (hdialogues : ∀ d ∈ dialogues, Proceeds settings.searchDepth d.1 d.2)
    (hleft : Inert ("> " :: others) left) (number : Nat) (ledger : Ledger)
    (hs : s.Stands settings said left (dialogues.flatMap Prod.snd) later) :
    ∃ t rest, createFrom b dialogues.length number ⟨ledger, s⟩ = .ok ()
        ⟨(accountsFrom b number (dialogues.map Prod.fst)).foldl
          (fun ledger account => ledger.record account.1 account.2) ledger, t⟩ ∧
      t.Stands settings (said ++ (accountsFrom b number (dialogues.map Prod.fst)).flatMap
        fun account => account.2.lines b account.1) rest [] later := by
  induction dialogues generalizing number ledger said left s with
  | nil => exact ⟨s, left, rfl, (List.append_nil said).symm ▸ hs⟩
  | cons dialogue dialogues ih =>
    obtain ⟨d, rest, hone, hrest, hd⟩ := exists_createOne_of_proceeds b (b.username number)
      (hdialogues dialogue List.mem_cons_self) hleft hs
    obtain ⟨t, last, hothers, ht⟩ := ih (fun d h => hdialogues d (List.mem_cons_of_mem _ h)) hrest
      (number + 1) (ledger.record (b.username number) dialogue.1) hd
    have hnext : createNext b (b.username number) ⟨ledger, s⟩ =
        .ok (some dialogue.1) ⟨ledger, d.session⟩ := by
      rw [createNext_apply, hone]
    refine ⟨t, last, ?_, ?_⟩
    · rw [List.length_cons, createFrom, bind_of_ok hnext]
      exact hothers
    · rw [List.append_assoc] at ht
      exact ht

/-- **A batch on a server that keeps to the dialogue.** Whatever accounts have names that are free,
whatever the menus are, and into whatever pieces each message is cut: the accounts with free names
are created and the others skipped, and for each account, in order, just those lines are sent that
the server asks for. -/
theorem run_of_proceeds (b : Batch) (settings : Settings)
    {dialogues : List (Fate × List (List (List UInt8)))} (hcount : dialogues.length = b.count)
    (hdialogues : ∀ d ∈ dialogues, Proceeds settings.searchDepth d.1 d.2) (rest : List ServerAct)
    (before : Ledger) :
    let s := Session.start (.ofScript
      ((dialogues.flatMap Prod.snd).flatten.map .send ++ rest) none) settings
    let accounts := b.usernames.zip (dialogues.map Prod.fst)
    ∃ d, run b ⟨before, s⟩ =
        .ok ⟨withFate .created accounts, withFate .taken accounts, [], false⟩ d ∧
      d.session.peer.writes =
        Event.saying settings (accounts.flatMap fun account => account.2.lines b account.1) := by
  intro s accounts
  have hinert : Inert ("> " :: others) [] := by decide
  have haccounts : accountsFrom b 1 (dialogues.map Prod.fst) = accounts := by
    rw [accountsFrom_eq, List.length_map, hcount, ← Nat.min_self b.count]
    rfl
  obtain ⟨t, left, hall, ht⟩ := exists_createFrom_of_proceeds (b := b) hdialogues hinert 1 .empty
    (Session.stands_start settings (dialogues.flatMap Prod.snd) rest)
  rw [haccounts, foldl_record, hcount] at hall
  rw [haccounts] at ht
  have hnone : withFate .abandoned accounts = [] := by
    rw [withFate, List.filter_eq_nil_iff.mpr, List.map_nil]
    intro account haccount
    obtain ⟨dialogue, hdialogue, hfate⟩ := List.mem_map.mp (List.of_mem_zip haccount).2
    rw [decide_eq_true_iff, ← hfate]
    exact (hdialogues dialogue hdialogue).conforms.ne_abandoned
  let ledger : Ledger := ⟨withFate .created accounts, withFate .taken accounts, [], false⟩
  have hempty : (remember .empty : ClientM Ledger Unit) ⟨before, s⟩ = .ok () ⟨.empty, s⟩ := rfl
  have hledger : createFrom b b.count 1 ⟨.empty, s⟩ = .ok () ⟨ledger, t⟩ := by
    rw [hall, hnone]
    rfl
  have hrun : ∃ message, run b ⟨before, s⟩ =
      .ok ledger ⟨ledger, { t with past := (.info, message) :: t.past }⟩ := by
    rw [run, bind_of_ok hempty, bind_of_ok hledger]
    exact ⟨_, rfl⟩
  obtain ⟨message, hrun⟩ := hrun
  exact ⟨_, hrun, ht.writes⟩

/-- The first name is turned down and the second one is free. Menus, questions and the refusal are
cut in the middle. -/
theorem run_of_proceeds_in_pieces :
    let b : Batch := .usual 2
    let menu := [Utf8.bytes "[N]ew account\r\n", Utf8.bytes ">", Utf8.bytes " "]
    let name := [Utf8.bytes "Desired user", Utf8.bytes "name", Utf8.bytes ": "]
    let refusal := [Utf8.bytes "unit1 is unav", Utf8.bytes "ailable", Utf8.bytes ".\n"]
    let password := [Utf8.bytes "Desired password: "]
    let confirmation := [Utf8.bytes "Confirm password:", Utf8.bytes " "]
    let character := [Utf8.bytes "Desired character name: "]
    let dialogues := [(Fate.taken, [menu, name, refusal]),
      (Fate.created, [menu, name, password, confirmation, menu, character])]
    let s := Session.start (.ofScript ((dialogues.flatMap Prod.snd).flatten.map .send) none) {}
    (∀ d ∈ dialogues, Proceeds 4096 d.1 d.2) ∧
      ∃ d, run b ⟨.empty, s⟩ = .ok ⟨["unit2"], ["unit1"], [], false⟩ d ∧
        d.session.peer.writes = Event.saying {} ["n", "unit1", "n", "unit2", "unit123", "unit123",
          "n", "unit2", "x", "x"] := by
  intro b menu name refusal password confirmation character dialogues s
  have hmenu : IsMenu others menu.flatten :=
    ⟨by decide, by decide, by decide +kernel, by decide +kernel⟩
  have hrefusal : IsRefusal refusal.flatten := by
    refine ⟨by decide, ⟨Utf8.bytes "unit1 is ", by decide, fun before h => ?_⟩, by decide,
      by decide +kernel⟩
    have hplaces : ∀ n ≤ refusal.flatten.length,
        refusal.flatten.take n ++ Utf8.bytes AccountPrompt.taken.text <+: refusal.flatten →
          n = 9 := by decide +kernel
    have hbefore : before <+: refusal.flatten := (List.prefix_append before _).trans h
    have htake : before = refusal.flatten.take before.length := List.prefix_iff_eq_take.mp hbefore
    have hlength : before.length = 9 := hplaces _ hbefore.length_le (htake ▸ h)
    rw [htake, hlength]
    rfl
  have hname : name.flatten = Utf8.bytes "Desired username: " := rfl
  have hdialogues : ∀ d ∈ dialogues, Proceeds 4096 d.1 d.2 := by
    intro d hd
    rcases List.mem_pair.mp hd with rfl | rfl
    · exact ⟨.taken hmenu hname hrefusal, by decide⟩
    · exact ⟨.created hmenu hname rfl rfl hmenu rfl, by decide⟩
  have hcount : dialogues.length = b.count := rfl
  have hrun := run_of_proceeds b {} hcount hdialogues [] .empty
  rw [List.append_nil] at hrun
  exact ⟨hdialogues, hrun⟩

end MudDialogue.Signup
