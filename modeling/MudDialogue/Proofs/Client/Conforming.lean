import MudDialogue.Proofs.Client.Talk
import MudDialogue.Proofs.Session.Messages

/-!
# Clients of servers that keep to the dialogue

A server that keeps to the dialogue sends messages that bring one prompt each. As long as no prompt
ends the dialogue, the client goes round once for each message and says what the prompt asks for, so
what it says is told by the prompts alone.

Menus are the same in all dialogues: they end with the question for a choice, and have neither this
question nor any other prompt anywhere else.

## Main definitions

* `Prompts.Series` — messages that bring one prompt each.
* `ClientM.Leads` — a loop comes from one state to another.
* `IsMenu` — the text of a menu.

## Main results

* `ClientM.exists_leads_of_series` — what a client says to a series of messages.
* `ClientM.Leads.untilDone_eq` — the end of a loop.
* `ClientM.exists_untilDone_of_series` — a dialogue with a message that ends it.
* `IsMenu.brings` — a menu brings the prompt for a choice.
-/

namespace MudDialogue

open Pattern Text Terminal

/-! ### Messages one after the other -/

/-- Messages, each in pieces, that bring one prompt each, the first of them on top of what is left
of earlier ones. What is left of the last one comes last. -/
inductive Pattern.Prompts.Series {τ : Type} (set : Prompts τ) (depth : Nat) :
    List UInt8 → List (List (List UInt8)) → List τ → List UInt8 → Prop where
  | done {left} : Series set depth left [] [] left
  | next {left rest last message messages tag tags}
      (hmessage : set.Brings depth left message tag rest)
      (hrest : Series set depth rest messages tags last) :
      Series set depth left (message :: messages) (tag :: tags) last

theorem Pattern.Prompts.Series.append {τ : Type} {set : Prompts τ} {depth : Nat}
    {left rest last : List UInt8} {messages more : List (List (List UInt8))} {tags others : List τ}
    (h : set.Series depth left messages tags rest) (h' : set.Series depth rest more others last) :
    set.Series depth left (messages ++ more) (tags ++ others) last := by
  induction h with
  | done => exact h'
  | next hmessage hrest ih => exact .next hmessage (ih h')

namespace ClientM

variable {σ τ α : Type}

/-- Going round leads from one state to another: the loop goes on from there in every case. -/
def Leads (x : ClientM σ (Option α)) (c d : Client σ) : Prop :=
  ∃ n, ∀ more, rounds x (n + more) c = rounds x more d

section Leads

variable {x : ClientM σ (Option α)} {c d e : Client σ}

theorem Leads.refl (x : ClientM σ (Option α)) (c : Client σ) : Leads x c c :=
  ⟨0, fun more => by rw [Nat.zero_add]⟩

theorem Leads.of_round (h : x c = .ok none d) : Leads x c d :=
  ⟨1, fun more => by rw [Nat.add_comm, rounds_succ h]⟩

theorem Leads.trans (h : Leads x c d) (h' : Leads x d e) : Leads x c e := by
  obtain ⟨m, hm⟩ := h
  obtain ⟨n, hn⟩ := h'
  exact ⟨m + n, fun more => by rw [Nat.add_assoc, hm, hn]⟩

/-- **A loop ends as the round ends to which it leads**, if it ends at all. -/
theorem Leads.untilDone_eq_round (h : Leads x c d) (hlast : ∀ e, x d ≠ .ok none e)
    (hends : ∀ e, untilDone x c ≠ .ok none e) : untilDone x c = x d := by
  obtain ⟨n, hn⟩ := h
  have hrounds : rounds x (n + 1) c = x d := by
    rw [hn, rounds, Operation.bind_apply]
    cases hx : x d with
    | error f e => rfl
    | ok a? e =>
      cases a? with
      | some a => rfl
      | none => exact absurd hx (hlast e)
  refine (rounds_eq_rounds (m := c.session.horizon) hends fun e he => ?_).trans hrounds
  exact hlast e (hrounds.symm.trans he)

theorem Leads.untilDone_eq {a : α} (h : Leads x c d) (hlast : x d = .ok (some a) e)
    (hends : ∀ e, untilDone x c ≠ .ok none e) : untilDone x c = .ok (some a) e := by
  rw [← hlast]
  exact h.untilDone_eq_round (fun e' he => by cases hlast.symm.trans he) hends

end Leads

/-- What a client says in the rounds of a series: every prompt of the series is answered with lines
of its own, and no answer is the end. -/
theorem exists_leads_of_series (x : ClientM σ (Option α)) (going : σ → Prop)
    (lines : τ → List String) {set : Prompts τ} [ToString τ] {tags : List τ} {settings : Settings}
    {said : List String} {left last : List UInt8} {messages coming : List (List (List UInt8))}
    {later : List Arrival} {m : σ} {s : Session}
    (hround : ∀ {m s t found}, going m → found.tag ∈ tags →
      Session.listen set s = .ok (some found) t → t.peer.room? = none →
      ∃ m' u, x ⟨m, s⟩ = .ok none ⟨m', u⟩ ∧ going m' ∧ t.Spoke (lines found.tag) u)
    (h : set.Series settings.searchDepth left messages tags last)
    (hs : s.Stands settings said left (messages ++ coming) later) (hm : going m) :
    ∃ m' t, Leads x ⟨m, s⟩ ⟨m', t⟩ ∧ going m' ∧
      t.Stands settings (said ++ tags.flatMap lines) last coming later := by
  induction h generalizing said m s with
  | done => exact ⟨m, s, .refl x _, hm, by rwa [List.flatMap_nil, List.append_nil]⟩
  | next hmessage hrest ih =>
    obtain ⟨found, t, hlisten, rfl, ht⟩ := hs.listen hmessage
    obtain ⟨m₁, u, hx, hm₁, hu⟩ := hround hm List.mem_cons_self hlisten ht.room
    obtain ⟨m₂, v, hleads, hm₂, hv⟩ :=
      ih (fun hm hfound => hround hm (List.mem_cons_of_mem _ hfound)) (ht.of_spoke hu) hm₁
    refine ⟨m₂, v, (Leads.of_round hx).trans hleads, hm₂, ?_⟩
    rwa [List.flatMap_cons, ← List.append_assoc]

/-- **A dialogue of rounds with a series of messages and a last one that ends it.** -/
theorem exists_untilDone_of_series {set : Prompts τ} [ToString τ]
    {answer : τ → ClientM σ (Option α)} {silence : ClientM σ (Option α)} {end? : τ → Option α}
    {lines : τ → List String} {tags : List τ} {p : τ} {a : α} {settings : Settings}
    {said : List String} {left mid rest : List UInt8} {message : List (List UInt8)}
    {messages coming : List (List (List UInt8))} {later : List Arrival} {m : σ} {s : Session}
    (hanswer : ∀ p {c : Client σ}, c.session.peer.room? = none →
      ∃ m, Speaks (answer p) c (end? p) m (lines p))
    (hends : ∀ d, untilDone (turn set answer silence) ⟨m, s⟩ ≠ .ok none d)
    (hseries : set.Series settings.searchDepth left messages tags mid)
    (htags : ∀ p ∈ tags, end? p = none)
    (hmessage : set.Brings settings.searchDepth mid message p rest) (hend : end? p = some a)
    (hs : s.Stands settings said left (messages ++ message :: coming) later) :
    ∃ m' t, untilDone (turn set answer silence) ⟨m, s⟩ = .ok (some a) ⟨m', t⟩ ∧
      t.Stands settings (said ++ (tags ++ [p]).flatMap lines) rest coming later := by
  have hround {m : σ} {s t : Session} {found : Match τ}
      (hlisten : Session.listen set s = .ok (some found) t) (hroom : t.peer.room? = none) :
      ∃ m' u, turn set answer silence ⟨m, s⟩ = .ok (end? found.tag) ⟨m', u⟩ ∧
        t.Spoke (lines found.tag) u := by
    have hclient : (⟨m, t⟩ : Client σ).session.peer.room? = none := hroom
    obtain ⟨m', u, hspeaks, hu⟩ := hanswer found.tag hclient
    refine ⟨m', u, ?_, hu⟩
    rw [turn, Operation.bind_apply, ClientM.listen, talk, hlisten]
    exact hspeaks
  have hnext {m : σ} {s t : Session} {found : Match τ} (hfound : found.tag ∈ tags)
      (hlisten : Session.listen set s = .ok (some found) t) (hroom : t.peer.room? = none) :
      ∃ m' u, turn set answer silence ⟨m, s⟩ = .ok none ⟨m', u⟩ ∧ True ∧
        t.Spoke (lines found.tag) u := by
    obtain ⟨m', u, hturn, hu⟩ := hround (m := m) hlisten hroom
    exact ⟨m', u, htags _ hfound ▸ hturn, trivial, hu⟩
  obtain ⟨m₁, t, hleads, -, ht⟩ := exists_leads_of_series (turn set answer silence) (fun _ => True)
    lines (fun _ => hnext) hseries hs trivial
  obtain ⟨found, u, hlisten, rfl, hu⟩ := ht.listen hmessage
  obtain ⟨m₂, v, hlast, hv⟩ := hround (m := m₁) hlisten hu.room
  refine ⟨m₂, v, hleads.untilDone_eq (hend ▸ hlast) hends, ?_⟩
  rw [List.flatMap_append, List.flatMap_singleton, ← List.append_assoc]
  exact hu.of_spoke hv

end ClientM

/-! ### Menus -/

/-- The text of a menu: plain text that ends with the question for a choice and has it nowhere
else, and in which none of some other texts occurs. -/
structure IsMenu (others : List String) (text : List UInt8) : Prop where
  plain : IsPlain text
  ends : Utf8.bytes "> " <:+ text
  once : ¬ Utf8.bytes "> " <:+: text.dropLast
  none : ∀ other ∈ others, ¬ Utf8.bytes other <:+: text

/-- **A menu brings the prompt for a choice**, also on top of what is left of an earlier message if
that is inert. -/
theorem IsMenu.brings {τ : Type} {anywhere earlier : List (τ × String)} {tag : τ} {depth : Nat}
    {others : List String} {left : List UInt8} {menu : List (List UInt8)}
    (h : IsMenu others menu.flatten) (hleft : Inert ("> " :: others) left)
    (hanywhere : ∀ p ∈ anywhere, p.2 ∈ others) (hearlier : ∀ p ∈ earlier, p.2 ∈ others)
    (hdepth : 2 ≤ depth) :
    (Prompts.ofTexts anywhere (earlier ++ [(tag, "> ")])).Brings depth left menu tag [] := by
  have hothers {other : String} (hother : other ∈ others) :
      ¬ Utf8.bytes other <:+: left ++ menu.flatten := fun hoccurs =>
    h.none other hother (hleft.infix_of_append (List.mem_cons_of_mem _ hother) hoccurs)
  have hdrop : (left ++ menu.flatten).dropLast <+: left ++ menu.flatten := List.dropLast_prefix _
  have hne : menu.flatten ≠ [] := by
    intro hnil
    have hends := h.ends
    rw [hnil] at hends
    exact absurd (List.suffix_nil.mp hends) (by decide)
  refine ⟨h.plain, _, (List.append_nil _).symm, ?_⟩
  refine Prompts.announces_question _ _ (fun p hp => hothers (hanywhere p hp))
    (fun p hp hoccurs => ?_) (fun p hp hsuffix => hothers (hearlier p hp) hsuffix.isInfix)
    (h.ends.trans (List.suffix_append left menu.flatten)) hdepth
  rcases List.mem_append.mp hp with hp | hp
  · exact hothers (hearlier p hp) (hoccurs.trans hdrop.isInfix)
  · obtain rfl := List.mem_singleton.mp hp
    rw [List.dropLast_append_of_ne_nil hne] at hoccurs
    exact h.once (hleft.infix_of_append List.mem_cons_self hoccurs)

end MudDialogue
