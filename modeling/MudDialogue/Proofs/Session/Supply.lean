import MudDialogue.Proofs.Backlog.Reads
import MudDialogue.Proofs.Client.Bisimulation
import MudDialogue.Proofs.Pattern.FoundWords
import MudDialogue.Proofs.Session.Waiting
import MudDialogue.Proofs.Telnet.Reads
import MudDialogue.Proofs.Terminal.Growth

/-!
# How much a session has left to recognise prompts in

Every prompt that is recognised uses up some of the output that was received. A session receives no
more than the server sends, and a byte that is sent makes at most three bytes of output. So what is
left, counted in bytes of output, grows by nothing that is done with a session, and shrinks with
every prompt that is recognised.

## Main definitions

* `Backlog.supply`, `Session.supply` — all output that can still be received or consumed.
* `Session.Supplied` — a session whose supply is bounded.

## Main results

* `Session.supplied_listenUntil` — a wait uses up something if it recognises a prompt.
* `Session.isBisimulation_supplied` — nothing that is done with a session adds to its supply.
-/

namespace MudDialogue

open Pattern Operation

/-- What a backlog holds, with what may still come of the character that is pending. -/
def Backlog.supply (b : Backlog) : Nat := b.content.length + b.mode.held

/-- All output that can still be received or consumed, in bytes. -/
def Session.supply (s : Session) : Nat := s.backlog.supply + 3 * s.peer.unread

/-- A session of a program has at most so much left. -/
structure Session.Supplied (n : Nat) (s : Session) : Prop where
  reachable : s.backlog.Reachable
  supply_le : s.supply ≤ n

namespace Backlog

variable {b : Backlog}

theorem supply_extend_le (hb : b.Reachable) (read : List UInt8) :
    (b.extend read).supply ≤ b.supply + 3 * read.length := by
  have hclean := Terminal.held_add_length_clean hb.sound.2 read
  have hnewest := (newest_suffix b.depth (b.content ++ (Terminal.clean b.mode read).2)).length_le
  rw [List.length_append] at hnewest
  simp only [supply, extend]
  omega

/-- A prompt that is recognised is given up, and something with it if the prompt is not empty. -/
theorem supply_of_search {τ : Type} {set : Prompts τ} {found : Match τ} {rest : Backlog}
    (h : b.search set = some (found, rest)) :
    rest.supply ≤ b.supply ∧ (set.TakesUp → rest.supply < b.supply) := by
  obtain ⟨⟨_, stop⟩, hfind, hrest⟩ := Option.map_eq_some_iff.mp h
  obtain ⟨-, rfl⟩ := Prod.mk.inj hrest
  have hsupply : (b.consume stop).supply = b.content.length - stop + b.mode.held := by
    simp only [supply, consume, List.length_drop]
  have hbefore : b.supply = b.content.length + b.mode.held := rfl
  refine ⟨by omega, fun hset => ?_⟩
  obtain ⟨hpos, hle⟩ := hset.stop_pos hfind
  omega

end Backlog

namespace Session

variable {s t : Session} {n : Nat}

/-- A loop goes round often enough to use up everything, and once more. -/
theorem supply_succ_lt_horizon (s : Session) : s.supply + 1 < s.horizon := by
  have hheld := Terminal.held_le s.backlog.mode
  simp only [supply, Backlog.supply, horizon]
  omega

theorem Supplied.of_eq (h : s.Supplied n) (hbacklog : t.backlog = s.backlog)
    (harrivals : t.peer.arrivals = s.peer.arrivals) : t.Supplied n := by
  refine ⟨hbacklog ▸ h.reachable, ?_⟩
  rw [supply, hbacklog, Peer.unread, harrivals]
  exact h.supply_le

/-- A read uses up what it makes output of. -/
theorem Supplied.hear {a : Arrival} {bytes : List UInt8} {later : List Arrival} (h : s.Supplied n)
    (ha : a.delivery = .bytes bytes) (harrivals : s.peer.arrivals = a :: later) :
    (s.hear a bytes later).2.Supplied n := by
  have hunread : s.peer.unread = bytes.length + Arrival.total later := by
    rw [Peer.unread, harrivals, Arrival.total, ha, Delivery.size]
  have hlater : (s.hear a bytes later).2.peer.unread = Arrival.total later := by
    rw [Peer.unread, arrivals_hear]
  have hbound : s.backlog.supply + 3 * s.peer.unread ≤ n := h.supply_le
  have hbacklog : (s.hear a bytes later).2.backlog =
      if (s.hear a bytes later).1 then s.backlog.extend (Telnet.part s.telnet bytes).2.text
      else s.backlog := rfl
  cases hwrite : (s.hear a bytes later).1 with
  | true =>
    rw [hwrite, if_pos rfl] at hbacklog
    have htext := Telnet.length_text_part_le s.telnet bytes
    have hextend := Backlog.supply_extend_le h.reachable (Telnet.part s.telnet bytes).2.text
    refine ⟨hbacklog ▸ h.reachable.extend _, ?_⟩
    rw [supply, hbacklog, hlater]
    omega
  | false =>
    rw [hwrite, if_neg Bool.false_ne_true] at hbacklog
    refine ⟨hbacklog ▸ h.reachable, ?_⟩
    rw [supply, hbacklog, hlater]
    omega

/-- What a wait leaves of the supply: it adds nothing, and it uses up something if it recognises a
prompt that is not empty. -/
def Spends {τ : Type} (prompts : Prompts τ) (n : Nat) :
    EStateM.Result Failure Session (Option (Match τ)) → Prop
  | .ok (some _) t => t.Supplied n ∧ (prompts.TakesUp → t.supply < n)
  | .ok none t | .error _ t => t.Supplied n

theorem Spends.supplied {τ : Type} {prompts : Prompts τ}
    {r : EStateM.Result Failure Session (Option (Match τ))} (h : Spends prompts n r) :
    (endState r).Supplied n := by
  match r, h with
  | .ok (some _) t, h => exact h.1
  | .ok none t, h => exact h
  | .error _ t, h => exact h

/-- **A wait uses up something if it recognises a prompt.** -/
theorem Waits.spends {τ : Type} {prompts : Prompts τ} {deadline : Nat} {arrivals : List Arrival}
    {r : EStateM.Result Failure Session (Option (Match τ))}
    (h : Waits prompts deadline arrivals s r) (harrivals : s.peer.arrivals = arrivals)
    (hs : s.Supplied n) : Spends prompts n r := by
  induction h with
  | @found arrivals s found backlog hsearch =>
    obtain ⟨hle, hlt⟩ := Backlog.supply_of_search hsearch
    have hbound : s.backlog.supply + 3 * s.peer.unread ≤ n := hs.supply_le
    refine ⟨⟨hs.reachable.search hsearch, ?_⟩, fun hset => ?_⟩
    · exact Nat.le_trans (Nat.add_le_add_right hle _) hbound
    · exact Nat.lt_of_lt_of_le (Nat.add_lt_add_right (hlt hset) _) hbound
  | silence => exact hs.of_eq rfl rfl
  | ended => exact hs.of_eq rfl rfl
  | @fault a later s reason hsearch ht ha =>
    refine ⟨hs.reachable, Nat.le_trans ?_ hs.supply_le⟩
    rw [supply, supply, Peer.unread, Peer.unread, harrivals, Arrival.total, ha]
    change _ + 3 * Arrival.total later ≤ _ + 3 * (0 + Arrival.total later)
    rw [Nat.zero_add]
    exact Nat.le_refl _
  | unwritten hsearch ht ha hwrite => exact hs.hear ha harrivals
  | bytes hsearch ht ha hwrite hrest ih => exact ih (arrivals_hear ..) (hs.hear ha harrivals)

/-- So does a call that waits. -/
theorem spends_listen {τ : Type} [ToString τ] (prompts : Prompts τ) (hs : s.Supplied n) :
    Spends prompts n (listen prompts s) := by
  have hwaits := waits_listenFor prompts s.settings.timeout s
  have hspends : Spends prompts n (unloggedResult (listenFor prompts s.settings.timeout s)) :=
    hwaits.spends rfl (hs.of_eq rfl rfl)
  rw [listen_eq]
  cases hr : listenFor prompts s.settings.timeout s with
  | error e t =>
    rw [hr] at hspends
    exact Supplied.of_eq hspends rfl rfl
  | ok found? t =>
    rw [hr] at hspends
    cases found? with
    | some found => exact ⟨hspends.1.of_eq rfl rfl, hspends.2⟩
    | none => exact Supplied.of_eq hspends rfl rfl

theorem Supplied.line (hs : s.Supplied n) (message line : String) :
    (endState ((do note .debug message; writeLine line : SessionM Unit) s)).Supplied n := by
  rw [line_eq, write_eq]
  split <;> exact hs.of_eq rfl (by rw [endState, Peer.write_eq])

/-- **Nothing that is done with a session adds to its supply.** -/
theorem isBisimulation_supplied (n : Nat) (secret : String) :
    IsBisimulation (fun _ => True) secret secret (Itself (Supplied n))
      fun _ => Itself (Supplied n) where
  horizon := by
    rintro s _ ⟨rfl, -⟩
    rfl
  note _ _ _ := .modify <| by
    rintro s _ ⟨rfl, hs⟩
    exact ⟨rfl, hs.of_eq rfl rfl⟩
  say _ := .of_endState fun _ hs => hs.line _ _
  whisper := .of_endState fun _ hs => hs.line _ _
  listen prompts := .of_endState fun _ hs => (spends_listen prompts hs).supplied

end Session

end MudDialogue
