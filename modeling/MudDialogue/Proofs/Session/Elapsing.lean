import MudDialogue.Proofs.Backlog.Reads
import MudDialogue.Proofs.Client.Bisimulation
import MudDialogue.Proofs.Session.Conversation

/-!
# Time and room in front of a session

Whatever is done with a session, time does not go back and the server does not come to take more.
A wait that hears nothing takes all the time that it may, and then nothing can be heard that it did
not hear; if it may not take any time, the session is where it was. So a client that has heard
nothing has waited, unless it hears nothing for ever.

## Main definitions

* `Session.Sound` — a session of a program.
* `Session.Onward` — one session comes after another one.
* `Session.ahead` — the time that can still be waited for, and the bytes that can still be sent.
* `Session.Deaf` — a wait has no time, and nothing to hear.

## Main results

* `Session.isBisimulation_onward` — whatever is done with a session leads onward.
* `Session.Deaf.listen` — a wait without time hears nothing and changes nothing.
* `Session.ahead_lt_or_deaf_of_line` — what hearing nothing and then sending something uses up.
-/

namespace MudDialogue

open Pattern Operation

theorem InOrder.le_closesAt {now closesAt : Nat} {arrivals : List Arrival}
    (h : InOrder now closesAt arrivals) : now ≤ closesAt := by
  induction arrivals generalizing now with
  | nil => exact h
  | cons a later ih => exact Nat.le_trans h.1 (ih h.2)

/-- Time may pass as long as nothing happens. -/
theorem InOrder.of_waiting {now time closesAt : Nat} {arrivals : List Arrival}
    (h : InOrder now closesAt arrivals) (htime : time ≤ Session.nextTime closesAt arrivals) :
    InOrder (max now time) closesAt arrivals := by
  cases arrivals with
  | nil => exact Nat.max_le.mpr ⟨h, htime⟩
  | cons a later => exact ⟨Nat.max_le.mpr ⟨h.1, htime⟩, h.2⟩

namespace Session

variable {s t u : Session}

/-- What the server is going to do is in order of time. -/
def Orderly (s : Session) : Prop := InOrder s.peer.clock s.peer.closesAt s.peer.arrivals

/-- A session of a program. -/
structure Sound (s : Session) : Prop where
  reachable : s.backlog.Reachable
  orderly : s.Orderly

/-- A session at its start, with a server that acts as a script says. -/
theorem sound_start (acts : List ServerAct) (room? : Option Nat) (settings : Settings) :
    (start (.ofScript acts room?) settings).Sound :=
  ⟨.empty _, Peer.inOrder_timeline 0 acts⟩

/-- The time that can still be waited for, and the bytes that can still be sent if there is a limit
to them. -/
def ahead (s : Session) : Nat := s.peer.closesAt - s.peer.clock + s.peer.room?.getD 0

/-- One session comes after another one: the time and the room that there was may have been used. -/
structure Onward (s t : Session) : Prop where
  settings : t.settings = s.settings
  closesAt : t.peer.closesAt = s.peer.closesAt
  clock_le : s.peer.clock ≤ t.peer.clock
  room : ∃ used, t.peer.room? = s.peer.room?.map (· - used)
  orderly : t.Orderly

theorem Orderly.onward (h : s.Orderly) : s.Onward s where
  settings := rfl
  closesAt := rfl
  clock_le := Nat.le_refl _
  room := ⟨0, by cases s.peer.room? <;> rfl⟩
  orderly := h

theorem Onward.trans (h : s.Onward t) (h' : t.Onward u) : s.Onward u where
  settings := h'.settings.trans h.settings
  closesAt := h'.closesAt.trans h.closesAt
  clock_le := Nat.le_trans h.clock_le h'.clock_le
  room := by
    obtain ⟨used, hroom⟩ := h.room
    obtain ⟨more, hroom'⟩ := h'.room
    refine ⟨used + more, ?_⟩
    rw [hroom', hroom, Option.map_map]
    simp only [← Nat.sub_sub]
    rfl
  orderly := h'.orderly

theorem Onward.room_le (h : s.Onward t) : t.peer.room?.getD 0 ≤ s.peer.room?.getD 0 := by
  obtain ⟨used, hroom⟩ := h.room
  rw [hroom]
  cases s.peer.room? with
  | none => exact Nat.le_refl _
  | some room => exact Nat.sub_le _ _

theorem Onward.ahead_le (h : s.Onward t) : t.ahead ≤ s.ahead := by
  have hclock := h.clock_le
  have hroom := h.room_le
  rw [ahead, ahead, h.closesAt]
  omega

/-- Time that passes is used up. -/
theorem Onward.ahead_lt (h : s.Onward t) (hclock : s.peer.clock < t.peer.clock) :
    t.ahead < s.ahead := by
  have hcloses : t.peer.clock ≤ s.peer.closesAt := h.closesAt ▸ InOrder.le_closesAt h.orderly
  have hroom := h.room_le
  rw [ahead, ahead, h.closesAt]
  omega

theorem Onward.of_peer (h : s.Onward t) (hsettings : u.settings = t.settings)
    (hpeer : u.peer = t.peer) : s.Onward u where
  settings := hsettings.trans h.settings
  closesAt := hpeer ▸ h.closesAt
  clock_le := hpeer ▸ h.clock_le
  room := hpeer ▸ h.room
  orderly := by
    rw [Orderly, hpeer]
    exact h.orderly

/-- A write uses up some room, and that is all. -/
theorem Onward.write (h : s.Onward t) (bytes : List UInt8) (hsettings : u.settings = t.settings)
    (hpeer : u.peer = (t.peer.write bytes).2) : s.Onward u := by
  rw [Peer.write_eq] at hpeer
  have hclock : u.peer.clock = t.peer.clock := by rw [hpeer]
  refine h.trans ⟨hsettings, by rw [hpeer], Nat.le_of_eq hclock.symm, ⟨_, by rw [hpeer]⟩, ?_⟩
  rw [Orderly, hpeer]
  exact h.orderly

/-! ### Waiting -/

section Waiting

variable {τ : Type} {prompts : Prompts τ} {deadline : Nat} {arrivals : List Arrival}

/-- A wait leads onward, if it does not fail. -/
def Leads (s : Session) : EStateM.Result Failure Session (Option (Match τ)) → Prop
  | .ok _ t => s.Onward t
  | .error _ _ => True

theorem Onward.leads {r : EStateM.Result Failure Session (Option (Match τ))} (h : s.Onward t)
    (hr : t.Leads r) : s.Leads r := by
  cases r with
  | ok found? u => exact h.trans hr
  | error f u => trivial

/-- A read leads onward. -/
theorem Orderly.onward_hear {a : Arrival} {later : List Arrival} (h : s.Orderly)
    (harrivals : s.peer.arrivals = a :: later) (bytes : List UInt8) :
    s.Onward (s.hear a bytes later).2 := by
  rw [Orderly, harrivals] at h
  have hread : s.Onward ((s.reach a later).record (.read bytes.length)) := by
    refine ⟨rfl, rfl, Nat.le_max_left _ _, ⟨0, ?_⟩, ?_⟩
    · change s.peer.room? = _
      cases s.peer.room? <;> rfl
    · change InOrder (max s.peer.clock a.time) s.peer.closesAt later
      rw [Nat.max_eq_right h.1]
      exact h.2
  exact hread.write _ rfl (peer_takeUp _ _)

/-- **A wait leads onward.** -/
theorem Waits.leads {r : EStateM.Result Failure Session (Option (Match τ))}
    (h : Waits prompts deadline arrivals s r) (harrivals : s.peer.arrivals = arrivals)
    (hs : s.Orderly) : s.Leads r := by
  induction h with
  | found hsearch => exact hs.onward.of_peer rfl rfl
  | @silence arrivals s hsearch hnext =>
    rw [← harrivals] at hnext
    exact { hs.onward with
      clock_le := Nat.le_max_left _ _
      orderly := InOrder.of_waiting hs (Nat.le_of_lt hnext) }
  | ended | fault | unwritten => trivial
  | @bytes a later s bytes result hsearch ht ha hwrite hrest ih =>
    have hread := hs.onward_hear harrivals bytes
    exact hread.leads (ih (arrivals_hear ..) hread.orderly)

/-- **What is left when nothing was heard.** All the time is up, and nothing more can be heard. -/
theorem Waits.of_silence (h : Waits prompts deadline arrivals s (.ok none t))
    (harrivals : s.peer.arrivals = arrivals) (hclock : s.peer.clock ≤ deadline) :
    t.peer.clock = deadline ∧ t.backlog.search prompts = none ∧
      deadline < nextTime t.peer.closesAt t.peer.arrivals := by
  generalize hr : EStateM.Result.ok none t = r at h
  induction h with
  | silence hsearch hnext =>
    obtain ⟨-, rfl⟩ := EStateM.Result.ok.inj hr
    exact ⟨Nat.max_eq_right hclock, hsearch, harrivals ▸ hnext⟩
  | bytes hsearch ht ha hwrite hrest ih =>
    exact ih (arrivals_hear ..) (by rw [clock_hear]; exact Nat.max_le.mpr ⟨hclock, ht⟩) hr
  | _ => cases hr

/-- A wait has no time, and there is nothing to hear at once. -/
structure Deaf (prompts : Prompts τ) (s : Session) : Prop where
  timeout : s.settings.timeout = 0
  search : s.backlog.search prompts = none
  lt_nextTime : s.peer.clock < nextTime s.peer.closesAt s.peer.arrivals

theorem Deaf.of_unlogged (h : s.Deaf prompts) (hst : t.unlogged = s.unlogged) :
    t.Deaf prompts := by
  obtain ⟨peer, backlog, telnet, settings, past⟩ := t
  cases hst
  exact ⟨h.timeout, h.search, h.lt_nextTime⟩

variable [ToString τ]

theorem leads_listen (prompts : Prompts τ) (hs : s.Orderly) : s.Leads (listen prompts s) := by
  have hunlogged : s.Onward s.unlogged := hs.onward.of_peer rfl rfl
  have hleads : s.Leads (unloggedResult (listenFor prompts s.settings.timeout s)) :=
    hunlogged.leads ((waits_listenFor prompts s.settings.timeout s).leads rfl hs)
  rw [listen_eq]
  cases hr : listenFor prompts s.settings.timeout s with
  | error e t => trivial
  | ok found? t =>
    rw [hr] at hleads
    exact Onward.of_peer hleads rfl rfl

/-- What is left when nothing was heard: the time of a wait is over, and another wait can hear
something only if it takes time. -/
theorem silent_listen (h : listen prompts s = .ok none t) :
    t.peer.clock = s.peer.clock + s.settings.timeout ∧ t.backlog.search prompts = none ∧
      t.peer.clock < nextTime t.peer.closesAt t.peer.arrivals := by
  have hwaits := waits_listenFor prompts s.settings.timeout s
  rw [listen_eq] at h
  rw [h] at hwaits
  obtain ⟨hclock, hsearch, hnext⟩ := hwaits.of_silence rfl (Nat.le_add_right _ _)
  exact ⟨hclock, hsearch, hclock ▸ hnext⟩

/-- **A wait in which nothing was heard has used up time, or the next one hears nothing, either.** -/
theorem ahead_lt_or_deaf (hs : s.Orderly) (h : listen prompts s = .ok none t) :
    t.ahead < s.ahead ∨ t.Deaf prompts := by
  have honward : s.Onward t := (h ▸ leads_listen prompts hs : s.Leads (.ok none t))
  obtain ⟨hclock, hsearch, hnext⟩ := silent_listen h
  rcases Nat.eq_zero_or_pos s.settings.timeout with hzero | hpos
  · exact .inr ⟨honward.settings ▸ hzero, hsearch, hnext⟩
  · exact .inl (honward.ahead_lt (by omega))

/-- **A wait without time hears nothing and changes nothing.** -/
theorem Deaf.listen (h : s.Deaf prompts) :
    ∃ t, listen prompts s = .ok none t ∧ t.unlogged = s.unlogged := by
  have hwait : s.unlogged.waitUntil s.peer.clock = s.unlogged := by
    simp only [waitUntil, Peer.waitUntil, unlogged, Nat.max_self]
  have hsilence : Waits prompts s.peer.clock s.peer.arrivals s.unlogged
      (.ok none (s.unlogged.waitUntil s.peer.clock)) := .silence h.search h.lt_nextTime
  rw [hwait] at hsilence
  rw [listen_eq, h.timeout]
  exact eq_ok_of_unloggedResult ((waits_listenFor prompts 0 s).unique hsilence)

end Waiting

/-! ### Sending -/

/-- A line that was sent was taken, and nothing but that and a message in the log is new. -/
theorem line_ok {message line : String}
    (h : (do note .debug message; writeLine line : SessionM Unit) s = .ok () t) :
    ∃ bytes, Text.Utf8.bytes line <+: bytes ∧ s.peer.Fits bytes.length ∧
      t = { s with peer := (s.peer.write bytes).2, past := (.debug, message) :: s.past } := by
  rw [line_eq, write_eq] at h
  split at h
  · rename_i hwrite
    rw [Peer.write_eq] at hwrite
    exact ⟨_, List.prefix_append _ _, of_decide_eq_true hwrite, (EStateM.Result.ok.inj h).2.symm⟩
  · cases h

theorem onward_of_line {message line : String} (hs : s.Orderly)
    (h : (do note .debug message; writeLine line : SessionM Unit) s = .ok () t) : s.Onward t := by
  obtain ⟨bytes, -, -, rfl⟩ := line_ok h
  exact hs.onward.write bytes rfl rfl

/-- A line uses up some room, if there is a limit to it. -/
theorem ahead_lt_of_line {message line : String} {room : Nat}
    (h : (do note .debug message; writeLine line : SessionM Unit) s = .ok () t)
    (hline : Text.Utf8.bytes line ≠ []) (hroom : s.peer.room? = some room) :
    t.ahead < s.ahead := by
  obtain ⟨bytes, hprefix, hfits, rfl⟩ := line_ok h
  have hpos : 0 < bytes.length :=
    Nat.lt_of_lt_of_le (List.length_pos_iff.mpr hline) hprefix.length_le
  have hle : bytes.length ≤ room := hfits room hroom
  simp only [ahead, Peer.write_eq, hroom, Option.map_some, Option.getD_some]
  omega

theorem Deaf.of_line {τ : Type} {prompts : Prompts τ} {message line : String} (hs : s.Deaf prompts)
    (h : (do note .debug message; writeLine line : SessionM Unit) s = .ok () t) :
    t.Deaf prompts := by
  obtain ⟨bytes, -, -, rfl⟩ := line_ok h
  refine ⟨hs.timeout, hs.search, ?_⟩
  rw [Peer.write_eq]
  exact hs.lt_nextTime

/-- A line is taken if there is no limit to the room. -/
theorem exists_line_of_room (hroom : s.peer.room? = none) (message line : String) :
    ∃ t, (do note .debug message; writeLine line : SessionM Unit) s = .ok () t ∧
      t.peer.room? = none := by
  rw [line_eq, write_eq, if_pos (Peer.write_fst_of_room hroom _)]
  refine ⟨_, rfl, ?_⟩
  rw [Peer.write_eq]
  exact congrArg (Option.map _) hroom

/-- **Who hears nothing and then sends something has used up time or room**, or has no limits and
will hear nothing the next time, either. -/
theorem ahead_lt_or_deaf_of_line {τ : Type} [ToString τ] {prompts : Prompts τ}
    {message line : String} {v : Session} (hs : s.Orderly)
    (hlisten : listen prompts s = .ok none t) (hlog : u.unlogged = t.unlogged)
    (h : (do note .debug message; writeLine line : SessionM Unit) u = .ok () v)
    (hline : Text.Utf8.bytes line ≠ []) :
    v.ahead < s.ahead ∨ v.Deaf prompts ∧ v.peer.room? = none := by
  have hpeer : u.unlogged.peer = t.unlogged.peer := by rw [hlog]
  change u.peer = t.peer at hpeer
  have hsettings : u.unlogged.settings = t.unlogged.settings := by rw [hlog]
  have hwait : s.Onward t := (hlisten ▸ leads_listen prompts hs : s.Leads (.ok none t))
  have hlogged : s.Onward u := hwait.of_peer hsettings hpeer
  have hsent : u.Onward v := onward_of_line hlogged.orderly h
  rcases ahead_lt_or_deaf hs hlisten with hless | hdeaf
  · have hahead : u.ahead = t.ahead := by rw [ahead, ahead, hpeer]
    exact .inl (Nat.lt_of_le_of_lt hsent.ahead_le (hahead ▸ hless))
  · cases hroom : u.peer.room? with
    | some room =>
      exact .inl (Nat.lt_of_lt_of_le (ahead_lt_of_line h hline hroom) hlogged.ahead_le)
    | none =>
      obtain ⟨used, hused⟩ := hsent.room
      exact .inr ⟨(hdeaf.of_unlogged hlog).of_line h, by rw [hused, hroom]; rfl⟩

/-! ### Whatever is done -/

/-- What is done leads onward, if nothing that it does leads anywhere else. -/
theorem alike_onward {α : Type} {x : SessionM α} (start : Session)
    (hx : ∀ {s : Session} {a t}, s.Orderly → x s = .ok a t → s.Onward t) :
    Alike (Itself start.Onward) (fun _ => Itself fun _ => True) x x :=
  .of_keeps (fun h hs => h.trans (hx h.orderly hs)) fun _ _ => trivial

/-- **Whatever is done with a session leads onward.** -/
theorem isBisimulation_onward (start : Session) (secret : String) :
    IsBisimulation (fun _ => True) secret secret (Itself start.Onward)
      fun _ => Itself fun _ => True where
  horizon := by
    rintro s _ ⟨rfl, -⟩
    rfl
  note _ _ _ := alike_onward start fun {s _ t} hs h => by
    obtain ⟨-, rfl⟩ := EStateM.Result.ok.inj h
    exact hs.onward.of_peer rfl rfl
  say _ := alike_onward start onward_of_line
  whisper := alike_onward start onward_of_line
  listen prompts := alike_onward start fun {s found? t} hs h =>
    (h ▸ leads_listen prompts hs : s.Leads (.ok found? t))

end Session

end MudDialogue
