import MudDialogue.Proofs.Backlog.Reads
import MudDialogue.Proofs.Client.Speaking
import MudDialogue.Proofs.Pattern.FoundWords

/-!
# What a session is going to hear

When everything that the server sends is there to be read, and the stream ends behind it, a session
can see all the text that it is going to have, if it keeps all of it: what is in the backlog and
what the reads will add. A wait for prompts that text from later does not change comes to what the
whole of this text says: the first prompt in it, or the end of the stream. So it does not matter how
much of the text each read brings.

## Main definitions

* `Telnet.texts` — what several reads bring for the application, read by read.
* `Peer.lines` — what was written but for telnet commands.
* `Prompts.Lasting` — what is found stays found when more text comes.
* `Session.Foresees` — a session is going to have some text, and then the stream ends.

## Main results

* `Session.Foresees.hear` — a read does not change the text that a session is going to have.
* `Session.Foresees.listen_found`, `Session.Foresees.listen_ended` — what a wait comes to.
-/

namespace MudDialogue

open Pattern Transducer

namespace Telnet

/-- The text of several reads, read by read. -/
def texts (mode : Mode) : List (List UInt8) → List (List UInt8)
  | [] => []
  | read :: reads => (part mode read).2.text :: texts (part mode read).1 reads

/-- The reads bring the text of the whole stream. -/
theorem flatten_texts (mode : Mode) (reads : List (List UInt8)) :
    (texts mode reads).flatten = (part mode reads.flatten).2.text := by
  induction reads generalizing mode with
  | nil => rfl
  | cons read reads ih =>
    rw [texts, List.flatten_cons, ih, List.flatten_cons, part_append]
    rfl

theorem head_flatMap_wire (es : List Emission) :
    ∀ b ∈ (es.flatMap Emission.wire).head?, b = interpret := by
  induction es with
  | nil => exact fun _ hb => absurd hb (Option.not_mem_none _)
  | cons e es ih =>
    cases e with
    | text b => exact ih
    | refusal verb option => exact fun _ hb => (Option.some.inj hb).symm

/-- Refusals begin with the byte that starts a command. -/
theorem head_refusals (mode : Mode) (bytes : List UInt8) :
    ∀ b ∈ (part mode bytes).2.refusals.head?, b = interpret :=
  head_flatMap_wire _

end Telnet

/-- What is written is no telnet command. -/
def Event.isLine (e : Event) : Bool := e.taken.head? != some Telnet.interpret

/-- What was written but for telnet commands. -/
def Peer.lines (p : Peer) : List Event := p.writes.filter Event.isLine

/-- What is found of a set stays found when more text comes. -/
def Pattern.Prompts.Lasting {τ : Type} (set : Prompts τ) : Prop :=
  ∀ {text : List UInt8} {found : Match τ} {stop : Nat}, set.find text = some (found, stop) →
    stop ≤ text.length ∧ ∀ more, set.find (text ++ more) = some (found, stop)

namespace Session

/-- A session is going to have a text: so much of it is in the backlog, and the rest comes with
some reads that can all be made now, before the stream ends. The server takes everything, and the
backlog has room for the text. -/
structure Foresees (reads : List (List UInt8)) (text : List UInt8) (s : Session) : Prop where
  arrivals : s.peer.arrivals = Peer.arrivalsAt s.peer.clock reads
  closesAt : s.peer.closesAt = s.peer.clock
  room : s.peer.room? = none
  text_eq : s.backlog.content ++
    (run Terminal.clean s.backlog.mode (Telnet.texts s.telnet reads)).2 = text
  fits : text.length ≤ s.backlog.depth

variable {reads : List (List UInt8)} {read text : List UInt8} {s t : Session}

theorem Foresees.of_unlogged (h : s.Foresees reads text) (hst : t.unlogged = s.unlogged) :
    t.Foresees reads text := by
  obtain ⟨peer, backlog, telnet, settings, past⟩ := t
  cases hst
  exact ⟨h.arrivals, h.closesAt, h.room, h.text_eq, h.fits⟩

/-- Sending lines does not change what is going to be heard. -/
theorem Foresees.of_spoke {lines : List String} (h : s.Foresees reads text)
    (hst : s.Spoke lines t) : t.Foresees reads text where
  arrivals := by rw [hst.arrivals, hst.clock, h.arrivals]
  closesAt := by rw [hst.closesAt, hst.clock, h.closesAt]
  room := hst.room
  text_eq := by rw [hst.backlog, hst.telnet, h.text_eq]
  fits := by rw [hst.backlog]; exact h.fits

/-- The session after the first of the reads. -/
abbrev next (s : Session) (read : List UInt8) (reads : List (List UInt8)) : Session :=
  (s.hear ⟨s.peer.clock, .bytes read⟩ read (Peer.arrivalsAt s.peer.clock reads)).2

/-- **A read does not change the text that a session is going to have.** -/
theorem Foresees.hear (h : s.Foresees (read :: reads) text) :
    (s.next read reads).Foresees reads text := by
  have hclock : (s.next read reads).peer.clock = s.peer.clock := by
    rw [next, clock_hear, Nat.max_self]
  have hbacklog : (s.next read reads).backlog =
      s.backlog.extend (Telnet.part s.telnet read).2.text :=
    backlog_hear _ _ _ _ (hear_fst_of_room h.room ..)
  -- the first text of the reads goes to the backlog, and nothing has to be dropped for it
  obtain ⟨cleaned, hcleaned⟩ : ∃ cleaned, Terminal.clean s.backlog.mode
      (Telnet.part s.telnet read).2.text = cleaned := ⟨_, rfl⟩
  have htext := h.text_eq
  rw [Telnet.texts, run_cons, hcleaned, ← List.append_assoc] at htext
  have hcontent : (s.next read reads).backlog.content = s.backlog.content ++ cleaned.2 := by
    have hle : (s.backlog.content ++ cleaned.2).length ≤ s.backlog.depth := by
      refine Nat.le_trans (List.IsPrefix.length_le ?_) h.fits
      exact htext ▸ List.prefix_append _ _
    rw [hbacklog, Backlog.extend, hcleaned]
    exact Backlog.newest_of_le hle
  constructor
  · rw [hclock]
    exact arrivals_hear ..
  · rw [hclock, closesAt_hear, h.closesAt]
  · rw [room_hear, h.room]
    rfl
  · rw [hcontent, hbacklog, Backlog.extend, hcleaned]
    exact htext
  · rw [hbacklog]
    exact h.fits

/-- No line is sent by a read. -/
theorem lines_hear (hroom : s.peer.room? = none) (a : Arrival) (bytes : List UInt8)
    (later : List Arrival) : (s.hear a bytes later).2.peer.lines = s.peer.lines := by
  have hhead := Telnet.head_refusals s.telnet bytes
  rw [Peer.lines, writes_hear hroom, List.filter_append]
  cases hrefusals : (Telnet.part s.telnet bytes).2.refusals with
  | nil => exact List.append_nil _
  | cons b refusals =>
    obtain rfl := hhead b (by rw [hrefusals]; rfl)
    exact List.append_nil _

/-- A text that is not empty and begins with no telnet command is one of the lines. -/
theorem lines_of_spoke {line : String} (h : s.Spoke [line] t)
    (hline : ∃ b ∈ (s.settings.wire line).head?, b ≠ Telnet.interpret) :
    t.peer.lines = s.peer.lines ++ [.write (s.settings.wire line)] := by
  obtain ⟨b, hb, hne⟩ := hline
  have hwire : s.settings.wire line ≠ [] := List.ne_nil_of_mem (List.mem_of_mem_head? hb)
  have hsaying : Event.saying s.settings [line] = [.write (s.settings.wire line)] := by
    have hwriting : Event.writing (s.settings.wire line) = [.write (s.settings.wire line)] :=
      if_neg (mt List.isEmpty_iff.mp hwire)
    exact (List.append_nil _).trans hwriting
  have hkept : (Event.write (s.settings.wire line)).isLine = true := by
    rw [Event.isLine, Event.taken, Option.mem_def.mp hb]
    exact bne_iff_ne.mpr fun h => hne (Option.some.inj h)
  rw [Peer.lines, h.writes, hsaying, List.filter_append, List.filter_cons_of_pos hkept]
  rfl

/-! ### Waiting -/

variable {τ : Type} {set : Prompts τ} {found : Match τ} {stop deadline : Nat}

/-- What is found in the backlog is found in the whole text. -/
theorem Foresees.find_of_content (h : s.Foresees reads text) (hset : set.Lasting)
    (hfind : set.find s.backlog.content = some (found, stop)) :
    set.find text = some (found, stop) ∧ stop ≤ s.backlog.content.length := by
  obtain ⟨hstop, hmore⟩ := hset hfind
  exact ⟨h.text_eq ▸ hmore _, hstop⟩

/-- A wait finds what there is in the whole text. -/
theorem Foresees.exists_found (h : s.Foresees reads text) (hset : set.Lasting)
    (hfind : set.find text = some (found, stop)) (hdeadline : s.peer.clock ≤ deadline) :
    ∃ t rest, Waits set deadline s.peer.arrivals s (.ok (some found) t) ∧
      t.Foresees rest (text.drop stop) ∧ t.peer.lines = s.peer.lines ∧ t.settings = s.settings := by
  induction reads generalizing s with
  | nil =>
    have hcontent : s.backlog.content = text := (List.append_nil _).symm.trans h.text_eq
    have hsearch : s.backlog.search set = some (found, s.backlog.consume stop) := by
      rw [Backlog.search, hcontent, hfind]
      rfl
    refine ⟨_, [], .found hsearch, ⟨h.arrivals, h.closesAt, h.room, ?_, ?_⟩, rfl, rfl⟩
    · rw [← hcontent]
      exact List.append_nil _
    · exact Nat.le_trans (by rw [List.length_drop]; exact Nat.sub_le _ _) h.fits
  | cons read reads ih =>
    cases hcontent : set.find s.backlog.content with
    | some first =>
      obtain ⟨hwhole, hstop⟩ := h.find_of_content hset hcontent
      obtain ⟨rfl, rfl⟩ := Prod.mk.inj (Option.some.inj (hwhole.symm.trans hfind))
      have hsearch : s.backlog.search set = some (first.1, s.backlog.consume first.2) := by
        rw [Backlog.search, hcontent]
        rfl
      refine ⟨_, read :: reads, .found hsearch, ⟨h.arrivals, h.closesAt, h.room, ?_, ?_⟩, rfl, rfl⟩
      · rw [← h.text_eq, List.drop_append_of_le_length hstop]
        rfl
      · exact Nat.le_trans (by rw [List.length_drop]; exact Nat.sub_le _ _) h.fits
    | none =>
      have hnext := h.hear
      obtain ⟨t, rest, hwaits, ht, hlines, hsettings⟩ := ih hnext (by
        rw [next, clock_hear, Nat.max_self]
        exact hdeadline)
      refine ⟨t, rest, ?_, ht, hlines.trans (lines_hear h.room ..), hsettings⟩
      rw [h.arrivals, Peer.arrivalsAt_cons]
      rw [hnext.arrivals, next, clock_hear, Nat.max_self] at hwaits
      refine .bytes ?_ hdeadline rfl (hear_fst_of_room h.room ..) hwaits
      rw [Backlog.search, hcontent]
      rfl

/-- A wait finds the end of the stream if there is nothing in the whole text. -/
theorem Foresees.exists_ended (h : s.Foresees reads text) (hset : set.Lasting)
    (hfind : set.find text = none) (hdeadline : s.peer.clock ≤ deadline) :
    ∃ t, Waits set deadline s.peer.arrivals s (.error .closed t) ∧
      t.peer.lines = s.peer.lines := by
  have hnone {s : Session} {reads : List (List UInt8)} (h : s.Foresees reads text) :
      s.backlog.search set = none := by
    cases hcontent : set.find s.backlog.content with
    | some first => cases (h.find_of_content hset hcontent).1.symm.trans hfind
    | none =>
      rw [Backlog.search, hcontent]
      rfl
  induction reads generalizing s with
  | nil =>
    refine ⟨(s.waitUntil s.peer.closesAt).record .ended, ?_, ?_⟩
    · rw [h.arrivals]
      exact .ended (hnone h) (h.closesAt ▸ hdeadline)
    · rw [Peer.lines, Peer.writes, record, Peer.happened_record, List.filter_append,
        List.filter_cons_of_neg Bool.false_ne_true, List.filter_nil, List.append_nil]
      rfl
  | cons read reads ih =>
    have hnext := h.hear
    obtain ⟨t, hwaits, hlines⟩ := ih hnext (by
      rw [next, clock_hear, Nat.max_self]
      exact hdeadline)
    refine ⟨t, ?_, hlines.trans (lines_hear h.room ..)⟩
    rw [h.arrivals, Peer.arrivalsAt_cons]
    rw [hnext.arrivals, next, clock_hear, Nat.max_self] at hwaits
    exact .bytes (hnone h) hdeadline rfl (hear_fst_of_room h.room ..) hwaits

variable [ToString τ]

/-- **What a wait comes to when there is a prompt in the text.** -/
theorem Foresees.listen_found (h : s.Foresees reads text) (hset : set.Lasting)
    (hfind : set.find text = some (found, stop)) :
    ∃ t rest, listen set s = .ok (some found) t ∧ t.Foresees rest (text.drop stop) ∧
      t.peer.lines = s.peer.lines ∧ t.settings = s.settings := by
  obtain ⟨u, rest, hwaits, hu, hlines, hsettings⟩ :=
    (h.of_unlogged (t := s.unlogged) rfl).exists_found hset hfind
      (Nat.le_add_right s.peer.clock s.settings.timeout)
  rw [listen_eq]
  obtain ⟨t, ht, htu⟩ :=
    eq_ok_of_unloggedResult ((waits_listenFor set s.settings.timeout s).unique hwaits)
  cases htu
  exact ⟨t, rest, ht, hu.of_unlogged rfl, hlines, hsettings⟩

/-- **What a wait comes to when there is none.** -/
theorem Foresees.listen_ended (h : s.Foresees reads text) (hset : set.Lasting)
    (hfind : set.find text = none) :
    ∃ t, listen set s = .error .closed t ∧ t.peer.lines = s.peer.lines := by
  obtain ⟨u, hwaits, hlines⟩ := (h.of_unlogged (t := s.unlogged) rfl).exists_ended hset hfind
    (Nat.le_add_right s.peer.clock s.settings.timeout)
  rw [listen_eq]
  obtain ⟨t, ht, htu⟩ :=
    eq_error_of_unloggedResult ((waits_listenFor set s.settings.timeout s).unique hwaits)
  cases htu
  exact ⟨t, ht, hlines⟩

end Session

end MudDialogue
