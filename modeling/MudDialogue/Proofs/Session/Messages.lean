import MudDialogue.Proofs.Backlog.Reads
import MudDialogue.Proofs.Backlog.Trimming
import MudDialogue.Proofs.Client.Speaking
import MudDialogue.Proofs.Pattern.Texts
import MudDialogue.Proofs.Session.Script
import MudDialogue.Proofs.Terminal.PlainText

/-!
# Messages that come in pieces

A server that keeps to the dialogue sends one message after the other, each of them with one prompt
in it, and each in as many pieces as it likes. The backlog is searched after every read, so a prompt
must not be recognised too early; once it is due, it is recognised whatever else has come of the
message. What is behind it stays, and the next message comes on top of that.

What a session has in front of it is therefore the part of the last message that no prompt has
consumed, whether it has been read already or not, and then the messages still to come. It does not
matter where a read ends.

## Main definitions

* `Prompts.Announces` — a text brings one prompt, and from where on.
* `Prompts.Brings` — a message brings one prompt, on top of what is left of earlier ones.
* `Session.Hears` — what a session has heard of a text, and what it is about to hear.
* `Session.Stands` — a session in the course of a dialogue.

## Main results

* `Prompts.announces_question`, `Prompts.announces_literal` — which prompt a text brings.
* `Session.Stands.listen` — a wait goes on to the prompt of the next message.
* `Session.stands_start` — a session at the start of a dialogue.
-/

namespace MudDialogue

open Pattern Text Terminal

/-! ### When a prompt is due -/

/-- A text brings one prompt, which is due as soon as everything before the rest of the text has
come: nothing is recognised earlier, and whatever has come of the rest then, that prompt is
recognised and what has come of the rest is left. No more than `depth` bytes are kept at any
time. -/
structure Pattern.Prompts.Announces {τ : Type} (set : Prompts τ) (depth : Nat)
    (before rest : List UInt8) (tag : τ) : Prop where
  early {heard : List UInt8} (hheard : heard <+: before ++ rest)
    (hlt : heard.length < before.length) : set.find (Backlog.newest depth heard) = none
  ready {heard : List UInt8} (hheard : heard <+: before ++ rest)
    (hle : before.length ≤ heard.length) :
    ∃ found stop, set.find (Backlog.newest depth heard) = some (found, stop) ∧ found.tag = tag ∧
      (Backlog.newest depth heard).drop stop = heard.drop before.length

namespace Pattern.Prompts

variable {τ : Type} {anywhere : List (τ × String)} {tag : τ} {literal : String} {depth : Nat}
  {text u v : List UInt8}

/-- What comes of a text before its last byte. -/
theorem prefix_dropLast {heard : List UInt8} (hheard : heard <+: text)
    (hlt : heard.length < text.length) : heard <+: text.dropLast := by
  refine List.prefix_of_prefix_length_le hheard (List.dropLast_prefix text) ?_
  rw [List.length_dropLast]
  omega

/-- **A question is due at the end of the text** if it stands there, no question stands anywhere
before, and nothing else is recognised. -/
theorem announces_question (earlier more : List (τ × String))
    (hanywhere : ∀ p ∈ anywhere, ¬ Utf8.bytes p.2 <:+: text)
    (hquestions : ∀ p ∈ earlier ++ (tag, literal) :: more, ¬ Utf8.bytes p.2 <:+: text.dropLast)
    (hearlier : ∀ p ∈ earlier, ¬ Utf8.bytes p.2 <:+ text) (hend : Utf8.bytes literal <:+ text)
    (hdepth : (Utf8.bytes literal).length ≤ depth) :
    (ofTexts anywhere (earlier ++ (tag, literal) :: more)).Announces depth text [] tag where
  early {heard} hheard hlt := by
    rw [List.append_nil] at hheard
    have hnewest : Backlog.newest depth heard <:+ heard := Backlog.newest_suffix depth heard
    refine find_ofTexts_eq_none (fun p hp h => ?_) fun p hp h => ?_
    · exact hanywhere p hp ((h.trans hnewest.isInfix).trans hheard.isInfix)
    · exact hquestions p hp
        ((h.isInfix.trans hnewest.isInfix).trans (prefix_dropLast hheard hlt).isInfix)
  ready {heard} hheard hle := by
    rw [List.append_nil] at hheard
    obtain rfl : heard = text := hheard.eq_of_length_le hle
    have hnewest : Backlog.newest depth heard <:+ heard := Backlog.newest_suffix depth heard
    obtain ⟨found, hfind, htag⟩ := exists_find_question tag more
      (fun p hp h => hanywhere p hp (h.trans hnewest.isInfix))
      (fun p hp h => hearlier p hp (h.trans hnewest)) (Backlog.suffix_newest_iff.mpr ⟨hend, hdepth⟩)
    refine ⟨found, _, hfind, htag, ?_⟩
    rw [List.drop_length, List.drop_length]

/-- **Any other text is due where it first occurs** if nothing is recognised before, and nothing
that goes before it occurs at all. -/
theorem announces_literal (earlier more atEnd : List (τ × String))
    (hdepth : (u ++ Utf8.bytes literal ++ v).length ≤ depth)
    (hfirst : ∀ p ∈ earlier ++ (tag, literal) :: more ++ atEnd,
      ¬ Utf8.bytes p.2 <:+: (u ++ Utf8.bytes literal).dropLast)
    (hearlier : ∀ p ∈ earlier, ¬ Utf8.bytes p.2 <:+: u ++ Utf8.bytes literal ++ v) :
    (ofTexts (earlier ++ (tag, literal) :: more) atEnd).Announces depth (u ++ Utf8.bytes literal) v
      tag where
  early {heard} hheard hlt := by
    rw [Backlog.newest_of_le (Nat.le_trans hheard.length_le hdepth)]
    have hbefore : heard <+: (u ++ Utf8.bytes literal).dropLast :=
      prefix_dropLast (List.prefix_of_prefix_length_le hheard (List.prefix_append _ v)
        (Nat.le_of_lt hlt)) hlt
    refine find_ofTexts_eq_none (fun p hp h => ?_) fun p hp h => ?_
    · exact hfirst p (List.mem_append_left _ hp) (h.trans hbefore.isInfix)
    · exact hfirst p (List.mem_append_right _ hp) (h.isInfix.trans hbefore.isInfix)
  ready {heard} hheard hle := by
    rw [Backlog.newest_of_le (Nat.le_trans hheard.length_le hdepth)]
    obtain ⟨v', rfl⟩ : u ++ Utf8.bytes literal <+: heard :=
      List.prefix_of_prefix_length_le (List.prefix_append _ v) hheard hle
    obtain ⟨found, hfind, htag⟩ := exists_find_literal tag more atEnd
      (fun p hp h => hearlier p hp (h.trans hheard.isInfix))
      (hfirst (tag, literal) (List.mem_append_left _ (List.mem_append_right _ List.mem_cons_self)))
    exact ⟨found, _, hfind, htag, rfl⟩

/-- A message in pieces is plain text that brings one prompt, on top of what is left of earlier
messages, and leaves the rest. -/
structure Brings (set : Prompts τ) (depth : Nat) (left : List UInt8) (message : List (List UInt8))
    (tag : τ) (rest : List UInt8) : Prop where
  plain : Terminal.IsPlain message.flatten
  announces : ∃ before, left ++ message.flatten = before ++ rest ∧
    set.Announces depth before rest tag

/-- A message whose text is known. -/
theorem Brings.of_text {set : Prompts τ} {left before rest : List UInt8} {words : String}
    {message : List (List UInt8)} (htext : message.flatten = Utf8.bytes words)
    (hplain : Terminal.IsPlain (Utf8.bytes words)) (hset : set.Announces depth before rest tag)
    (hparts : left ++ Utf8.bytes words = before ++ rest) :
    set.Brings depth left message tag rest :=
  ⟨htext ▸ hplain, before, htext ▸ hparts, hset⟩

end Pattern.Prompts

/-! ### What is heard of a message -/

namespace Session

/-- A session has heard some plain text, kept the end of it, and is about to hear more in some
reads; other arrivals follow. The server takes everything. -/
structure Hears (text : List UInt8) (reads : List (List UInt8)) (later : List Arrival)
    (s : Session) : Prop where
  reachable : s.backlog.Reachable
  content : s.backlog.content = Backlog.newest s.backlog.depth text
  mode : s.backlog.mode = .start
  telnet : s.telnet = .data
  arrivals : s.peer.arrivals = Peer.arrivalsAt s.peer.clock reads ++ later
  room : s.peer.room? = none

/-- A session is in front of some plain text, of which it has read a part, and other arrivals
follow. -/
def Awaits (text : List UInt8) (later : List Arrival) (s : Session) : Prop :=
  ∃ heard reads, s.Hears heard reads later ∧ heard ++ reads.flatten = text ∧ IsPlain reads.flatten

/-- What a wait in the course of plain text does not change. -/
structure Quietly (s t : Session) : Prop where
  settings : t.settings = s.settings
  depth : t.backlog.depth = s.backlog.depth
  clock : t.peer.clock = s.peer.clock
  writes : t.peer.writes = s.peer.writes

theorem Quietly.trans {s t u : Session} (h : Quietly s t) (h' : Quietly t u) : Quietly s u :=
  ⟨h'.settings.trans h.settings, h'.depth.trans h.depth, h'.clock.trans h.clock,
    h'.writes.trans h.writes⟩

variable {τ : Type} {set : Prompts τ} {tag : τ} {text read left before rest : List UInt8}
  {deadline : Nat} {reads message : List (List UInt8)} {later : List Arrival} {s t : Session}

/-- A plain read is added to what is heard. -/
theorem Hears.hear (h : s.Hears text (read :: reads) later) (hread : IsPlain read) :
    let rest := Peer.arrivalsAt s.peer.clock reads ++ later
    let t := (s.hear ⟨s.peer.clock, .bytes read⟩ read rest).2
    t.Hears (text ++ read) reads later ∧ s.Quietly t := by
  intro rest t
  have hpart : Telnet.part s.telnet read = (.data, ⟨read, []⟩) := by
    rw [h.telnet, part_of_isPlain hread]
  have hclock : t.peer.clock = s.peer.clock := by
    rw [clock_hear, Nat.max_self]
  have hbacklog : t.backlog = s.backlog.extend read := by
    rw [backlog_hear _ _ _ _ (hear_fst_of_room h.room ..), hpart]
  have hextend : s.backlog.extend read =
      ⟨s.backlog.depth, Backlog.newest s.backlog.depth (text ++ read), .start⟩ := by
    have hclean : clean s.backlog.mode read = (.start, read) := by
      rw [h.mode, clean_of_isPlain hread]
    simp only [Backlog.extend, hclean, h.content, Backlog.newest_append]
  refine ⟨⟨?_, ?_, ?_, ?_, ?_, ?_⟩, rfl, ?_, hclock, ?_⟩
  · rw [hbacklog]
    exact h.reachable.extend read
  · rw [hbacklog, hextend]
  · rw [hbacklog, hextend]
  · rw [telnet_hear, hpart]
  · rw [arrivals_hear, hclock]
  · rw [room_hear, h.room]
    rfl
  · rw [hbacklog, Backlog.depth_extend]
  · rw [writes_hear h.room, hpart]
    exact List.append_nil _

/-- A prompt that is due in what was heard is recognised at once. -/
theorem Hears.exists_found (h : s.Hears text reads later)
    (hset : set.Announces s.backlog.depth before rest tag)
    (htext : text ++ reads.flatten = before ++ rest) (hplain : IsPlain reads.flatten)
    (hdue : before.length ≤ text.length) :
    ∃ t found, Waits set deadline s.peer.arrivals s (.ok (some found) t) ∧ found.tag = tag ∧
      t.Awaits rest later ∧ s.Quietly t := by
  obtain ⟨found, stop, hfind, htag, hdrop⟩ :=
    hset.ready (htext ▸ List.prefix_append text _) hdue
  have hsearch : s.backlog.search set = some (found, s.backlog.consume stop) := by
    rw [Backlog.search, h.content, hfind]
    rfl
  have hlength : (text.drop before.length).length ≤ s.backlog.depth := by
    rw [← hdrop, List.length_drop]
    exact Nat.le_trans (Nat.sub_le _ _) (Backlog.length_newest_le _ _)
  have hcontent : (s.backlog.consume stop).content =
      Backlog.newest s.backlog.depth (text.drop before.length) := by
    rw [Backlog.consume, h.content, hdrop, Backlog.newest_of_le hlength]
  refine ⟨_, found, .found hsearch, htag, ⟨text.drop before.length, reads, ?_, ?_, hplain⟩,
    ⟨rfl, rfl, rfl, rfl⟩⟩
  · exact ⟨h.reachable.search hsearch, hcontent, h.mode, h.telnet, h.arrivals, h.room⟩
  · rw [← List.drop_append_of_le_length hdue, htext, List.drop_left]

/-- **A wait goes on to the prompt that is due**, and leaves what is behind it, wherever the reads
end. -/
theorem Awaits.exists_found (h : s.Awaits (before ++ rest) later)
    (hset : set.Announces s.backlog.depth before rest tag) (hdeadline : s.peer.clock ≤ deadline) :
    ∃ t found, Waits set deadline s.peer.arrivals s (.ok (some found) t) ∧ found.tag = tag ∧
      t.Awaits rest later ∧ s.Quietly t := by
  obtain ⟨heard, reads, h, htext, hplain⟩ := h
  induction reads generalizing heard s with
  | nil =>
    refine h.exists_found hset htext hplain ?_
    rw [← List.append_nil heard]
    exact htext ▸ (List.prefix_append before rest).length_le
  | cons read reads ih =>
    by_cases hdue : before.length ≤ heard.length
    · exact h.exists_found hset htext hplain hdue
    · rw [List.flatten_cons] at htext hplain
      obtain ⟨hread, hreads⟩ := isPlain_append.mp hplain
      obtain ⟨hnext, hquiet⟩ := h.hear hread
      obtain ⟨t, found, hwaits, htag, ht, htquiet⟩ := ih (hquiet.depth.symm ▸ hset)
        (hquiet.clock.symm ▸ hdeadline) _ hnext (by rw [List.append_assoc, htext]) hreads
      refine ⟨t, found, ?_, htag, ht, hquiet.trans htquiet⟩
      have hsearch : s.backlog.search set = none := by
        rw [Backlog.search, h.content,
          hset.early (htext ▸ List.prefix_append heard _) (Nat.lt_of_not_le hdue)]
        rfl
      rw [h.arrivals, Peer.arrivalsAt_cons, List.cons_append]
      rw [hnext.arrivals, hquiet.clock] at hwaits
      exact .bytes hsearch hdeadline rfl (hear_fst_of_room h.room ..) hwaits

theorem Awaits.of_unlogged (h : s.Awaits text later) (hst : t.unlogged = s.unlogged) :
    t.Awaits text later := by
  obtain ⟨peer, backlog, telnet, settings, past⟩ := t
  cases hst
  obtain ⟨heard, reads, hears, hrest⟩ := h
  exact ⟨heard, reads, ⟨hears.reachable, hears.content, hears.mode, hears.telnet, hears.arrivals,
    hears.room⟩, hrest⟩

/-- The next message comes on top of what is left. -/
theorem Awaits.add (hplain : IsPlain message.flatten)
    (h : s.Awaits left (Peer.arrivalsAt s.peer.clock (Peer.readsOf message) ++ later)) :
    s.Awaits (left ++ message.flatten) later := by
  obtain ⟨heard, reads, h, rfl, hreads⟩ := h
  refine ⟨heard, reads ++ Peer.readsOf message,
    ⟨h.reachable, h.content, h.mode, h.telnet, ?_, h.room⟩, ?_, ?_⟩
  · rw [h.arrivals, Peer.arrivalsAt_append, List.append_assoc]
  · rw [List.flatten_append, Peer.flatten_readsOf, List.append_assoc]
  · rw [List.flatten_append, Peer.flatten_readsOf]
    exact isPlain_append.mpr ⟨hreads, hplain⟩

/-! ### In the course of a dialogue -/

/-- A session in the course of a dialogue: some lines were sent so far, some text of the messages
that came before is left, and then come further messages, all of them without a wait, before what
comes later. -/
structure Stands (settings : Settings) (said : List String) (left : List UInt8)
    (messages : List (List (List UInt8))) (later : List Arrival) (s : Session) : Prop where
  settings_eq : s.settings = settings
  depth : s.backlog.depth = settings.searchDepth
  writes : s.peer.writes = Event.saying settings said
  awaits : s.Awaits left (Peer.arrivalsAt s.peer.clock (Peer.readsOf messages.flatten) ++ later)

variable {settings : Settings} {said lines : List String} {messages : List (List (List UInt8))}

theorem Stands.reachable (h : s.Stands settings said left messages later) : s.backlog.Reachable :=
  let ⟨_, _, hears, _⟩ := h.awaits
  hears.reachable

theorem Stands.room (h : s.Stands settings said left messages later) : s.peer.room? = none :=
  let ⟨_, _, hears, _⟩ := h.awaits
  hears.room

/-- When nothing is left of the messages, the backlog is empty. -/
theorem Stands.content (h : s.Stands settings said [] messages later) : s.backlog.content = [] := by
  obtain ⟨heard, reads, hears, hnil, -⟩ := h.awaits
  rw [hears.content, (List.append_eq_nil_iff.mp hnil).1]
  exact List.drop_nil

/-- Lines are sent between two messages. -/
theorem Stands.of_spoke (h : s.Stands settings said left messages later) (hst : s.Spoke lines t) :
    t.Stands settings (said ++ lines) left messages later := by
  obtain ⟨heard, reads, hears, hleft, hplain⟩ := h.awaits
  refine ⟨hst.settings.trans h.settings_eq, by rw [hst.backlog, h.depth], ?_,
    heard, reads, ⟨?_, ?_, ?_, ?_, ?_, hst.room⟩, hleft, hplain⟩
  · rw [hst.writes, h.writes, h.settings_eq, Event.saying_append]
  · rw [hst.backlog]
    exact hears.reachable
  · rw [hst.backlog, hears.content]
  · rw [hst.backlog, hears.mode]
  · rw [hst.telnet, hears.telnet]
  · rw [hst.arrivals, hst.clock, hears.arrivals]

/-- **A wait goes on to the prompt of the next message.** -/
theorem Stands.listen [ToString τ] (h : s.Stands settings said left (message :: messages) later)
    (hmessage : set.Brings settings.searchDepth left message tag rest) :
    ∃ found t, listen set s = .ok (some found) t ∧ found.tag = tag ∧
      t.Stands settings said rest messages later := by
  obtain ⟨hsettings, hdepth, hwrites, hawaits⟩ := h
  obtain ⟨hplain, before, hparts, hset⟩ := hmessage
  rw [List.flatten_cons, Peer.readsOf, List.flatMap_append, Peer.arrivalsAt_append,
    List.append_assoc] at hawaits
  have hadded := hawaits.add hplain
  rw [hparts] at hadded
  obtain ⟨u, found, hwaits, htag, hu, hquiet⟩ :=
    (hadded.of_unlogged (t := s.unlogged) rfl).exists_found (hdepth ▸ hset)
      (Nat.le_add_right s.peer.clock s.settings.timeout)
  obtain ⟨t, hlisten, rfl⟩ :=
    eq_ok_of_unloggedResult ((waits_listenFor set s.settings.timeout s).unique hwaits)
  have hclock : t.peer.clock = s.peer.clock := hquiet.clock
  refine ⟨found, t, ?_, htag, hquiet.settings.trans hsettings, hquiet.depth.trans hdepth,
    hquiet.writes.trans hwrites, ?_⟩
  · rw [listen_eq, hlisten]
  · rw [hclock]
    exact hu.of_unlogged rfl

/-- **A session at the start of a dialogue.** -/
theorem stands_start (settings : Settings) (messages : List (List (List UInt8)))
    (rest : List ServerAct) :
    (start (.ofScript (messages.flatten.map .send ++ rest) none) settings).Stands settings [] []
      messages (Peer.timeline 0 rest).1 := by
  have htimeline := Peer.timeline_append 0 (messages.flatten.map .send) rest
  rw [Peer.timeline_send] at htimeline
  refine ⟨rfl, rfl, rfl, [], [], ⟨.empty _, List.drop_nil.symm, rfl, rfl, ?_, rfl⟩, rfl,
    fun _ h => nomatch h⟩
  exact congrArg Prod.fst htimeline

end Session

end MudDialogue
