import MudDialogue.Proofs.Client.Endless
import MudDialogue.Proofs.Session.Outlook
import MudDialogue.Proofs.World.Lasting

/-!
# Walks and the reads in which the server's text comes

What a wanderer does is told by the text alone. The pattern for a list of exits is one for a whole
line, so a list that is found stays found, and it does not matter when the text behind it comes; and
what was given up for it is the same. So two servers that send the same text in different reads are
walked through in the same way, as long as no read loses a byte of it.

The exception is real: where a read that completes a character loses the end of the line behind it,
a list of exits is not found.

## Main definitions

* `Walk.react` — what a wanderer does about the exits of a room.
* `Wander.Stroll` — how a walk goes through a text.

## Main results

* `Wander.lasting_prompts` — a list of exits that is found stays found.
* `Wander.exists_rounds_of_stroll` — a walk goes as its text says.
* `Wander.run_eq_of_cuts` — where the text is cut makes no difference if nothing is lost.
* `Wander.run_ne_of_cuts` — it does if the end of a line is lost.
-/

namespace MudDialogue

open Pattern ClientM Operation

namespace Wander

/-- **A list of exits that is found stays found.** -/
theorem lasting_prompts : prompts.Lasting := by
  intro text found stop h
  exact ⟨(opensWith_prompts.le_stop h).2, ExitLine.find_append h⟩

/-! ### How a walk goes through a text -/

/-- What a wanderer does about the exits of a room: the line that is sent, and what is remembered
then. -/
def Walk.react (w : Walk) (exits : Exits) : String × Walk :=
  match exits.choose? w.source with
  | (some d, source) => (d.code, { w with source, moves := w.moves + 1 })
  | (none, source) => (look, { w with source, looks := w.looks + 1 })

/-- A walk through a text, with the lines that are sent and what is remembered at the end: the
client has gone far enough, there is no further list of exits, or it reacts to the next one and goes
on behind it. -/
inductive Stroll (limit? : Option Nat) :
    Walk → List UInt8 → List String → Tally → Walk → Prop where
  | farEnough {walk text} (hfar : limit?.any (· ≤ walk.moves)) :
      Stroll limit? walk text [] (walk.tally .farEnough) walk
  | hungUp {walk text} (hfar : ¬ limit?.any (· ≤ walk.moves)) (hfind : prompts.find text = none) :
      Stroll limit? walk text [] (walk.tally .hungUp) walk
  | room {walk text found stop lines tally last} (hfar : ¬ limit?.any (· ≤ walk.moves))
      (hfind : prompts.find text = some (found, stop))
      (hrest :
        Stroll limit? (walk.react (ExitLine.read found)).2 (text.drop stop) lines tally last) :
      Stroll limit? walk text ((walk.react (ExitLine.read found)).1 :: lines) tally last

variable {limit? : Option Nat} {walk last : Walk} {text : List UInt8} {lines : List String}
  {tally : Tally} {c : Client Walk} {s : Session}

/-- Every text can be walked through: each list of exits takes up some of it. -/
theorem exists_stroll (limit? : Option Nat) (walk : Walk) (text : List UInt8) :
    ∃ lines tally last, Stroll limit? walk text lines tally last := by
  induction hn : text.length using Nat.strongRecOn generalizing walk text with
  | ind n ih =>
    by_cases hfar : limit?.any (· ≤ walk.moves)
    · exact ⟨_, _, _, .farEnough hfar⟩
    · cases hfind : prompts.find text with
      | none => exact ⟨_, _, _, .hungUp hfar hfind⟩
      | some first =>
        obtain ⟨hpos, hle⟩ := opensWith_prompts.le_stop hfind
        have hless : (text.drop first.2).length < n := by
          rw [List.length_drop]
          omega
        obtain ⟨lines, tally, last, hrest⟩ :=
          ih _ hless (walk.react (ExitLine.read first.1)).2 _ rfl
        exact ⟨_, _, _, .room hfar hfind hrest⟩

/-! ### One round -/

theorem speaks_lookAgain (hroom : c.session.peer.room? = none) (reason : String) :
    Speaks (lookAgain reason) c () { c.memory with looks := c.memory.looks + 1 } [look] :=
  (speaks_note hroom _ _).bind fun _ h => (speaks_say h.room look).bind fun _ h =>
    (speaks_remembered h.room).bind fun _ h => speaks_remember h.room _

/-- What is done about the exits of a room. -/
theorem speaks_leave (hroom : c.session.peer.room? = none) (exits : Exits) :
    Speaks (leave exits) c () (c.memory.react exits).2 [(c.memory.react exits).1] := by
  rw [Walk.react]
  refine (speaks_remembered hroom).bind fun _ h => ?_
  dsimp only
  rcases exits.choose? c.memory.source with ⟨_ | d, source⟩
  · refine (speaks_remember h.room _).bind fun _ h => ?_
    exact speaks_lookAgain h.room _
  · exact (speaks_remember h.room _).bind fun _ h => (speaks_note h.room _ _).bind fun _ h =>
      (speaks_say h.room d.code).bind fun _ h => speaks_remember h.room _

theorem round_of_far (hfar : limit?.any (· ≤ c.memory.moves)) :
    ∃ t, round limit? c = .ok (some (c.memory.tally .farEnough)) ⟨c.memory, t⟩ ∧
      t.peer = c.session.peer := by
  rw [round_apply, if_pos hfar]
  exact ⟨_, rfl, rfl⟩

theorem round_of_hungUp (hfar : ¬ limit?.any (· ≤ c.memory.moves)) {t : Session}
    (h : Session.listen prompts c.session = .error .closed t) :
    ∃ u, round limit? c = .ok (some (c.memory.tally .hungUp)) ⟨c.memory, u⟩ ∧ u.peer = t.peer := by
  have hadvance : advance c = .error .closed ⟨c.memory, t⟩ := by
    rw [advance, bind_apply, ClientM.listen, talk, h]
  rw [round_apply, if_neg hfar, hadvance]
  exact ⟨_, rfl, rfl⟩

/-- Each line of a walk begins with a letter. -/
theorem head_react (settings : Settings) (walk : Walk) (exits : Exits) :
    ∃ b ∈ (settings.wire (walk.react exits).1).head?, b ≠ Telnet.interpret := by
  have hletter (line : String) (hline : line ∈ Wander.lines) :
      ∃ b ∈ (Text.Utf8.bytes line).head?, b ≠ Telnet.interpret := by
    revert line
    decide
  have hmem : (walk.react exits).1 ∈ Wander.lines := by
    rw [Walk.react]
    rcases exits.choose? walk.source with ⟨_ | d, source⟩
    · exact List.mem_cons_self
    · exact List.mem_cons_of_mem _ (List.mem_map_of_mem d.mem_all)
  obtain ⟨b, hb, hne⟩ := hletter _ hmem
  refine ⟨b, ?_, hne⟩
  rw [Settings.wire, List.head?_append, Option.mem_def.mp hb]
  rfl

/-- **A walk goes as its text says.** -/
theorem exists_rounds_of_stroll (h : Stroll limit? walk text lines tally last)
    {reads : List (List UInt8)} (hs : s.Foresees reads text) :
    ∃ n t, rounds (round limit?) n ⟨walk, s⟩ = .ok (some tally) ⟨last, t⟩ ∧
      t.peer.lines = s.peer.lines ++ lines.map fun line => .write (s.settings.wire line) := by
  induction h generalizing s reads with
  | @farEnough walk text hfar =>
    obtain ⟨t, hround, hpeer⟩ := round_of_far (c := ⟨walk, s⟩) hfar
    refine ⟨1, t, bind_of_ok hround, ?_⟩
    rw [hpeer, List.map_nil, List.append_nil]
  | @hungUp walk text hfar hfind =>
    obtain ⟨t, hlisten, hlines⟩ := hs.listen_ended lasting_prompts hfind
    obtain ⟨u, hround, hpeer⟩ := round_of_hungUp (c := ⟨walk, s⟩) hfar hlisten
    refine ⟨1, u, bind_of_ok hround, ?_⟩
    rw [hpeer, hlines, List.map_nil, List.append_nil]
  | @room walk text found stop lines tally last hfar hfind hrest ih =>
    obtain ⟨t, rest, hlisten, ht, hlines, hsettings⟩ := hs.listen_found lasting_prompts hfind
    obtain ⟨u, hleave, hu⟩ := speaks_leave (c := ⟨walk, t⟩) ht.room (ExitLine.read found)
    have hadvance : advance ⟨walk, s⟩ = .ok () ⟨(walk.react (ExitLine.read found)).2, u⟩ := by
      rw [advance, bind_apply, ClientM.listen, talk, hlisten]
      exact hleave
    obtain ⟨n, v, hrounds, hv⟩ := ih (ht.of_spoke hu)
    refine ⟨n + 1, v, (rounds_succ (round_of_advance hfar hadvance) n).trans hrounds, ?_⟩
    rw [hv, Session.lines_of_spoke hu (head_react _ _ _), hlines, hu.settings, hsettings,
      List.map_cons, List.append_assoc]
    rfl

end Wander

/-! ### Texts that come in reads -/

/-- The text that a server sends piece by piece, as it comes read by read, without telnet
commands. -/
def Peer.textsOf (pieces : List (List UInt8)) : List (List UInt8) :=
  Telnet.texts .data (readsOf pieces)

/-- A server sends a text piece by piece, without a wait, and hangs up. No read parts a control
character or loses a byte, and the session keeps everything that is cleaned of the text. -/
structure Peer.Brings (depth : Nat) (pieces : List (List UInt8)) : Prop where
  control : ¬ Terminal.CutsControl (textsOf pieces)
  heard : Terminal.heard .start (textsOf pieces) = (textsOf pieces).flatten
  fits : (Transducer.run Terminal.clean .start (textsOf pieces)).2.length ≤ depth

namespace Session

variable {settings : Settings} {pieces : List (List UInt8)}

/-- What is cleaned of the text does not depend on the reads. -/
theorem foresees_start (h : Peer.Brings settings.searchDepth pieces) :
    (start (.ofScript (pieces.map .send) none) settings).Foresees (Peer.readsOf pieces)
      (Transducer.run Terminal.step .start (Telnet.part .data pieces.flatten).2.text).2 := by
  have htimeline := Peer.timeline_send 0 pieces
  have hclean : (Transducer.run Terminal.clean .start (Peer.textsOf pieces)).2 =
      (Transducer.run Terminal.step .start (Telnet.part .data pieces.flatten).2.text).2 := by
    have hstart : Terminal.Mode.start.IsProper := trivial
    rw [Terminal.run_clean_eq hstart h.control, h.heard, Peer.textsOf, Telnet.flatten_texts,
      Peer.flatten_readsOf]
    cases (Telnet.part .data pieces.flatten).2.text <;> rfl
  refine ⟨congrArg Prod.fst htimeline, congrArg Prod.snd htimeline, rfl, hclean, ?_⟩
  rw [← hclean]
  exact h.fits

end Session

namespace Wander

/-- **Where the text is cut makes no difference to a walk.** Two servers send the same bytes, cut
into any pieces. If neither cut parts a control character or loses a byte and the session keeps the
whole text, a walk sends the same lines in the same order to both servers, draws the same words, and
has the same result. -/
theorem run_eq_of_cuts (settings : Settings) {pieces pieces' : List (List UInt8)}
    (hbytes : pieces.flatten = pieces'.flatten)
    (hpieces : Peer.Brings settings.searchDepth pieces)
    (hpieces' : Peer.Brings settings.searchDepth pieces') (limit? : Option Nat) (walk : Walk) :
    let s := Session.start (.ofScript (pieces.map .send) none) settings
    let s' := Session.start (.ofScript (pieces'.map .send) none) settings
    ∃ tally d d', run limit? ⟨walk, s⟩ = .ok (some tally) d ∧
      run limit? ⟨walk, s'⟩ = .ok (some tally) d' ∧ d.memory = d'.memory ∧
      d.session.peer.lines = d'.session.peer.lines := by
  intro s s'
  obtain ⟨lines, tally, last, hstroll⟩ := exists_stroll limit? (.start walk.source)
    (Transducer.run Terminal.step .start (Telnet.part .data pieces.flatten).2.text).2
  have hrun {pieces : List (List UInt8)} {reads : List (List UInt8)} {text : List UInt8}
      (hs : (Session.start (.ofScript (pieces.map .send) none) settings).Foresees reads text)
      (hstroll : Stroll limit? (.start walk.source) text lines tally last) :
      ∃ t, run limit? ⟨walk, .start (.ofScript (pieces.map .send) none) settings⟩ =
        .ok (some tally) ⟨last, t⟩ ∧
        t.peer.lines = lines.map fun line => .write (settings.wire line) := by
    obtain ⟨n, t, hrounds, hlines⟩ := exists_rounds_of_stroll hstroll hs
    refine ⟨t, ?_, hlines⟩
    rw [run_of_rounds (Session.sound_start _ _ _) (n := n) fun d h => by
      cases hrounds.symm.trans h]
    exact hrounds
  obtain ⟨t, ht, hlines⟩ := hrun (Session.foresees_start hpieces) hstroll
  obtain ⟨t', ht', hlines'⟩ := hrun (Session.foresees_start hpieces') (hbytes ▸ hstroll)
  exact ⟨tally, _, _, ht, ht', rfl, hlines.trans hlines'.symm⟩

/-- The text of a room is cut in a marker, in a letter, in a control sequence and in a telnet
command. -/
theorem run_eq_of_cuts_in_pieces :
    let pieces := [Text.Utf8.bytes "Exits: [", Text.Utf8.bytes "N]", [0xC3], [0xA9, 0x1B, 0x5B],
      [0x6D, 255], [253, 1, 0x0D], [0x0A]]
    let s := Session.start (.ofScript (pieces.map .send) none) {}
    let s' := Session.start (.ofScript ([pieces.flatten].map .send) none) {}
    Peer.Brings 4096 pieces ∧ Peer.Brings 4096 [pieces.flatten] ∧
      ∃ tally d d', run none ⟨.start (.ofList [7]), s⟩ = .ok (some tally) d ∧
        run none ⟨.start (.ofList [7]), s'⟩ = .ok (some tally) d' ∧ d.memory = d'.memory ∧
        d.session.peer.lines = d'.session.peer.lines := by
  intro pieces s s'
  have hpieces : Peer.Brings 4096 pieces := ⟨by decide, by decide, by decide⟩
  have hwhole : Peer.Brings 4096 [pieces.flatten] := ⟨by decide, by decide, by decide⟩
  exact ⟨hpieces, hwhole, run_eq_of_cuts {} (by decide) hpieces hwhole none _⟩

/-- The end of the line is lost if the reads end after the first bytes of the letters around it:
only the server that sends everything at once is asked to leave the room. -/
theorem run_ne_of_cuts :
    let pieces := [Text.Utf8.bytes "Exits: [N]" ++ [0xC3], [0xA9, 0x0A, 0xC3], [0xA9]]
    let s := Session.start (.ofScript (pieces.map .send) none) {}
    let s' := Session.start (.ofScript ([pieces.flatten].map .send) none) {}
    (¬ Terminal.CutsControl (Peer.textsOf pieces) ∧
      (Transducer.run Terminal.clean .start (Peer.textsOf pieces)).2.length ≤ 4096) ∧
      Peer.Brings 4096 [pieces.flatten] ∧
      ∃ tally d tally' d', run none ⟨.start (.ofList []), s⟩ = .ok (some tally) d ∧
        run none ⟨.start (.ofList []), s'⟩ = .ok (some tally') d' ∧
        tally = ⟨0, 0, .hungUp⟩ ∧ tally' = ⟨1, 0, .hungUp⟩ := by
  intro pieces s s'
  have hwhole : Peer.Brings 4096 [pieces.flatten] := ⟨by decide, by decide, by decide⟩
  have hcut : succeeds (fun tally? _ => tally? = some ⟨0, 0, .hungUp⟩)
      (run none ⟨.start (.ofList []), s⟩) = true := by decide +kernel
  have hrun : succeeds (fun tally? _ => tally? = some ⟨1, 0, .hungUp⟩)
      (run none ⟨.start (.ofList []), s'⟩) = true := by decide +kernel
  obtain ⟨tally?, d, hd, htally⟩ := exists_of_succeeds hcut
  obtain ⟨tally'?, d', hd', htally'⟩ := exists_of_succeeds hrun
  obtain rfl := of_decide_eq_true htally
  obtain rfl := of_decide_eq_true htally'
  exact ⟨⟨by decide, by decide⟩, hwhole, _, d, _, d', hd, hd', rfl, rfl⟩

end Wander

end MudDialogue
