import MudDialogue.Proofs.Session.Intake
import MudDialogue.Proofs.Session.Outlook

/-!
# What a wait keeps of its reads

A wait takes up one read after the other and then comes to its end: a prompt is recognised, the time
is up, the stream ends, a read fails, or the server does not take the refusals of one last read.
Every read that is taken up adds its text to the backlog before the wait goes on. The last read of a
wait that cannot write its refusals is the one whose text is lost: it was received, its telnet
commands were taken out of it, but it does not come to the backlog, so no later wait can find
anything in it.

## Main definitions

* `Session.TakesUp` — between two sessions some reads were made and taken up.
* `Session.ComesTo` — what a wait comes to when its reads are made.
* `Session.holding` — what the backlog holds when it has taken up some reads.

## Main results

* `Session.Waits.exists_takesUp` — a wait takes up its reads and comes to its end.
* `Session.content_of_listenFor_error` — what is kept when a wait fails.
* `Session.content_ne_holding_of_unwritten` — a read that is lost.
-/

namespace MudDialogue

open Pattern Operation

theorem Telnet.texts_append (mode : Mode) (reads more : List (List UInt8)) :
    texts mode (reads ++ more) = texts mode reads ++ texts (partReads mode reads).1 more := by
  induction reads generalizing mode with
  | nil => rfl
  | cons bytes reads ih =>
    have hread : partRead mode bytes = part mode bytes := partRead_eq mode bytes
    simp only [List.cons_append, texts, partReads, hread, ih]

theorem Telnet.partReads_singleton (mode : Mode) (bytes : List UInt8) :
    partReads mode [bytes] = part mode bytes := by
  rw [partReads_eq, List.flatten_singleton]

theorem Event.answering_append (mode : Telnet.Mode) (reads more : List (List UInt8)) :
    answering mode (reads ++ more) =
      answering mode reads ++ answering (Telnet.partReads mode reads).1 more := by
  induction reads generalizing mode with
  | nil => rfl
  | cons bytes reads ih =>
    simp only [List.cons_append, answering, ih, List.append_assoc]
    rfl

namespace Session

/-- What the backlog holds when it has taken up some reads: the newest bytes of what it held before
and of the cleaned text of each read. -/
def holding (s : Session) (reads : List (List UInt8)) : List UInt8 :=
  Backlog.newest s.backlog.depth (s.backlog.content ++
    (Transducer.run Terminal.clean s.backlog.mode (Telnet.texts s.telnet reads)).2)

/-- From one session to a later one some reads were made, one after the other. The server has taken
the refusals of each of them, and the backlog the text. -/
structure TakesUp (s : Session) (reads : List (List UInt8)) (t : Session) : Prop where
  arrivals : ∃ arrived, arrived.filterMap (·.delivery.bytes?) = reads ∧
    s.peer.arrivals = arrived ++ t.peer.arrivals
  happened : t.peer.happened = s.peer.happened ++ Event.answering s.telnet reads
  telnet : t.telnet = (Telnet.partReads s.telnet reads).1
  backlog : t.backlog = (Telnet.texts s.telnet reads).foldl Backlog.extend s.backlog
  fits : s.peer.Fits (Telnet.partReads s.telnet reads).2.refusals.length
  room : t.peer.room? = s.peer.room?.map (· - (Telnet.partReads s.telnet reads).2.refusals.length)
  settings : t.settings = s.settings

/-- What a wait comes to when its reads are made. -/
inductive ComesTo {τ : Type} (prompts : Prompts τ) :
    Session → EStateM.Result Failure Session (Option (Match τ)) → Prop where
  | found {s found backlog} (hsearch : s.backlog.search prompts = some (found, backlog)) :
      ComesTo prompts s (.ok (some found) { s with backlog })
  | silence {s} (time : Nat) (hsearch : s.backlog.search prompts = none) :
      ComesTo prompts s (.ok none (s.waitUntil time))
  | ended {s} (time : Nat) (hsearch : s.backlog.search prompts = none)
      (harrivals : s.peer.arrivals = []) :
      ComesTo prompts s (.error .closed ((s.waitUntil time).record .ended))
  | fault {s a later reason} (hsearch : s.backlog.search prompts = none)
      (harrivals : s.peer.arrivals = a :: later) (ha : a.delivery = .fault reason) :
      ComesTo prompts s (.error (.stream reason) ((s.reach a later).record .readFailed))
  | unwritten {s a bytes later} (hsearch : s.backlog.search prompts = none)
      (harrivals : s.peer.arrivals = a :: later) (ha : a.delivery = .bytes bytes)
      (hwrite : (s.hear a bytes later).1 = false) :
      ComesTo prompts s (.error peerGone (s.hear a bytes later).2)

/-- How a wait can fail when its reads are made: with which failure, which read is lost, and what is
seen on the stream. -/
inductive Fails (s : Session) : Failure → List (List UInt8) → List Event → Prop where
  | ended : Fails s .closed [] [.ended]
  | fault (reason : String) : Fails s (.stream reason) [] [.readFailed]
  | unwritten {bytes part : List UInt8}
      (hpart : part <+: (Telnet.part s.telnet bytes).2.refusals)
      (hfits : ¬ s.peer.Fits (Telnet.part s.telnet bytes).2.refusals.length) :
      Fails s peerGone [bytes] (.read bytes.length :: (Event.writing part ++ [.writeFailed]))

variable {s t u : Session} {reads more : List (List UInt8)}

theorem TakesUp.refl (s : Session) : s.TakesUp [] s where
  arrivals := ⟨[], rfl, rfl⟩
  happened := (List.append_nil _).symm
  telnet := rfl
  backlog := rfl
  fits := fun _ _ => Nat.zero_le _
  room := by cases s.peer.room? <;> rfl
  settings := rfl

/-- The refusals of further reads come on top of those of the reads before. -/
theorem TakesUp.length_refusals (h : s.TakesUp reads t) (more : List (List UInt8)) :
    (Telnet.partReads s.telnet (reads ++ more)).2.refusals.length =
      (Telnet.partReads s.telnet reads).2.refusals.length +
        (Telnet.partReads t.telnet more).2.refusals.length := by
  rw [Telnet.partReads_append, h.telnet]
  exact List.length_append

theorem TakesUp.trans (h : s.TakesUp reads t) (h' : t.TakesUp more u) :
    s.TakesUp (reads ++ more) u := by
  constructor
  · obtain ⟨first, hfirst, hs⟩ := h.arrivals
    obtain ⟨rest, hrest, ht⟩ := h'.arrivals
    refine ⟨first ++ rest, ?_, by rw [hs, ht, List.append_assoc]⟩
    rw [List.filterMap_append, hfirst, hrest]
  · rw [h'.happened, h.happened, h.telnet, Event.answering_append, List.append_assoc]
  · rw [h'.telnet, h.telnet, Telnet.partReads_append]
  · rw [h'.backlog, h.backlog, h.telnet, Telnet.texts_append, List.foldl_append]
  · rw [h.length_refusals]
    exact h.fits.add h.room h'.fits
  · rw [h'.room, h.room, h.length_refusals, Option.map_map]
    simp only [Function.comp_def, Nat.sub_sub]
  · exact h'.settings.trans h.settings

/-- One read whose refusals the server takes. -/
theorem takesUp_hear {a : Arrival} {bytes : List UInt8} {later : List Arrival}
    (harrivals : s.peer.arrivals = a :: later) (ha : a.delivery = .bytes bytes)
    (hwrite : (s.hear a bytes later).1 = true) :
    s.TakesUp [bytes] (s.hear a bytes later).2 := by
  have hread : Telnet.partRead s.telnet bytes = Telnet.part s.telnet bytes :=
    Telnet.partRead_eq _ _
  have hfits : s.peer.Fits (Telnet.part s.telnet bytes).2.refusals.length := by
    rw [hear_fst] at hwrite
    exact of_decide_eq_true hwrite
  constructor
  · refine ⟨[a], by simp [ha, Delivery.bytes?], ?_⟩
    rw [arrivals_hear]
    exact harrivals
  · rw [happened_hear_eq, if_pos hwrite, Peer.taken_of_fits hfits]
    simp only [Event.answering, hread]
  · rw [telnet_hear, Telnet.partReads_singleton]
  · rw [backlog_hear _ _ _ _ hwrite]
    rfl
  · rwa [Telnet.partReads_singleton]
  · rw [room_hear, Telnet.partReads_singleton]
  · rfl

/-- **A wait takes up its reads and comes to its end.** -/
theorem Waits.exists_takesUp {τ : Type} {prompts : Prompts τ} {deadline : Nat}
    {arrivals : List Arrival} {r : EStateM.Result Failure Session (Option (Match τ))}
    (h : Waits prompts deadline arrivals s r) (harrivals : s.peer.arrivals = arrivals) :
    ∃ reads t, s.TakesUp reads t ∧ ComesTo prompts t r := by
  induction h with
  | found hsearch => exact ⟨[], _, .refl _, .found hsearch⟩
  | silence hsearch hnext => exact ⟨[], _, .refl _, .silence _ hsearch⟩
  | ended hsearch hclose => exact ⟨[], _, .refl _, .ended _ hsearch harrivals⟩
  | fault hsearch ht ha => exact ⟨[], _, .refl _, .fault hsearch harrivals ha⟩
  | unwritten hsearch ht ha hwrite => exact ⟨[], _, .refl _, .unwritten hsearch harrivals ha hwrite⟩
  | bytes hsearch ht ha hwrite hrest ih =>
    obtain ⟨reads, t, htakes, hend⟩ := ih (arrivals_hear ..)
    exact ⟨_, t, (takesUp_hear harrivals ha hwrite).trans htakes, hend⟩

/-- The backlog holds the reads that were taken up. -/
theorem TakesUp.content (h : s.TakesUp reads t) (hs : s.backlog.Reachable) :
    t.backlog.content = s.holding reads := by
  rw [h.backlog, Backlog.foldl_extend_eq hs.sound.1, holding]

/-! ### Waits that fail -/

variable {τ : Type} {prompts : Prompts τ} {f : Failure}

/-- A wait that fails does so in one of three ways, and it leaves the backlog as it is. -/
theorem ComesTo.exists_fails (h : ComesTo prompts s (.error f t)) :
    ∃ arrived lost stop, s.Fails f lost stop ∧ s.peer.arrivals = arrived ++ t.peer.arrivals ∧
      arrived.filterMap (·.delivery.bytes?) = lost ∧
      t.peer.happened = s.peer.happened ++ stop ∧ t.backlog = s.backlog := by
  generalize hr : EStateM.Result.error f t = r at h
  cases h with
  | found | silence => cases hr
  | ended =>
    obtain ⟨rfl, rfl⟩ := EStateM.Result.error.inj hr
    exact ⟨[], [], _, .ended, rfl, rfl, Peer.happened_record _ _, rfl⟩
  | @fault a later reason hsearch harrivals ha =>
    obtain ⟨rfl, rfl⟩ := EStateM.Result.error.inj hr
    refine ⟨[a], [], _, .fault reason, harrivals, ?_, Peer.happened_record _ _, rfl⟩
    simp [ha, Delivery.bytes?]
  | @unwritten a bytes later hsearch harrivals ha hwrite =>
    obtain ⟨rfl, rfl⟩ := EStateM.Result.error.inj hr
    refine ⟨[a], [bytes], _, .unwritten (s.peer.taken_isPrefix _) ?_, ?_, ?_, ?_, ?_⟩
    · simpa [hear_fst] using hwrite
    · rw [arrivals_hear]
      exact harrivals
    · simp [ha, Delivery.bytes?]
    · rw [happened_hear_eq, if_neg (by simp [hwrite])]
    · simp only [hear, takeUp] at hwrite ⊢
      rw [hwrite]
      rfl

/-- Nothing more is seen of a wait that has a result. -/
theorem ComesTo.of_ok {found? : Option (Match τ)} (h : ComesTo prompts s (.ok found? t)) :
    t.peer.happened = s.peer.happened ∧ t.settings = s.settings := by
  generalize hr : EStateM.Result.ok found? t = r at h
  cases h with
  | found | silence =>
    obtain ⟨-, rfl⟩ := EStateM.Result.ok.inj hr
    exact ⟨rfl, rfl⟩
  | _ => cases hr

section Fails

variable {lost : List (List UInt8)} {stop : List Event}

/-- A read is lost only if the server does not take all refusals. -/
theorem Fails.fits_iff (htakes : s.TakesUp reads t) (h : t.Fails f lost stop) :
    s.peer.Fits (Telnet.partReads s.telnet (reads ++ lost)).2.refusals.length ↔ lost = [] := by
  rw [htakes.length_refusals]
  cases h with
  | ended | fault =>
    refine iff_of_true ?_ rfl
    exact htakes.fits
  | unwritten hpart hfits =>
    rw [Telnet.partReads_singleton]
    exact iff_of_false (fun hall => hfits (hall.of_add htakes.room)) (List.cons_ne_nil _ _)

/-- A read is lost only after a failed write. -/
theorem Fails.getLast?_iff (h : t.Fails f lost stop) (before : List Event) :
    (before ++ stop).getLast? = some .writeFailed ↔ lost ≠ [] := by
  cases h with
  | ended | fault => simp
  | unwritten =>
    rw [← List.cons_append, ← List.append_assoc, List.getLast?_concat]
    simp

/-- No more than one read is lost. -/
theorem Fails.dropLast_append (h : t.Fails f lost stop) (hlost : lost ≠ []) :
    (reads ++ lost).dropLast = reads := by
  cases h with
  | ended | fault => exact absurd rfl hlost
  | unwritten => exact List.dropLast_concat

end Fails

section Listening

variable [ToString τ]

theorem exists_takesUp_listenFor (prompts : Prompts τ) (wait : Nat) (s : Session) :
    ∃ reads u, s.TakesUp reads u ∧
      ComesTo prompts u (unloggedResult (listenFor prompts wait s)) := by
  obtain ⟨reads, u, htakes, hend⟩ := (waits_listenFor prompts wait s).exists_takesUp rfl
  exact ⟨reads, u, { htakes with }, hend⟩

/-- **A wait that fails has taken up its reads**, all but the one that it may lose. -/
theorem exists_fails_listenFor {wait : Nat} (h : listenFor prompts wait s = .error f t) :
    ∃ reads lost stop u, s.TakesUp reads u ∧ u.Fails f lost stop ∧
      (Call.listenFor prompts wait).reads s = reads ++ lost ∧
      t.peer.happened = u.peer.happened ++ stop ∧ t.backlog = u.backlog := by
  obtain ⟨reads, u, htakes, hend⟩ := exists_takesUp_listenFor prompts wait s
  rw [h] at hend
  obtain ⟨arrived, hreads, harrived⟩ := htakes.arrivals
  obtain ⟨rest, lost, stop, hfails, hrest, hlost, hhappened, hbacklog⟩ := hend.exists_fails
  refine ⟨reads, lost, stop, u, htakes, hfails, ?_, hhappened, hbacklog⟩
  rw [← hreads, ← hlost, ← List.filterMap_append]
  refine Call.reads_of_arrivals ?_
  rw [Call.perform_listenFor, h, harrived, hrest, List.append_assoc]
  rfl

/-- A prompt that is in the backlog is found at once. -/
theorem listenFor_of_find {found : Match τ} {stop : Nat}
    (h : prompts.find s.backlog.content = some (found, stop)) (wait : Nat) :
    ∃ t, listenFor prompts wait s = .ok (some found) t ∧ t.peer = s.peer := by
  have hsearch : s.backlog.search prompts = some (found, s.backlog.consume stop) :=
    congrArg (Option.map _) h
  have hwait := (waits_listenFor prompts wait s).unique (.found hsearch)
  obtain ⟨t, hlisten, ht⟩ := eq_ok_of_unloggedResult hwait
  exact ⟨t, hlisten, congrArg (·.peer) ht⟩

/-- **What a wait that fails has kept.** If the server has taken the refusals of all reads that the
wait made, the backlog holds all these reads. Otherwise a write has failed, which is the last thing
that happened, and the backlog holds all reads but the last. Whatever it holds is there for later
waits: a prompt in it is found at once. -/
theorem content_of_listenFor_error {wait : Nat} (hs : s.backlog.Reachable)
    (h : listenFor prompts wait s = .error f t) :
    let reads := (Call.listenFor prompts wait).reads s
    let refused := s.peer.Fits (Telnet.partReads s.telnet reads).2.refusals.length
    t.backlog.content = s.holding (if refused then reads else reads.dropLast) ∧
      (¬ refused → reads ≠ []) ∧ (t.peer.happened.getLast? = some .writeFailed ↔ ¬ refused) ∧
      ∀ {σ : Type} [ToString σ] (others : Prompts σ) (further : Nat) {found : Match σ} {stop : Nat},
        others.find t.backlog.content = some (found, stop) →
        ∃ u, listenFor others further t = .ok (some found) u ∧ u.peer = t.peer := by
  intro reads refused
  obtain ⟨taken, lost, stop, u, htakes, hfails, hreads, hhappened, hbacklog⟩ :=
    exists_fails_listenFor h
  replace hreads : reads = taken ++ lost := hreads
  have hrefused : refused ↔ lost = [] := by
    rw [← hfails.fits_iff htakes, ← hreads]
  refine ⟨?_, fun hnot => ?_, ?_, fun others further _ _ hfind => listenFor_of_find hfind further⟩
  · rw [hbacklog, htakes.content hs]
    split
    · next hall => rw [hreads, hrefused.mp hall, List.append_nil]
    · next hnot => rw [hreads, hfails.dropLast_append (mt hrefused.mpr hnot)]
  · rw [hreads]
    exact List.append_ne_nil_of_right_ne_nil _ (mt hrefused.mpr hnot)
  · rw [hhappened, hfails.getLast?_iff, hrefused]

end Listening

/-- A server that asks for an option in each of two reads and takes only the first refusal: of the
two words it sends only the first one can be heard later. -/
theorem content_of_listenFor_error_in_part :
    let other : Prompts String := ⟨[("other", .literal "zzz")]⟩
    let hello : Prompts String := ⟨[("hello", .literal "hello")]⟩
    let s := start (.ofScript [.send ([255, 253, 1] ++ Text.Utf8.bytes "hello"),
      .send ([255, 251, 3] ++ Text.Utf8.bytes " there")] (some 4)) {}
    s.backlog.Reachable ∧ ∃ t, listenFor other 5000 s = .error peerGone t ∧
      t.backlog.content = s.holding [[255, 253, 1] ++ Text.Utf8.bytes "hello"] ∧
      t.peer.happened.getLast? = some .writeFailed ∧
      ∃ found u, listenFor hello 0 t = .ok (some found) u ∧ u.peer = t.peer := by
  intro other hello s
  have hs : s.backlog.Reachable := .empty _
  obtain ⟨f, t, h, hf⟩ := exists_of_fails (r := listenFor other 5000 s)
    (p := fun f t => f = peerGone ∧ (hello.find t.backlog.content).isSome) (by decide +kernel)
  obtain ⟨rfl, hsome⟩ := of_decide_eq_true hf
  obtain ⟨⟨found, stop⟩, hfind⟩ := Option.isSome_iff_exists.mp hsome
  obtain ⟨hcontent, -, hlast, hlater⟩ := content_of_listenFor_error hs h
  obtain ⟨u, hu⟩ := hlater hello 0 hfind
  have hreads : (Call.listenFor other 5000).reads s =
      [[255, 253, 1] ++ Text.Utf8.bytes "hello", [255, 251, 3] ++ Text.Utf8.bytes " there"] := by
    decide +kernel
  have hunfit : ¬ s.peer.Fits (Telnet.partReads s.telnet
      ((Call.listenFor other 5000).reads s)).2.refusals.length := by
    decide +kernel
  rw [if_neg hunfit, hreads] at hcontent
  exact ⟨hs, t, h, hcontent, hlast.mpr hunfit, found, u, hu⟩

/-- **The read whose refusals cannot be written is lost.** A server that takes nothing asks for an
option and shows a menu in the same read. The wait fails; the question of the menu has been
received, but the backlog does not hold it, and no later wait can find it. -/
theorem content_ne_holding_of_unwritten :
    let other : Prompts String := ⟨[("other", .literal "zzz")]⟩
    let s := start (.ofScript [.send ([255, 253, 1] ++ Text.Utf8.bytes "> ")] (some 0)) {}
    ∃ f t, listenFor other 5000 s = .error f t ∧
      (Call.listenFor other 5000).reads s = [[255, 253, 1] ++ Text.Utf8.bytes "> "] ∧
      s.holding ((Call.listenFor other 5000).reads s) = Text.Utf8.bytes "> " ∧
      t.backlog.content = [] := by
  intro other s
  obtain ⟨f, t, h, hf⟩ := exists_of_fails (r := listenFor other 5000 s)
    (p := fun _ t => t.backlog.content = []) (by decide +kernel)
  exact ⟨f, t, h, by decide +kernel, by decide +kernel, of_decide_eq_true hf⟩

end Session

end MudDialogue
