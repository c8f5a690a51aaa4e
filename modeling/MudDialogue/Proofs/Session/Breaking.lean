import MudDialogue.Proofs.Client.Bisimulation
import MudDialogue.Proofs.Session.Conversation

/-!
# How the stream of a session breaks off

Three things can happen on a stream after which nothing more will be done with it: a read finds its
end, a read fails, or a write fails. Each of them makes the operation fail in which it happens, and
no operation fails without one of them. So the failure with which a client is left tells what
happened on the stream last, and everything before that was harmless.

## Main definitions

* `Event.Causes` — which failure follows what happened.
* `Session.Flows`, `Session.Breaks` — nothing of this kind has happened, or one such thing at last.
* `Session.Recount` — what happened, and whether it was the end of the stream or something failed.

## Main results

* `Session.Waits.course` — how the stream goes on in a wait.
* `Session.isBisimulation_course` — whatever is done with a session, its stream flows on or breaks.
-/

namespace MudDialogue

open Pattern Operation

/-- What happens on a stream makes an operation fail, and so. -/
inductive Event.Causes : Event → Failure → Prop where
  | ended : Causes .ended .closed
  | readFailed (reason : String) : Causes .readFailed (.stream reason)
  | writeFailed (reason : String) : Causes .writeFailed (.stream reason)

/-- The end of the stream, or a read or a write that fails. -/
def Event.IsFatal (e : Event) : Prop := ∃ f, e.Causes f

theorem Event.isFatal_iff {e : Event} :
    e.IsFatal ↔ e = .ended ∨ e = .readFailed ∨ e = .writeFailed := by
  constructor
  · rintro ⟨f, ⟨⟩⟩ <;> simp
  · rintro (rfl | rfl | rfl)
    · exact ⟨_, .ended⟩
    · exact ⟨_, .readFailed ""⟩
    · exact ⟨_, .writeFailed ""⟩

/-- The failure that follows from what happened tells whether it was the end of the stream. -/
theorem Event.Causes.ended_iff {e : Event} {f : Failure} (h : e.Causes f) :
    e = .ended ↔ f.isClosed = true := by
  cases h <;> simp

theorem Event.Causes.failed_iff {e : Event} {f : Failure} (h : e.Causes f) :
    e = .readFailed ∨ e = .writeFailed ↔ f.isClosed = false := by
  cases h <;> simp [Failure.isClosed]

theorem Event.not_isFatal_read (count : Nat) : ¬ (Event.read count).IsFatal := by
  simp [Event.isFatal_iff]

theorem Event.not_isFatal_write (bytes : List UInt8) : ¬ (Event.write bytes).IsFatal := by
  simp [Event.isFatal_iff]

namespace Session

/-- Between a session and a later one nothing fatal has happened. -/
def Flows (s t : Session) : Prop :=
  ∃ new, t.peer.happened = s.peer.happened ++ new ∧ ∀ e ∈ new, ¬ e.IsFatal

/-- Between a session and a later one something fatal has happened, from which there is a failure,
and it was the last thing to happen. -/
def Breaks (s : Session) (f : Failure) (t : Session) : Prop :=
  ∃ new last, t.peer.happened = s.peer.happened ++ new ++ [last] ∧ (∀ e ∈ new, ¬ e.IsFatal) ∧
    last.Causes f

variable {s t u : Session} {f : Failure}

theorem Flows.of_eq (h : t.peer.happened = s.peer.happened) : s.Flows t :=
  ⟨[], by rw [h, List.append_nil], fun _ he => absurd he List.not_mem_nil⟩

theorem Flows.of_event {e : Event} (h : t.peer.happened = s.peer.happened ++ [e])
    (he : ¬ e.IsFatal) : s.Flows t :=
  ⟨[e], h, fun _ hmem => List.mem_singleton.mp hmem ▸ he⟩

theorem Flows.trans (h : s.Flows t) (h' : t.Flows u) : s.Flows u := by
  obtain ⟨new, ht, hnew⟩ := h
  obtain ⟨more, hu, hmore⟩ := h'
  refine ⟨new ++ more, by rw [hu, ht, List.append_assoc], fun e he => ?_⟩
  rcases List.mem_append.mp he with he | he
  · exact hnew e he
  · exact hmore e he

theorem Flows.breaks (h : s.Flows t) (h' : t.Breaks f u) : s.Breaks f u := by
  obtain ⟨new, ht, hnew⟩ := h
  obtain ⟨more, last, hu, hmore, hlast⟩ := h'
  refine ⟨new ++ more, last, by rw [hu, ht, List.append_assoc s.peer.happened], fun e he => ?_,
    hlast⟩
  rcases List.mem_append.mp he with he | he
  · exact hnew e he
  · exact hmore e he

theorem Breaks.of_event {e : Event} (h : t.peer.happened = s.peer.happened ++ [e])
    (he : e.Causes f) : s.Breaks f t :=
  ⟨[], e, by rw [h, List.append_nil], fun _ hmem => absurd hmem List.not_mem_nil, he⟩

/-- What happened on a stream, in order, up to a failure if there was one. -/
structure Recount (s t : Session) (f? : Option Failure) (new : List Event) : Prop where
  happened : t.peer.happened = s.peer.happened ++ new
  fatal_last : ∀ e ∈ new.dropLast, ¬ e.IsFatal
  ended_iff : .ended ∈ new ↔ f?.any (·.isClosed)
  failed_iff : .readFailed ∈ new ∨ .writeFailed ∈ new ↔ f?.any (!·.isClosed)

theorem Flows.exists_recount (h : s.Flows t) : ∃ new, s.Recount t none new := by
  obtain ⟨new, ht, hnew⟩ := h
  have hnot {e : Event} (he : e.IsFatal) : e ∉ new := fun hmem => hnew e hmem he
  refine ⟨new, ht, fun e he => hnew e (List.dropLast_subset new he), ?_, ?_⟩
  · simpa using hnot ⟨_, .ended⟩
  · simpa using ⟨hnot ⟨_, .readFailed ""⟩, hnot ⟨_, .writeFailed ""⟩⟩

theorem Breaks.exists_recount (h : s.Breaks f t) : ∃ new, s.Recount t (some f) new := by
  obtain ⟨new, last, ht, hnew, hlast⟩ := h
  have hmem {e : Event} (he : e.IsFatal) : e ∈ new ++ [last] ↔ last = e := by
    have hnot : e ∉ new := fun hmem => hnew e hmem he
    simp [hnot, eq_comm]
  refine ⟨new ++ [last], by rw [ht, List.append_assoc], ?_, ?_, ?_⟩
  · simpa using hnew
  · rw [hmem ⟨_, .ended⟩, hlast.ended_iff]
    rfl
  · rw [hmem ⟨_, .readFailed ""⟩, hmem ⟨_, .writeFailed ""⟩, hlast.failed_iff]
    simp

/-- How the stream goes on in an operation: it flows, or the operation fails as the stream breaks. -/
def Course {α : Type} (s : Session) : EStateM.Result Failure Session α → Prop
  | .ok _ t => s.Flows t
  | .error f t => s.Breaks f t

theorem Course.trans {α : Type} {r : EStateM.Result Failure Session α} (h : s.Flows t)
    (h' : t.Course r) : s.Course r := by
  cases r with
  | ok a u => exact h.trans h'
  | error f u => exact h.breaks h'

/-- What the server takes of a write is harmless. If it does not take everything, the write fails at
last. -/
theorem happened_write (bytes : List UInt8) (s : Session) :
    ∃ u, s.Flows u ∧ (s.peer.write bytes).2.happened =
      u.peer.happened ++ if s.peer.Fits bytes.length then [] else [.writeFailed] := by
  refine ⟨if (s.peer.taken bytes).isEmpty then s else s.record (.write (s.peer.taken bytes)), ?_, ?_⟩
  · split
    · exact .of_eq rfl
    · exact .of_event (Peer.happened_record _ _) (Event.not_isFatal_write _)
  · rw [Peer.happened_write_eq, Event.writing, ← List.append_assoc]
    split
    · rw [List.append_nil]
    · rw [record, Peer.happened_record]

theorem course_of_write {α : Type} {bytes : List UInt8} {a : α} {ok failed : Session}
    (hok : ok.peer = (s.peer.write bytes).2) (hfailed : failed.peer = (s.peer.write bytes).2) :
    s.Course (if (s.peer.write bytes).1 then .ok a ok else .error peerGone failed) := by
  obtain ⟨u, hflows, hwrite⟩ := happened_write bytes s
  have hfits : (s.peer.write bytes).1 = decide (s.peer.Fits bytes.length) := Peer.write_fst ..
  by_cases h : s.peer.Fits bytes.length
  · rw [hfits, if_pos (decide_eq_true h)]
    rw [if_pos h, List.append_nil] at hwrite
    exact hflows.trans (.of_eq (hok ▸ hwrite))
  · rw [hfits, if_neg (by simpa using h)]
    rw [if_neg h] at hwrite
    exact hflows.breaks (.of_event (hfailed ▸ hwrite) (.writeFailed _))

theorem course_write (bytes : List UInt8) (s : Session) : s.Course (Session.write bytes s) := by
  rw [write_eq]
  exact course_of_write rfl rfl

/-- A line is sent, whether it is logged or not. -/
theorem course_line (line message : String) (s : Session) :
    s.Course ((do note .debug message; writeLine line) s) :=
  Course.trans (.of_eq rfl) (course_write _ { s with past := (.debug, message) :: s.past })

section Waiting

variable {τ : Type} {prompts : Prompts τ}

theorem course_hear (a : Arrival) (bytes : List UInt8) (later : List Arrival) (s : Session) :
    s.Course (if (s.hear a bytes later).1 then .ok () (s.hear a bytes later).2
      else .error peerGone (s.hear a bytes later).2) := by
  have hread : s.Flows ((s.reach a later).record (.read bytes.length)) :=
    .of_event (Peer.happened_record _ _) (Event.not_isFatal_read _)
  exact Course.trans hread (course_of_write (peer_takeUp _ _) (peer_takeUp _ _))

/-- **How the stream goes on in a wait.** -/
theorem Waits.course {deadline : Nat} {arrivals : List Arrival}
    {r : EStateM.Result Failure Session (Option (Match τ))}
    (h : Waits prompts deadline arrivals s r) : s.Course r := by
  induction h with
  | found hsearch => exact .of_eq rfl
  | silence hsearch hnext => exact .of_eq rfl
  | ended hsearch hclose => exact .of_event (Peer.happened_record _ _) .ended
  | fault hsearch ht ha => exact .of_event (Peer.happened_record _ _) (.readFailed _)
  | @unwritten a later s bytes hsearch ht ha hwrite =>
    have hcourse := course_hear a bytes later s
    rwa [if_neg (by simp [hwrite])] at hcourse
  | @bytes a later s bytes result hsearch ht ha hwrite hrest ih =>
    have hcourse := course_hear a bytes later s
    rw [if_pos hwrite] at hcourse
    exact Course.trans hcourse ih

theorem course_listen [ToString τ] (prompts : Prompts τ) (s : Session) :
    s.Course (listen prompts s) := by
  have h : s.Course (unloggedResult (listenFor prompts s.settings.timeout s)) :=
    (waits_listenFor prompts s.settings.timeout s).course
  rw [listen_eq]
  cases hr : listenFor prompts s.settings.timeout s with
  | ok a t => rwa [hr] at h
  | error f t => rwa [hr] at h

end Waiting

/-- What is known of the stream since some time is known after one more operation. -/
theorem alike_course {α : Type} {x : SessionM α} (start : Session)
    (hx : ∀ s : Session, s.Course (x s)) :
    Alike (Itself start.Flows) (fun f => Itself (start.Breaks f)) x x :=
  .of_keeps (fun {s a t} h hs => h.trans (hs ▸ hx s : s.Course (.ok a t)))
    (fun {s f t} h hs => h.breaks (hs ▸ hx s : s.Course (.error (α := α) f t)))

/-- **Whatever is done with a session, its stream flows on or breaks.** -/
theorem isBisimulation_course (start : Session) (secret : String) :
    IsBisimulation (fun _ => True) secret secret (Itself start.Flows)
      fun f => Itself (start.Breaks f) where
  horizon := by
    rintro s _ ⟨rfl, -⟩
    rfl
  note _ _ _ := alike_course start fun _ => .of_eq rfl
  say _ := alike_course start (course_line _ _)
  whisper := alike_course start (course_line _ _)
  listen prompts := alike_course start (course_listen prompts)

end Session

end MudDialogue
