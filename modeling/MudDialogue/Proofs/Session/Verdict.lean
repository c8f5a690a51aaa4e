import Mathlib.Data.Nat.Find
import Mathlib.Logic.ExistsUnique
import MudDialogue.Proofs.Session.Intake

/-!
# What a wait comes to

Before a wait is made it can be told what it will come to, from what the server is going to send and
when. If some number of reads that are in time brings a prompt, the least such number is made and
the prompt consumed. Otherwise everything that is in time is read, and then the time is up, or the
stream has ended, or a read fails. One of these holds and no other, and the wait comes to it
(`Session.listenFor_verdict`), provided that the server takes the refusals.

## Main definitions

* `Session.Verdict` — what a wait may come to.
* `Session.Concludes` — what it comes to, by the reads that can be made.
* `Session.Leaves` — how the session is afterwards.

## Main results

* `Session.existsUnique_concludes` — there is one verdict.
* `Session.listenFor_verdict` — a wait comes to its verdict.
-/

namespace MudDialogue.Session

open Pattern

/-- What a wait may come to, after so many reads that bring bytes. -/
inductive Verdict (τ : Type) where
  /-- A prompt is found, and it stops at some place of the output kept. -/
  | matched (reads : Nat) (found : Match τ) (stop : Nat)
  /-- The time is up. -/
  | timeout (reads : Nat)
  /-- The stream has ended. -/
  | closed (reads : Nat)
  /-- A read fails. -/
  | fault (reads : Nat) (reason : String)

namespace Verdict

variable {τ : Type}

/-- How many reads bring bytes. -/
def reads : Verdict τ → Nat
  | matched k _ _ | timeout k | closed k | fault k _ => k

/-- How many of the arrivals are read; a read that fails is one of them. -/
def consumed : Verdict τ → Nat
  | matched k _ _ | timeout k | closed k => k
  | fault k _ => k + 1

/-- The result, with the session as it is then. -/
def result (t : Session) : Verdict τ → EStateM.Result Failure Session (Option (Match τ))
  | matched _ found _ => .ok (some found) t
  | timeout _ => .ok none t
  | closed _ => .error .closed t
  | fault _ reason => .error (.stream reason) t

/-- When the wait is over. A prompt is found when the last read can be made. -/
def time (s : Session) (deadline : Nat) : Verdict τ → Nat
  | matched k _ _ => s.readyAt k
  | timeout _ => deadline
  | closed _ => s.peer.closesAt
  | fault k _ => s.readyAt (k + 1)

/-- What is kept of the output. Everything through the end of a prompt is given up. -/
def backlog (s : Session) : Verdict τ → Backlog
  | matched k _ stop => (s.intake k).backlog.consume stop
  | timeout k | closed k | fault k _ => (s.intake k).backlog

end Verdict

variable {τ : Type} (prompts : Prompts τ) (deadline : Nat) (s : Session)

/-- No read that is in time brings a prompt. -/
def Unanswered : Prop :=
  ∀ j, s.Takes deadline j → prompts.find (s.intake j).backlog.content = none

/-- What a wait comes to. -/
inductive Concludes : Verdict τ → Prop where
  /-- The least number of reads that are in time and bring a prompt. -/
  | matched {k found stop} (htakes : s.Takes deadline k)
      (hfind : prompts.find (s.intake k).backlog.content = some (found, stop))
      (hleast : ∀ j, s.Takes deadline j →
        (prompts.find (s.intake j).backlog.content).isSome → k ≤ j) :
      Concludes (.matched k found stop)
  /-- Everything in time is read, and what comes next comes later. -/
  | timeout {k} (hnone : s.Unanswered prompts deadline) (htakes : s.Takes deadline k)
      (hnext : deadline < nextTime s.peer.closesAt (s.peer.arrivals.drop k)) :
      Concludes (.timeout k)
  /-- Everything is read, and the stream has ended. -/
  | closed {k} (hnone : s.Unanswered prompts deadline) (htakes : s.Takes deadline k)
      (hall : k = s.peer.arrivals.length) (hclose : s.peer.closesAt ≤ deadline) :
      Concludes (.closed k)
  /-- Everything up to a read that fails is read. -/
  | fault {k a reason} (hnone : s.Unanswered prompts deadline) (htakes : s.Takes deadline k)
      (hget : s.peer.arrivals[k]? = some a) (ha : a.delivery = .fault reason)
      (ht : a.time ≤ deadline) : Concludes (.fault k reason)

/-- How the session is after a wait with a verdict. -/
structure Leaves (v : Verdict τ) (t : Session) : Prop where
  telnet : t.telnet = (s.intake v.reads).telnet
  backlog : t.backlog = v.backlog s
  clock : t.peer.clock = v.time s deadline
  arrivals : t.peer.arrivals = s.peer.arrivals.drop v.consumed
  closesAt : t.peer.closesAt = s.peer.closesAt
  written : t.peer.written = s.peer.written ++ (s.intake v.reads).refusals

variable {prompts : Prompts τ} {deadline k : Nat} {s t : Session} {v w : Verdict τ}

/-! ### There is one verdict -/

theorem nextTime_drop {a : Arrival} (h : s.peer.arrivals[k]? = some a) (closesAt : Nat) :
    nextTime closesAt (s.peer.arrivals.drop k) = a.time := by
  obtain ⟨hlt, rfl⟩ := List.getElem?_eq_some_iff.mp h
  rw [List.drop_eq_getElem_cons hlt]
  rfl

/-- Only so many reads are in time. -/
theorem exists_takes_not_inTime (s : Session) (deadline : Nat) :
    ∃ k, s.Takes deadline k ∧ ¬ s.InTime deadline k := by
  classical
  have hlate : ∃ k, ¬ s.InTime deadline k := by
    refine ⟨s.peer.arrivals.length, ?_⟩
    rintro ⟨a, bytes, hget, -⟩
    simp at hget
  exact ⟨Nat.find hlate, fun i hi => not_not.mp (Nat.find_min hlate hi), Nat.find_spec hlate⟩

theorem Takes.le_of_not_inTime {j : Nat} (hj : s.Takes deadline j) (hk : ¬ s.InTime deadline k) :
    j ≤ k :=
  Nat.le_of_not_lt fun hlt => hk (hj k hlt)

/-- A wait comes to something. -/
theorem exists_concludes (prompts : Prompts τ) (deadline : Nat) (s : Session) :
    ∃ v, s.Concludes prompts deadline v := by
  classical
  by_cases h : ∃ k, s.Takes deadline k ∧ (prompts.find (s.intake k).backlog.content).isSome
  · obtain ⟨htakes, hsome⟩ := Nat.find_spec h
    obtain ⟨⟨found, stop⟩, hfind⟩ := Option.isSome_iff_exists.mp hsome
    exact ⟨_, .matched htakes hfind fun j hj hfound => Nat.find_min' h ⟨hj, hfound⟩⟩
  · have hnone : s.Unanswered prompts deadline := fun j hj =>
      Option.not_isSome_iff_eq_none.mp fun hfound => h ⟨j, hj, hfound⟩
    obtain ⟨k, htakes, hlast⟩ := s.exists_takes_not_inTime deadline
    cases hget : s.peer.arrivals[k]? with
    | none =>
      have hall : k = s.peer.arrivals.length :=
        Nat.le_antisymm htakes.le_length (List.getElem?_eq_none_iff.mp hget)
      by_cases hclose : s.peer.closesAt ≤ deadline
      · exact ⟨_, .closed hnone htakes hall hclose⟩
      · refine ⟨_, .timeout hnone htakes ?_⟩
        rw [hall, List.drop_length]
        exact Nat.lt_of_not_le hclose
    | some a =>
      by_cases ht : a.time ≤ deadline
      · cases ha : a.delivery with
        | bytes bytes => exact absurd ⟨a, bytes, hget, ha, ht⟩ hlast
        | fault reason => exact ⟨_, .fault hnone htakes hget ha ht⟩
      · refine ⟨_, .timeout hnone htakes ?_⟩
        rw [nextTime_drop hget]
        exact Nat.lt_of_not_le ht

/-- Without a prompt, the reads that are made are those in time. -/
theorem Concludes.not_inTime (h : s.Concludes prompts deadline v)
    (hnone : s.Unanswered prompts deadline) : ¬ s.InTime deadline v.reads := by
  rintro ⟨b, bytes, hget, hb, hbt⟩
  cases h with
  | matched htakes hfind hleast => cases hfind.symm.trans (hnone _ htakes)
  | timeout _ htakes hnext =>
    exact Nat.not_le_of_lt (nextTime_drop hget s.peer.closesAt ▸ hnext) hbt
  | closed _ htakes hall hclose =>
    subst hall
    simp [Verdict.reads] at hget
  | fault _ htakes hget' ha ht =>
    obtain rfl := Option.some.inj (hget.symm.trans hget')
    cases hb.symm.trans ha

theorem Concludes.takes (h : s.Concludes prompts deadline v) : s.Takes deadline v.reads := by
  cases h <;> assumption

theorem Concludes.reads_eq (hv : s.Concludes prompts deadline v)
    (hw : s.Concludes prompts deadline w) (hnone : s.Unanswered prompts deadline) :
    v.reads = w.reads :=
  Nat.le_antisymm (hv.takes.le_of_not_inTime (hw.not_inTime hnone))
    (hw.takes.le_of_not_inTime (hv.not_inTime hnone))

/-- What a wait comes to that makes `k` reads without a prompt. -/
def fallback (deadline : Nat) (s : Session) (k : Nat) : Verdict τ :=
  if deadline < nextTime s.peer.closesAt (s.peer.arrivals.drop k) then .timeout k
  else match s.peer.arrivals[k]?.map Arrival.delivery with
    | some (.fault reason) => .fault k reason
    | _ => .closed k

theorem Concludes.eq_fallback (h : s.Concludes prompts deadline v)
    (hnone : s.Unanswered prompts deadline) : v = s.fallback deadline v.reads := by
  cases h with
  | matched htakes hfind hleast => cases hfind.symm.trans (hnone _ htakes)
  | timeout _ _ hnext => exact (if_pos hnext).symm
  | closed _ _ hall hclose =>
    subst hall
    simp [fallback, Verdict.reads, nextTime, Nat.not_lt.mpr hclose]
  | fault _ _ hget ha ht =>
    simp [fallback, Verdict.reads, nextTime_drop hget, hget, ha, Nat.not_lt.mpr ht]

/-- A wait comes to one thing only. -/
theorem Concludes.unique (hv : s.Concludes prompts deadline v)
    (hw : s.Concludes prompts deadline w) : v = w := by
  by_cases hnone : s.Unanswered prompts deadline
  · rw [hv.eq_fallback hnone, hw.eq_fallback hnone, hv.reads_eq hw hnone]
  · cases hv with
    | matched htakes hfind hleast =>
      cases hw with
      | matched htakes' hfind' hleast' =>
        obtain rfl := Nat.le_antisymm (hleast _ htakes' (hfind' ▸ rfl))
          (hleast' _ htakes (hfind ▸ rfl))
        obtain ⟨rfl, rfl⟩ := Prod.mk.inj (Option.some.inj (hfind.symm.trans hfind'))
        rfl
      | _ hnone' => exact absurd hnone' hnone
    | _ hnone' => exact absurd hnone' hnone

/-- **There is one verdict.** -/
theorem existsUnique_concludes (prompts : Prompts τ) (deadline : Nat) (s : Session) :
    ∃! v, s.Concludes prompts deadline v := by
  obtain ⟨v, hv⟩ := s.exists_concludes prompts deadline
  exact ⟨v, hv, fun w hw => hw.unique hv⟩

/-! ### A wait comes to its verdict -/

/-- Fewer reads than are made bring no prompt. -/
theorem Concludes.find_eq_none (h : s.Concludes prompts deadline v) {j : Nat} (hj : j < v.reads) :
    prompts.find (s.intake j).backlog.content = none := by
  have htakes : s.Takes deadline j := h.takes.mono (Nat.le_of_lt hj)
  cases h with
  | matched _ _ hleast =>
    exact Option.not_isSome_iff_eq_none.mp fun hfound =>
      Nat.not_le_of_lt hj (hleast j htakes hfound)
  | _ hnone => exact hnone j htakes

/-- **A wait comes to its verdict by the rules.** -/
theorem Concludes.waits (h : s.Concludes prompts deadline v)
    (horder : InOrder s.peer.clock s.peer.closesAt s.peer.arrivals)
    (hclock : s.peer.clock ≤ deadline)
    (hfits : s.peer.Fits (s.intake v.reads).refusals.length) :
    ∃ t, Waits prompts deadline s.peer.arrivals s (v.result t) ∧ s.Leaves deadline v t := by
  obtain ⟨t, htook, hgoes⟩ := exists_took horder h.takes (fun j => h.find_eq_none) hfits
  have hready : s.readyAt v.reads ≤ deadline := h.takes.readyAt_le hclock
  have hbehind := inOrder_drop horder h.takes.le_length
  have hsilent (hnone : s.Unanswered prompts deadline) : t.backlog.search prompts = none := by
    rw [Backlog.search, htook.backlog, hnone _ h.takes]
    rfl
  cases h with
  | @matched k found stop htakes hfind hleast =>
    have hsearch : t.backlog.search prompts = some (found, t.backlog.consume stop) := by
      rw [Backlog.search, htook.backlog]
      exact congrArg _ hfind
    refine ⟨_, hgoes (.found hsearch), ?_⟩
    exact { htook with backlog := congrArg (Backlog.consume · stop) htook.backlog }
  | timeout hnone htakes hnext =>
    refine ⟨_, hgoes (.silence (hsilent hnone) (htook.closesAt ▸ hnext)), ?_⟩
    exact { htook with
      clock := (congrArg (max · deadline) htook.clock).trans (Nat.max_eq_right hready) }
  | @closed k hnone htakes hall hclose =>
    have hempty : s.peer.arrivals.drop k = [] := by rw [hall, List.drop_length]
    simp only [Verdict.reads, hempty] at hgoes hbehind
    refine ⟨_, hgoes (.ended (hsilent hnone) (htook.closesAt ▸ hclose)), ?_⟩
    exact { htook with
      clock := by
        change max t.peer.clock t.peer.closesAt = _
        rw [htook.clock, htook.closesAt]
        exact Nat.max_eq_right hbehind
      written := by
        rw [record, Peer.written_record]
        exact (List.append_nil _).trans htook.written }
  | @fault k a reason hnone htakes hget ha ht =>
    obtain ⟨hlt, rfl⟩ := List.getElem?_eq_some_iff.mp hget
    simp only [Verdict.reads, List.drop_eq_getElem_cons hlt] at hgoes hbehind
    refine ⟨_, hgoes (.fault (hsilent hnone) ht ha), ?_⟩
    exact { htook with
      clock := by
        change max t.peer.clock _ = s.readyAt (k + 1)
        rw [htook.clock, readyAt_succ hget]
        exact Nat.max_eq_right hbehind.1
      arrivals := rfl
      written := by
        rw [record, Peer.written_record]
        exact (List.append_nil _).trans htook.written }

theorem Concludes.unlogged (h : s.Concludes prompts deadline v) :
    s.unlogged.Concludes prompts deadline v := by
  cases h with
  | matched htakes hfind hleast => exact .matched htakes hfind hleast
  | timeout hnone htakes hnext => exact .timeout hnone htakes hnext
  | closed hnone htakes hall hclose => exact .closed hnone htakes hall hclose
  | fault hnone htakes hget ha ht => exact .fault hnone htakes hget ha ht

theorem exists_of_unloggedResult {r : EStateM.Result Failure Session (Option (Match τ))}
    (h : v.result t = unloggedResult r) : ∃ u, r = v.result u ∧ u.unlogged = t := by
  cases v with
  | matched | timeout => exact eq_ok_of_unloggedResult h.symm
  | closed | fault => exact eq_error_of_unloggedResult h.symm

/-- **A wait comes to its verdict.** Whatever the server is going to do, there is one verdict on a
wait; and unless the server does not take the refusals of what is read until then, the wait has that
result, makes those reads at that time, and leaves what the verdict says of the output. -/
theorem listenFor_verdict [ToString τ] (prompts : Prompts τ) (wait : Nat) (s : Session)
    (script : List ServerAct) :
    (∃! v, (s.facing script).Concludes prompts (s.peer.clock + wait) v) ∧
    ∀ v, (s.facing script).Concludes prompts (s.peer.clock + wait) v →
      s.peer.Fits ((s.facing script).intake v.reads).refusals.length →
      ∃ t, listenFor prompts wait (s.facing script) = v.result t ∧
        (s.facing script).Leaves (s.peer.clock + wait) v t := by
  refine ⟨existsUnique_concludes prompts _ _, fun v hv hfits => ?_⟩
  obtain ⟨u, hu, hleaves⟩ := hv.unlogged.waits (Peer.inOrder_timeline s.peer.clock script)
    (Nat.le_add_right _ wait) hfits
  obtain ⟨t, ht, rfl⟩ := exists_of_unloggedResult
    (hu.unique (waits_listenFor prompts wait (s.facing script)))
  exact ⟨t, ht, { hleaves with }⟩

/-- A word with an option demanded in its middle; its last part is there just at the deadline. -/
theorem listenFor_verdict_at_deadline :
    let word : Prompts String := ⟨[("word", .literal "go")]⟩
    let s := start (.ofScript [] (some 3)) {}
    let script : List ServerAct :=
      [.send [103], .wait 10, .send [255, 253, 1], .wait 10, .send [111, 33]]
    ∃ t, listenFor word 20 (s.facing script) = .ok (some ⟨"word", "go", []⟩) t ∧
      t.peer.clock = 20 ∧ t.backlog.content = [33] ∧ t.peer.written = [255, 252, 1] := by
  intro word s script
  have hverdict : (s.facing script).Concludes word (s.peer.clock + 20)
      (.matched 3 ⟨"word", "go", []⟩ 2) := by
    have hbefore : ∀ j < 3,
        (word.find ((s.facing script).intake j).backlog.content).isSome = false := by
      decide +kernel
    refine .matched ?_ (by decide +kernel) fun j _ hfound => ?_
    · intro i hi
      obtain rfl | rfl | rfl : i = 0 ∨ i = 1 ∨ i = 2 := by omega
      · exact ⟨⟨0, .bytes [103]⟩, _, by decide +kernel, rfl, by decide⟩
      · exact ⟨⟨10, .bytes [255, 253, 1]⟩, _, by decide +kernel, rfl, by decide⟩
      · exact ⟨⟨20, .bytes [111, 33]⟩, _, by decide +kernel, rfl, by decide⟩
    · refine Nat.le_of_not_lt fun hj => ?_
      rw [hbefore j hj] at hfound
      cases hfound
  obtain ⟨t, hrun, hleaves⟩ :=
    (listenFor_verdict word 20 s script).2 _ hverdict (by decide +kernel)
  refine ⟨t, hrun, hleaves.clock.trans (by decide +kernel), ?_, ?_⟩
  · rw [hleaves.backlog]
    decide +kernel
  · rw [hleaves.written]
    decide +kernel

end MudDialogue.Session
