import MudDialogue.Proofs.Client.Courses
import MudDialogue.Proofs.Session.Logging
import MudDialogue.Proofs.Signup.Turns

/-!
# What a report says of a batch

A report puts every account into one of its three lists, up to the one in whose dialogue the server
hung up, if it did. This holds of every batch that has a result, however the server acted, and
whatever was said too late: a report may be wrong about what became of an account
(`Signup.run_attribution`), but never about which accounts had their turn. In its turn an account is
served by calls for itself alone: what is said is its own, what is whispered is the password, and
the log bears this out.

## Main definitions

* `Signup.Reports` — what a report says of a batch.

## Main results

* `Signup.run_reports` — the report of a batch says this.
-/

namespace MudDialogue.Signup

open ClientM Operation Session

/-- What a report says of a batch over a session that has become another one.

The names of the accounts are all different, and the first of them, as many as were attempted, are
accounted for. The batch was cut short just if some were not attempted, and just if the end of the
stream was the last thing that happened. One account after the other had its dialogue, up to the one
after those that were attempted if there was one. In a dialogue nothing was said but its own lines
and nothing whispered but the password, and nothing else is logged as sent. After the last one
nothing was done at all but to log messages. -/
structure Reports (b : Batch) (start : Session) (ledger : Ledger) (final : Session) : Prop where
  names : b.usernames = (List.range' 1 b.count).map fun number => b.base ++ toString number
  distinct : b.usernames.Nodup
  accounts : ledger.AccountsFor (b.usernames.take ledger.attempted)
  cutShort_iff : ledger.cutShort ↔ ledger.attempted < b.count
  hungUp_iff : ledger.cutShort ↔
    ∃ new, final.peer.happened = start.peer.happened ++ new ++ [.ended]
  turn_iff (n : Nat) : (∃ s, Turn b start n s) ↔ 0 < n ∧ n ≤ b.count ∧ n ≤ ledger.attempted + 1
  said {n : Nat} {s : Session} (hturn : Turn b start n s) :
    MadeBy (Signup.lines (b.username n)) b.password.reveal s (endOfTurn b n s)
  logged {n : Nat} {s : Session} (hturn : Turn b start n s) :
    Logged (TellsOf (Signup.lines (b.username n))) s (endOfTurn b n s)
  last {n : Nat} {s : Session} (hturn : Turn b start n s)
    (hlast : n = b.count ∨ n = ledger.attempted + 1) :
    Noted (endOfTurn b n s) final
  nobody (hcount : b.count = 0) : Noted start final

variable {b : Batch} {start : Session} {ledger : Ledger}

theorem firstUsernames_eq_take {n : Nat} (hn : n ≤ b.count) :
    b.firstUsernames n = b.usernames.take n := by
  obtain ⟨more, hmore⟩ := Nat.exists_eq_add_of_le hn
  have hsplit : List.range' 1 b.count = List.range' 1 n ++ List.range' (1 + n) more := by
    rw [hmore, List.range'_append_1]
  rw [Batch.usernames, Batch.firstUsernames, Batch.firstUsernames, Nat.min_self,
    Nat.min_eq_left hn, hsplit, List.map_append, List.take_left']
  rw [List.length_map, List.length_range']

theorem nodup_usernames (b : Batch) : b.usernames.Nodup :=
  (List.nodup_range' 1).map fun _ _ h => b.username_injective h

/-! ### When a batch is over -/

namespace Over

variable {d : Client Ledger}

/-- What is over was attempted, or its last dialogue was not the last one to hold. -/
theorem attempted_le (h : Over b start d) : d.memory.attempted ≤ b.count := by
  cases h with
  | done hunder => exact Nat.le_of_eq (Nat.succ.inj hunder.attempted)
  | hungUp hunder hcount hone hmemory =>
    have hattempted := hunder.attempted_of_hungUp hmemory
    omega

theorem accounts (h : Over b start d) :
    d.memory.AccountsFor (b.usernames.take d.memory.attempted) := by
  rw [← firstUsernames_eq_take h.attempted_le]
  cases h with
  | done hunder => exact hunder.accounts
  | hungUp hunder hcount hone hmemory =>
    obtain ⟨hcreated, htaken, habandoned, honce, hperm⟩ := hunder.accounts
    rw [hmemory]
    exact ⟨hcreated, htaken, habandoned, honce, hperm⟩

theorem cutShort_iff (h : Over b start d) :
    d.memory.cutShort ↔ d.memory.attempted < b.count := by
  cases h with
  | done hunder =>
    have hall : d.memory.attempted = b.count := Nat.succ.inj hunder.attempted
    have hnone : ¬ d.memory.attempted < b.count := by omega
    exact iff_of_false (by simp [hunder.whole]) hnone
  | hungUp hunder hcount hone hmemory =>
    have hattempted := hunder.attempted_of_hungUp hmemory
    have hsome : d.memory.attempted < b.count := by omega
    exact iff_of_true (by rw [hmemory]) hsome

/-- The accounts that had their turn. -/
theorem turn_iff (h : Over b start d) (n : Nat) :
    (∃ s, Turn b start n s) ↔ 0 < n ∧ n ≤ b.count ∧ n ≤ d.memory.attempted + 1 := by
  constructor
  · rintro ⟨s, hturn⟩
    refine ⟨hturn.pos, hturn.le_count, ?_⟩
    cases h with
    | done hunder =>
      have hall : d.memory.attempted + 1 = b.count + 1 := hunder.attempted
      exact hall ▸ Nat.le_succ_of_le hturn.le_count
    | @hungUp number c e hunder hcount hone hmemory =>
      have hattempted := hunder.attempted_of_hungUp hmemory
      rw [hattempted]
      -- before a further turn, the account would have met its fate in the one that was cut short
      refine Nat.le_of_not_lt fun hlt => ?_
      obtain ⟨s', hnext⟩ := hturn.exists_of_le (Nat.succ_pos number) hlt
      cases hnext with
      | first => exact absurd hunder.attempted (Nat.succ_ne_zero _)
      | next hbefore _ hfate =>
        obtain rfl := hbefore.unique (hunder.turn hcount)
        cases hfate.symm.trans hone
  · rintro ⟨hpos, hcount, hle⟩
    cases h with
    | done hunder =>
      obtain ⟨hone, -⟩ | ⟨m, s, hm, hturn, -⟩ := hunder.before
      · omega
      · exact hturn.exists_of_le hpos (by omega)
    | hungUp hunder hcount' hone hmemory =>
      have hattempted := hunder.attempted_of_hungUp hmemory
      exact (hunder.turn hcount').exists_of_le hpos (by omega)

/-- What the last dialogue leaves is what is left in the end. -/
theorem last (h : Over b start d) {n : Nat} {s : Session} (hturn : Turn b start n s)
    (hlast : n = b.count ∨ n = d.memory.attempted + 1) :
    Noted (endOfTurn b n s) d.session := by
  cases h with
  | done hunder =>
    have hall : d.memory.attempted + 1 = b.count + 1 := hunder.attempted
    have hle := hturn.le_count
    have hpos := hturn.pos
    obtain ⟨hone, -⟩ | ⟨m, s', hm, hturn', hend⟩ := hunder.before
    · omega
    · obtain rfl : n = m := by omega
      obtain rfl := hturn.unique hturn'
      exact hend ▸ .refl
  | @hungUp number c e hunder hcount hone hmemory hsession =>
    have hattempted := hunder.attempted_of_hungUp hmemory
    have hle : n ≤ number := by
      have hturns := (turn_iff (.hungUp hunder hcount hone hmemory hsession) n).mp ⟨s, hturn⟩
      omega
    obtain rfl : n = number := by omega
    obtain rfl := hturn.unique (hunder.turn hcount)
    rw [endOfTurn, hone]
    exact hsession

theorem nobody (h : Over b start d) (hcount : b.count = 0) :
    Noted start d.session := by
  cases h with
  | done hunder =>
    obtain ⟨-, hsame⟩ | ⟨m, s, hm, hturn, -⟩ := hunder.before
    · exact hsame ▸ .refl
    · have hle := hturn.le_count
      have hpos := hturn.pos
      omega
  | hungUp hunder hle =>
    have hattempted := hunder.attempted
    omega

end Over

/-- A batch is cut short just if the end of the stream is the last thing that happens. -/
theorem cutShort_iff_ended {c d : Client Ledger} (h : run b c = .ok ledger d)
    (hmemory : d.memory = ledger) :
    ledger.cutShort ↔
      ∃ new, d.session.peer.happened = c.session.peer.happened ++ new ++ [.ended] := by
  have hcourse : Signup.Course c.session (run b c) := course_run (.of_eq rfl)
  rw [h] at hcourse
  simp only [Signup.Course, hmemory] at hcourse
  cases hcut : ledger.cutShort with
  | true =>
    rw [hcut, if_pos rfl] at hcourse
    obtain ⟨new, last, hnew, -, hlast⟩ := hcourse
    cases hlast
    exact ⟨fun _ => ⟨new, hnew⟩, fun _ => rfl⟩
  | false =>
    rw [hcut, if_neg Bool.false_ne_true] at hcourse
    obtain ⟨new, hnew, hharmless⟩ := hcourse
    refine ⟨fun h => absurd h Bool.false_ne_true, ?_⟩
    rintro ⟨before, hbefore⟩
    rw [hnew, List.append_assoc, List.append_cancel_left_eq] at hbefore
    have hmem : Event.ended ∈ new := hbefore ▸ List.mem_append_right before List.mem_cons_self
    exact absurd ⟨_, .ended⟩ (hharmless .ended hmem)

/-- **What the report of a batch says.** -/
theorem run_reports (b : Batch) (c : Client Ledger) {ledger : Ledger} {d : Client Ledger}
    (hc : c.Reachable) (hrun : run b c = .ok ledger d) :
    Reports b c.session ledger d.session := by
  obtain ⟨hmemory, e, hover, rfl, hsession⟩ := over_of_run hc hrun
  constructor
  · rw [Batch.usernames, Batch.firstUsernames, Nat.min_self]
    rfl
  · exact nodup_usernames b
  · exact hover.accounts
  · exact hover.cutShort_iff
  · exact cutShort_iff_ended hrun hmemory
  · exact hover.turn_iff
  · exact fun _ => madeBy_endOfTurn b _ _
  · exact fun _ => (madeBy_endOfTurn b _ _).logged
  · exact fun hturn hlast => (hover.last hturn hlast).trans hsession
  · exact fun hcount => (hover.nobody hcount).trans hsession

/-- The server creates the first of two accounts and hangs up. -/
theorem run_reports_hung_up :
    let script := ["> ", "Desired username: ", "Desired password: ", "Confirm password: ", "> ",
      "Desired character name: "].map (ServerAct.send ∘ Text.Utf8.bytes)
    let start := Session.start (.ofScript script none) {}
    ∃ ledger d, run (.usual 2) ⟨.empty, start⟩ = .ok ledger d ∧
      ledger = ⟨["unit1"], [], [], true⟩ ∧ Reports (.usual 2) start ledger d.session := by
  intro script start
  have hreport : succeeds (fun ledger _ => ledger = ⟨["unit1"], [], [], true⟩)
      (run (.usual 2) ⟨.empty, start⟩) = true := by decide +kernel
  obtain ⟨ledger, d, hrun, hledger⟩ := exists_of_succeeds hreport
  exact ⟨ledger, d, hrun, of_decide_eq_true hledger,
    run_reports (.usual 2) ⟨.empty, start⟩ (.empty _) hrun⟩

end MudDialogue.Signup
