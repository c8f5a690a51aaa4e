import Mathlib.Data.List.Nodup
import MudDialogue.Proofs.Client.Ending
import MudDialogue.Proofs.Session.Calls

/-!
# The dialogues of a batch

A batch that has a result held one dialogue after the other. Either each account had its dialogue
and met its fate, or the server hung up in the course of a dialogue, which was the last one. Before
each dialogue the report accounts for all accounts before.

## Main definitions

* `Ledger.AccountsFor` — a report accounts for some names.
* `Signup.endOfTurn` — the session at the end of a dialogue.
* `Signup.Underway`, `Signup.Over` — how a batch stands before a dialogue and when it is over.

## Main results

* `Signup.over_of_run` — a batch with a result is over.
-/

namespace MudDialogue.Signup

open ClientM Operation Session

/-! ### Reports -/

/-- A report accounts for some names: each of them is in one of its three lists, once, and in the
lists they are in order. -/
structure Ledger.AccountsFor (l : Ledger) (names : List String) : Prop where
  created : l.created.Sublist names
  taken : l.taken.Sublist names
  abandoned : l.abandoned.Sublist names
  once : (l.created ++ l.taken ++ l.abandoned).Nodup
  perm : (l.created ++ l.taken ++ l.abandoned).Perm names

namespace Ledger.AccountsFor

variable {l : Ledger} {names : List String}

theorem empty : Ledger.empty.AccountsFor [] :=
  ⟨.slnil, .slnil, .slnil, .nil, .nil⟩

theorem length_eq (h : l.AccountsFor names) : names.length = l.attempted := by
  rw [← h.perm.length_eq, List.length_append, List.length_append, attempted]

/-- One more name. -/
theorem record (h : l.AccountsFor names) {username : String} (hnew : username ∉ names)
    (fate : Fate) : (l.record username fate).AccountsFor (names ++ [username]) := by
  have hold {part : List String} (hpart : part.Sublist names) :
      part.Sublist (names ++ [username]) :=
    hpart.trans (List.sublist_append_left names [username])
  have hmore {part : List String} (hpart : part.Sublist names) :
      (part ++ [username]).Sublist (names ++ [username]) := hpart.append_right [username]
  have hperm : ((l.record username fate).created ++ (l.record username fate).taken ++
      (l.record username fate).abandoned).Perm (names ++ [username]) := by
    refine (List.perm_iff_count.mpr fun name => ?_).trans (h.perm.append_right [username])
    cases fate <;> simp only [Ledger.record, List.count_append] <;> omega
  have honce := hperm.nodup_iff.mpr <| by
    rw [← List.concat_eq_append, List.nodup_concat]
    exact ⟨hnew, h.perm.nodup_iff.mp h.once⟩
  cases fate with
  | created => exact ⟨hmore h.created, hold h.taken, hold h.abandoned, honce, hperm⟩
  | taken => exact ⟨hold h.created, hmore h.taken, hold h.abandoned, honce, hperm⟩
  | abandoned => exact ⟨hold h.created, hold h.taken, hmore h.abandoned, honce, hperm⟩

end Ledger.AccountsFor

theorem firstUsernames_succ {b : Batch} {n : Nat} (hn : n < b.count) :
    b.firstUsernames (n + 1) = b.firstUsernames n ++ [b.username (n + 1)] := by
  rw [Batch.firstUsernames, Batch.firstUsernames, Nat.min_eq_left hn,
    Nat.min_eq_left (Nat.le_of_lt hn), List.range'_1_concat, List.map_append, Nat.add_comm 1 n]
  rfl

/-- A name that comes later is not among the first ones. -/
theorem username_notMem_firstUsernames {b : Batch} {n : Nat} :
    b.username (n + 1) ∉ b.firstUsernames n := by
  intro hmem
  obtain ⟨m, hm, hname⟩ := List.mem_map.mp hmem
  obtain rfl := b.username_injective hname
  have hlt := (List.mem_range'_1.mp hm).2
  have hmin : min n b.count ≤ n := Nat.min_le_left n b.count
  omega

/-! ### Turns -/

variable {b : Batch} {start s t : Session} {n : Nat}

theorem Turn.le_count (h : Turn b start n s) : n ≤ b.count := by
  cases h with
  | first hcount => exact hcount
  | next hturn hcount hone => exact hcount

/-- The dialogues before one were held, too. -/
theorem Turn.exists_of_le (h : Turn b start n s) {m : Nat} (hpos : 0 < m) (hle : m ≤ n) :
    ∃ t, Turn b start m t := by
  induction h with
  | first hcount =>
    obtain rfl : m = 1 := Nat.le_antisymm hle hpos
    exact ⟨start, .first hcount⟩
  | @next n s fate c hturn hcount hone ih =>
    rcases Nat.le_succ_iff.mp hle with hle | rfl
    · exact ih hle
    · exact ⟨c.session, .next hturn hcount hone⟩

/-- The session at the end of the dialogue for the account with a given number. -/
def endOfTurn (b : Batch) (n : Nat) (s : Session) : Session :=
  (endState (createOne b (b.username n) ⟨.start, s⟩)).session

/-- **Whatever is done in a dialogue is for its own account**: what is said is one of its lines, and
what is whispered is the password. -/
theorem madeBy_endOfTurn (b : Batch) (n : Nat) (s : Session) :
    MadeBy (Signup.lines (b.username n)) b.password.reveal s (endOfTurn b n s) := by
  have hcalls := isBisimulation_madeBy (Signup.lines (b.username n)) b.password.reveal s
  exact kept_endState (alike_createOne (b := b) hcalls fun _ hline => hline) .refl

/-! ### The course of a batch -/

/-- How a batch stands before the dialogue with a given number: the report accounts for all accounts
before, and the session is as the last dialogue left it. -/
structure Underway (b : Batch) (start : Session) (number : Nat) (c : Client Ledger) : Prop where
  reachable : c.Reachable
  attempted : c.memory.attempted + 1 = number
  accounts : c.memory.AccountsFor (b.firstUsernames c.memory.attempted)
  whole : c.memory.cutShort = false
  turn : number ≤ b.count → Turn b start number c.session
  before : number = 1 ∧ c.session = start ∨
    ∃ n s, number = n + 1 ∧ Turn b start n s ∧ endOfTurn b n s = c.session

/-- How a batch is over: every account met its fate, or the server hung up in the course of a
dialogue. -/
inductive Over (b : Batch) (start : Session) (d : Client Ledger) : Prop where
  | done (h : Underway b start (b.count + 1) d)
  | hungUp {number : Nat} {c : Client Ledger} {e : Client Stage} (h : Underway b start number c)
      (hcount : number ≤ b.count)
      (hone : createOne b (b.username number) ⟨.start, c.session⟩ = .error .closed e)
      (hmemory : d.memory = { c.memory with cutShort := true })
      (hsession : Noted e.session d.session)

theorem Underway.first (hstart : start.backlog.Reachable) :
    Underway b start 1 ⟨.empty, start⟩ where
  reachable := hstart
  attempted := rfl
  accounts := by
    have hnone : b.firstUsernames Ledger.empty.attempted = [] := by
      rw [Batch.firstUsernames, show Ledger.empty.attempted = 0 from rfl, Nat.zero_min]
      rfl
    exact hnone ▸ .empty
  whole := rfl
  turn hcount := .first hcount
  before := .inl ⟨rfl, rfl⟩

/-- **One account after the other meets its fate.** -/
theorem Underway.next {number : Nat} {c : Client Ledger} {fate : Fate} {e : Client Stage}
    (h : Underway b start number c) (hcount : number ≤ b.count)
    (hone : createOne b (b.username number) ⟨.start, c.session⟩ = .ok (some fate) e) :
    Underway b start (number + 1) ⟨c.memory.record (b.username number) fate, e.session⟩ := by
  have hattempted : (c.memory.record (b.username number) fate).attempted = number := by
    rw [Ledger.attempted_record, h.attempted]
  obtain rfl : c.memory.attempted + 1 = number := h.attempted
  constructor
  · have hkeeps (n : Nat) : AlikeOver (Itself (Supplied n)) (fun _ => Itself (Supplied n))
        (createOne b (b.username (c.memory.attempted + 1)))
        (createOne b (b.username (c.memory.attempted + 1))) :=
      alike_createOne (isBisimulation_supplied n b.password.reveal) fun _ _ => trivial
    exact (supply_of_alike hkeeps (c := ⟨.start, c.session⟩) h.reachable hone).1
  · exact congrArg Nat.succ hattempted
  · rw [hattempted, firstUsernames_succ hcount]
    exact h.accounts.record username_notMem_firstUsernames fate
  · cases fate <;> exact h.whole
  · exact fun hmore => .next (h.turn hcount) hmore hone
  · refine .inr ⟨_, c.session, rfl, h.turn hcount, ?_⟩
    rw [endOfTurn, hone]
    rfl

/-- The account in whose dialogue the server hangs up was not attempted. -/
theorem Underway.attempted_of_hungUp {number : Nat} {c d : Client Ledger}
    (h : Underway b start number c) (hmemory : d.memory = { c.memory with cutShort := true }) :
    d.memory.attempted + 1 = number := by
  rw [hmemory]
  exact h.attempted

theorem over_of_createFrom {remaining number : Nat} {c d : Client Ledger}
    (h : createFrom b remaining number c = .ok () d) (hcount : number + remaining = b.count + 1)
    (hunder : Underway b start number c) : Over b start d := by
  induction remaining generalizing number c with
  | zero =>
    obtain ⟨-, rfl⟩ := eq_of_pure_ok h
    exact .done (hcount ▸ hunder)
  | succ remaining ih =>
    obtain ⟨fate?, c₁, hnext, h⟩ := exists_of_bind_ok h
    rw [createNext_apply] at hnext
    cases hone : createOne b (b.username number) ⟨.start, c.session⟩ with
    | error f e =>
      rw [hone] at hnext
      dsimp only at hnext
      split at hnext
      · rename_i hclosed
        obtain rfl := Failure.isClosed_iff.mp hclosed
        obtain ⟨rfl, rfl⟩ := EStateM.Result.ok.inj hnext
        obtain ⟨-, rfl⟩ := eq_of_pure_ok h
        exact .hungUp hunder (by omega) hone rfl (.note .refl .warn (.closing _ (by decide)))
      · cases hnext
    | ok outcome e =>
      rw [hone] at hnext
      obtain ⟨rfl, rfl⟩ := EStateM.Result.ok.inj hnext
      cases outcome with
      | none => exact absurd hone (createOne_ne_none (c := ⟨.start, c.session⟩) hunder.reachable)
      | some fate => exact ih h (by omega) (hunder.next (by omega) hone)

/-- **A batch with a result is over**, and the result is what it remembers. -/
theorem over_of_run {c d : Client Ledger} {ledger : Ledger} (hc : c.Reachable)
    (h : run b c = .ok ledger d) :
    d.memory = ledger ∧
      ∃ e, Over b c.session e ∧ e.memory = ledger ∧ Noted e.session d.session := by
  obtain ⟨_, c₁, hempty, h⟩ := exists_of_bind_ok h
  obtain ⟨-, rfl⟩ := EStateM.Result.ok.inj hempty
  obtain ⟨_, c₂, hall, h⟩ := exists_of_bind_ok h
  obtain ⟨_, c₃, hremembered, h⟩ := exists_of_bind_ok h
  obtain ⟨rfl, rfl⟩ := EStateM.Result.ok.inj hremembered
  obtain ⟨_, c₄, hnote, h⟩ := exists_of_bind_ok h
  obtain ⟨-, rfl⟩ := EStateM.Result.ok.inj hnote
  obtain ⟨rfl, rfl⟩ := eq_of_pure_ok h
  exact ⟨rfl, c₂, over_of_createFrom hall (Nat.add_comm 1 b.count) (.first hc), rfl,
    .note .refl .info (.closing _ (by decide))⟩

end MudDialogue.Signup
