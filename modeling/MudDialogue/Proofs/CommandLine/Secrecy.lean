import MudDialogue.Proofs.Client.SideBySide
import MudDialogue.Proofs.Session.Secrecy

/-!
# Passwords do not show

A client sends its password and does nothing else with it. If the same client is run with another
password over the same session, everything is as before but for what the server has taken at the
places where the password is sent: what the client comes to, what it remembers, when things happen,
what is read and what is left unread, and every message in the log.

## Main results

* `Program.hides_password` — two runs that differ in the password.
-/

namespace MudDialogue.Program

open Text Operation

/-- Two runs of a client come to the same, it remembers the same, and the sessions are the same but
for the two secrets where they were sent. -/
abbrev SameBut (p q : Secret) {σ α : Type} (r r' : EStateM.Result Failure (Client σ) α) : Prop :=
  Agree (Client.Beside (Session.SameBut p.reveal q.reveal))
    (fun _ => Client.Beside (Session.SameBut p.reveal q.reveal)) r r'

/-- **Passwords do not show.** A login, the creation of an account, a batch of them and the two
programs come to the same with either of two passwords, over any session, unless the server takes no
more than a number of bytes and the passwords are of different lengths. The sessions are the same
afterwards, the log and the random words that were drawn included, but for the secrets in the record
of what was written. Nor do the descriptions of credentials and batches show the password. -/
theorem hides_password (p q : Secret) (s : Session)
    (hroom : s.peer.room? = none ∨
      (Utf8.bytes p.reveal).length = (Utf8.bytes q.reveal).length) :
    (∀ (c : Credentials) (stage : Login.Stage),
      SameBut p q (Login.run { c with password := p } ⟨stage, s⟩)
        (Login.run { c with password := q } ⟨stage, s⟩)) ∧
    (∀ (b : Batch) (username : String) (stage : Signup.Stage),
      SameBut p q (Signup.createOne { b with password := p } username ⟨stage, s⟩)
        (Signup.createOne { b with password := q } username ⟨stage, s⟩)) ∧
    (∀ (b : Batch) (ledger : Signup.Ledger),
      SameBut p q (Signup.run { b with password := p } ⟨ledger, s⟩)
        (Signup.run { b with password := q } ⟨ledger, s⟩)) ∧
    (∀ (c : Credentials) (limit? : Option Nat) (walk : Wander.Walk),
      SameBut p q (wander { c with password := p } limit? ⟨walk, s⟩)
        (wander { c with password := q } limit? ⟨walk, s⟩)) ∧
    (∀ (b : Batch) (ledger : Signup.Ledger),
      SameBut p q (provision { b with password := p } ⟨ledger, s⟩)
        (provision { b with password := q } ⟨ledger, s⟩)) ∧
    (∀ c : Credentials, Credentials.describe { c with password := p } =
      Credentials.describe { c with password := q }) ∧
    ∀ b : Batch, Batch.describe { b with password := p } =
      Batch.describe { b with password := q } := by
  have hsessions := Session.isBisimulation_sameBut p.reveal q.reveal
  have hself {σ : Type} (m : σ) :
      Client.Beside (Session.SameBut p.reveal q.reveal) ⟨m, s⟩ ⟨m, s⟩ := ⟨rfl, .refl hroom⟩
  refine ⟨fun c stage => ?_, fun b username stage => ?_, fun b ledger => ?_,
    fun c limit? walk => ?_, fun b ledger => ?_, fun c => rfl, fun b => rfl⟩
  · exact Login.alike_run hsessions (fun _ _ => trivial) _ _ (hself stage)
  · exact Signup.alike_createOne hsessions (fun _ _ => trivial) _ _ (hself stage)
  · exact Signup.alike_run hsessions (fun _ _ _ => trivial) _ _ (hself ledger)
  · exact alike_wander hsessions (fun _ _ => trivial) (fun _ _ => trivial) limit? _ _ (hself walk)
  · exact alike_provision hsessions (fun _ _ _ => trivial) _ _ (hself ledger)

/-- The server takes ten bytes and cuts the one password off as it does the other. -/
theorem hides_password_cut_off :
    let script := ["> ", "Username: ", "Password: "].map (ServerAct.send ∘ Utf8.bytes)
    let s := Session.start (.ofScript script (some 10)) {}
    let walk := Wander.Walk.start (.ofList [])
    let run (password : String) := wander ⟨"mud", 23, "ann", ⟨password⟩⟩ none ⟨walk, s⟩
    SameBut ⟨"secret"⟩ ⟨"hidden"⟩ (run "secret") (run "hidden") ∧
      (endState (run "secret")).session.peer.written = Utf8.bytes "l\r\nann\r\nse" ∧
      (endState (run "hidden")).session.peer.written = Utf8.bytes "l\r\nann\r\nhi" := by
  intro script s walk run
  have hlength : (Utf8.bytes "secret").length = (Utf8.bytes "hidden").length := by decide +kernel
  obtain ⟨-, -, -, hwander, -⟩ := hides_password ⟨"secret"⟩ ⟨"hidden"⟩ s (.inr hlength)
  exact ⟨hwander ⟨"mud", 23, "ann", ⟨""⟩⟩ none walk, by decide +kernel, by decide +kernel⟩

end MudDialogue.Program
