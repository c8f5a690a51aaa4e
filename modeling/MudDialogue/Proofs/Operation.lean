/-!
# Operations that keep a state and may fail

How the operations of sessions and clients take their parts one after the other: what a sequence
comes to, and what its parts did when it has a result.
-/

namespace MudDialogue.Operation

variable {ε σ α β : Type}

theorem bind_apply (x : EStateM ε σ α) (f : α → EStateM ε σ β) (s : σ) :
    (x >>= f) s = match x s with
      | .ok a t => f a t
      | .error e t => .error e t := rfl

theorem bind_of_ok {x : EStateM ε σ α} {f : α → EStateM ε σ β} {s t : σ} {a : α}
    (h : x s = .ok a t) : (x >>= f) s = f a t := by
  rw [bind_apply, h]

theorem get_apply (s : σ) : (get : EStateM ε σ σ) s = .ok s s := rfl

theorem set_apply (s t : σ) : (set t : EStateM ε σ PUnit) s = .ok ⟨⟩ t := rfl

theorem modify_apply (f : σ → σ) (s : σ) :
    (modify f : EStateM ε σ PUnit) s = .ok ⟨⟩ (f s) := rfl

theorem tryCatch_apply (x : EStateM ε σ α) (handle : ε → EStateM ε σ α) (s : σ) :
    (tryCatch x handle) s = match x s with
      | .ok a t => .ok a t
      | .error e t => handle e t := by
  change EStateM.tryCatch x handle s = _
  unfold EStateM.tryCatch
  cases x s <;> rfl

/-- When a sequence has a result, both of its parts have one. -/
theorem exists_of_bind_ok {x : EStateM ε σ α} {f : α → EStateM ε σ β} {s t : σ} {b : β}
    (h : (x >>= f) s = .ok b t) : ∃ a u, x s = .ok a u ∧ f a u = .ok b t := by
  rw [bind_apply] at h
  cases hx : x s with
  | ok a u =>
    rw [hx] at h
    exact ⟨a, u, rfl, h⟩
  | error e u =>
    rw [hx] at h
    cases h

theorem eq_of_pure_ok {a b : α} {s t : σ} (h : (pure a : EStateM ε σ α) s = .ok b t) :
    a = b ∧ s = t :=
  EStateM.Result.ok.inj h

/-! ### Looking at what an operation came to -/

/-- The state that an operation leaves, whether it fails or not. -/
def endState : EStateM.Result ε σ α → σ
  | .ok _ s | .error _ s => s

/-- There is a result, and it is of a kind. -/
def succeeds (p : α → σ → Bool) : EStateM.Result ε σ α → Bool
  | .ok a s => p a s
  | .error _ _ => false

/-- There is a failure, and it is of a kind. -/
def fails (p : ε → σ → Bool) : EStateM.Result ε σ α → Bool
  | .ok _ _ => false
  | .error e s => p e s

theorem exists_of_succeeds {p : α → σ → Bool} {r : EStateM.Result ε σ α}
    (h : succeeds p r = true) : ∃ a s, r = .ok a s ∧ p a s = true := by
  cases r with
  | ok a s => exact ⟨a, s, rfl, h⟩
  | error e s => cases h

theorem exists_of_fails {p : ε → σ → Bool} {r : EStateM.Result ε σ α} (h : fails p r = true) :
    ∃ e s, r = .error e s ∧ p e s = true := by
  cases r with
  | ok a s => cases h
  | error e s => exact ⟨e, s, rfl, h⟩

end MudDialogue.Operation
