import RiscvMachine.Proofs.Hart.Simulation

set_option autoImplicit false

/-! # Changes of the hart that a computation ignores

That a computation of the hart does not look at some part of it is an equation (`Exec.Ignores`): it
does the same over a hart in which that part is another, and leaves the change in it. It goes along
the definitions, as long as what is done to the hart commutes with the change, and what is seen of
it does not depend on it.
-/

namespace RiscvMachine

namespace Exec

variable {σ α β : Type}

/-- A result with a change made to the hart that is left. -/
def amended (change : Hart → Hart) :
    EStateM.Result Interruption (Core σ) α → EStateM.Result Interruption (Core σ) α
  | .ok a core => .ok a ⟨change core.hart, core.bus⟩
  | .error why core => .error why ⟨change core.hart, core.bus⟩

theorem hart_amended (change : Hart → Hart) (result : EStateM.Result Interruption (Core σ) α) :
    (stateOf (amended change result)).hart = change (stateOf result).hart := by
  cases result <;> rfl

theorem answer?_amended (change : Hart → Hart)
    (result : EStateM.Result Interruption (Core σ) α) :
    answer? (amended change result) = answer? result := by
  cases result <;> rfl

/-- The computation does the same over a changed hart, and leaves the change in it. -/
def Ignores (change : Hart → Hart) (x : Exec σ α) : Prop :=
  ∀ core : Core σ, x ⟨change core.hart, core.bus⟩ = amended change (x core)

section

variable {change : Hart → Hart}

theorem Ignores.pure (a : α) : Ignores change (Pure.pure a : Exec σ α) :=
  fun _ => rfl

theorem Ignores.raise (cause : Trap) : Ignores change (raise cause : Exec σ α) :=
  fun _ => rfl

theorem Ignores.onHart {f : Hart → Hart} (hf : ∀ h, f (change h) = change (f h)) :
    Ignores (σ := σ) change (onHart f) := by
  rintro ⟨hart, bus⟩
  simp only [Exec.onHart, amended, hf]

theorem Ignores.callBus (call : EStateM BusFault σ α) (cause : Trap) :
    Ignores change (callBus call cause) := by
  rintro ⟨hart, bus⟩
  unfold Exec.callBus
  simp only
  cases call bus with
  | ok value bus' => rfl
  | error fault bus' => cases fault <;> rfl

theorem Ignores.bind {x : Exec σ α} {f : α → Exec σ β} (hx : Ignores change x)
    (hf : ∀ a, Ignores change (f a)) : Ignores change (x >>= f) := by
  intro core
  simp only [Bind.bind, EStateM.bind, hx core]
  cases x core with
  | ok a core₁ => exact hf a core₁
  | error why core₁ => rfl

/-- What follows a look at the hart must not depend on the change. -/
theorem Ignores.getHart {f : Hart → Exec σ α} (hsame : ∀ h, f (change h) = f h)
    (hf : ∀ h, Ignores change (f h)) : Ignores change (getHart >>= f) := by
  intro core
  rw [getHart_bind_apply, getHart_bind_apply, hsame]
  exact hf core.hart core

/-- A change of the policy and of the exception on record is ignored as far as the changes that are
made to the hart commute with it. -/
theorem ignores_closed [Bus σ] {Allowed : Hart.Change → Prop}
    (hchange : ∀ h, ∃ policy last, change h = h.reset h.csr policy last)
    (hcommutes : ∀ c, Allowed c → ∀ h, c.apply (change h) = change (c.apply h)) :
    Closed (σ := σ) (τ := σ) (fun _ => True) Allowed fun _ x _ => Ignores change x where
  pure := .pure
  raise _ := .raise _
  bind := .bind
  look hheedless hf := .getHart
    (fun h => by
      obtain ⟨policy, last, heq⟩ := hchange h
      rw [heq, hheedless])
    fun h => hf h trivial
  peek _ _ := .getHart
    (fun h => by
      obtain ⟨policy, last, heq⟩ := hchange h
      rw [heq, Hart.reset])
    fun _ => .pure _
  change hallowed := .onHart (hcommutes _ hallowed)
  read _ _ := .callBus _ _
  write _ _ _ := .callBus _ _
  readCsr _ _ := .callBus _ _
  writeCsr _ _ _ := .callBus _ _

end

end Exec

end RiscvMachine
