import Mathlib

set_option autoImplicit false

/-! # Computations that may fail

A computation over a state answers or fails, and leaves a state either way. Two ways to speak of
that: what one computation comes to (`Ends`), and that two of them over different states do the
same (`Simulates`).
-/

namespace RiscvMachine

/-- What a computation comes to: an answer and a state of which `ok` holds, or a failure and a
state of which `error` holds. -/
inductive Ends {ε σ α : Type} (ok : α → σ → Prop) (error : ε → σ → Prop) :
    EStateM.Result ε σ α → Prop
  | ok {a : α} {s : σ} : ok a s → Ends ok error (.ok a s)
  | error {e : ε} {s : σ} : error e s → Ends ok error (.error e s)

theorem Ends.of_ok {ε σ α : Type} {ok : α → σ → Prop} {error : ε → σ → Prop} {a : α} {s : σ}
    (h : Ends ok error (.ok a s)) : ok a s := by
  cases h with
  | ok h => exact h

theorem Ends.of_error {ε σ α : Type} {ok : α → σ → Prop} {error : ε → σ → Prop} {e : ε} {s : σ}
    (h : Ends ok error (.error e s)) : error e s := by
  cases h with
  | error h => exact h

theorem Ends.imp {ε σ α : Type} {ok ok' : α → σ → Prop} {error error' : ε → σ → Prop}
    {result : EStateM.Result ε σ α} (h : Ends ok error result) (hok : ∀ a s, ok a s → ok' a s)
    (herror : ∀ e s, error e s → error' e s) : Ends ok' error' result := by
  cases h with
  | ok h => exact .ok (hok _ _ h)
  | error h => exact .error (herror _ _ h)

/-- Where what follows cannot fail, a failure is one of the first part. -/
theorem error_of_bind {ε σ α β : Type} {x : EStateM ε σ α} {f : α → EStateM ε σ β}
    (hf : ∀ a s, ∃ b s', f a s = .ok b s') {s s' : σ} {e : ε} (h : (x >>= f) s = .error e s') :
    x s = .error e s' := by
  simp only [Bind.bind, EStateM.bind] at h
  revert h
  cases x s with
  | error e' s₁ =>
      rintro ⟨⟩
      rfl
  | ok a s₁ =>
      intro h
      obtain ⟨b, s₂, hok⟩ := hf a s₁
      simp only [hok] at h
      cases h

/-- Both parts of a computation that succeeds have succeeded. -/
theorem ok_of_bind {ε σ α β : Type} {x : EStateM ε σ α} {f : α → EStateM ε σ β} {s s' : σ} {b : β}
    (h : (x >>= f) s = .ok b s') : ∃ a s₁, x s = .ok a s₁ ∧ f a s₁ = .ok b s' := by
  simp only [Bind.bind, EStateM.bind] at h
  revert h
  cases x s with
  | ok a s₁ => exact fun h => ⟨a, s₁, rfl, h⟩
  | error e s₁ => nofun

/-- The state that a computation leaves. -/
def stateOf {ε σ α : Type} : EStateM.Result ε σ α → σ
  | .ok _ s => s
  | .error _ s => s

/-! ## Computations that agree -/

section

variable {ε α β σ τ : Type}

/-- The same answer or the same failure, one of those in `E`, in related states. -/
def Agree (E : ε → Prop) (R : σ → τ → Prop) :
    EStateM.Result ε σ α → EStateM.Result ε τ α → Prop
  | .ok a s, .ok b t => a = b ∧ R s t
  | .error e s, .error f t => e = f ∧ E e ∧ R s t
  | _, _ => False

/-- The answer of a computation that succeeds. -/
def answer? : EStateM.Result ε σ α → Option α
  | .ok a _ => some a
  | .error _ _ => none

theorem eq_ok_of_answer? {x : EStateM.Result ε σ α} {a : α} (h : answer? x = some a) :
    x = .ok a (stateOf x) := by
  revert h
  cases x with
  | ok b s =>
      rintro ⟨⟩
      rfl
  | error e s => exact fun h => absurd h.symm (Option.some_ne_none a)

theorem exists_of_answer? {x : EStateM.Result ε σ α} {a : α} (h : answer? x = some a) :
    ∃ s, x = .ok a s :=
  ⟨_, eq_ok_of_answer? h⟩

theorem Agree.answer?_eq {E : ε → Prop} {R : σ → τ → Prop} {x : EStateM.Result ε σ α}
    {y : EStateM.Result ε τ α} (h : Agree E R x y) : answer? x = answer? y := by
  revert h
  cases x with
  | ok a s =>
      cases y with
      | ok b t => exact fun h => congrArg some h.1
      | error f t => exact False.elim
  | error e s =>
      cases y with
      | ok b t => exact False.elim
      | error f t => exact fun _ => rfl

theorem Agree.stateOf {E : ε → Prop} {R : σ → τ → Prop} {x : EStateM.Result ε σ α}
    {y : EStateM.Result ε τ α} (h : Agree E R x y) :
    R (RiscvMachine.stateOf x) (RiscvMachine.stateOf y) := by
  revert h
  cases x with
  | ok a s =>
      cases y with
      | ok b t => exact fun h => h.2
      | error f t => exact False.elim
  | error e s =>
      cases y with
      | ok b t => exact False.elim
      | error f t => exact fun h => h.2.2

/-- Computations that agree wherever they start in related states. -/
def Simulates (E : ε → Prop) (R : σ → τ → Prop) (x : EStateM ε σ α) (y : EStateM ε τ α) :
    Prop :=
  ∀ s t, R s t → Agree E R (x s) (y t)

namespace Simulates

variable {E : ε → Prop} {R : σ → τ → Prop}

theorem pure (a : α) : Simulates E R (Pure.pure a) (Pure.pure a) :=
  fun _ _ h => ⟨rfl, h⟩

theorem bind {x : EStateM ε σ α} {y : EStateM ε τ α} {f : α → EStateM ε σ β}
    {g : α → EStateM ε τ β} (h : Simulates E R x y)
    (hrest : ∀ a, Simulates E R (f a) (g a)) : Simulates E R (x >>= f) (y >>= g) := by
  intro s t hst
  have hfirst := h s t hst
  simp only [Bind.bind, EStateM.bind]
  -- results of different kinds do not agree, which leaves two of the four pairs
  revert hfirst
  cases x s with
  | ok a s' =>
      cases y t with
      | ok b t' =>
          rintro ⟨rfl, hst'⟩
          exact hrest a s' t' hst'
      | error e t' => exact False.elim
  | error e s' =>
      cases y t with
      | ok b t' => exact False.elim
      | error f t' =>
          rintro ⟨rfl, hE, hst'⟩
          exact ⟨rfl, hE, hst'⟩

/-- Computations that agree and can fail with nothing succeed. -/
theorem succeeds {x : EStateM ε σ α} {y : EStateM ε τ α}
    (h : Simulates (fun _ => False) R x y) {s : σ} {t : τ} (hst : R s t) :
    ∃ a s' t', x s = .ok a s' ∧ y t = .ok a t' ∧ R s' t' := by
  have hagree := h s t hst
  revert hagree
  cases x s with
  | ok a s' =>
      cases y t with
      | ok b t' =>
          rintro ⟨rfl, hst'⟩
          exact ⟨a, s', t', rfl, rfl, hst'⟩
      | error f t' => exact False.elim
  | error e s' =>
      cases y t with
      | ok b t' => exact False.elim
      | error f t' => exact fun hagree => hagree.2.1.elim

end Simulates

end

end RiscvMachine
