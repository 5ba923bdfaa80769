import RiscvMachine.Proofs.Hart.Walk

set_option autoImplicit false

/-! # Buses that answer alike

The hart learns about its surroundings through bus calls alone. So if the states of two buses are
related in such a way that every aligned call is answered alike and leaves related states
(`BusSimulation`), instructions, batches and steps do the same to the hart over either bus
(`executeOne_simulates`, `batch_simulates`, `step_simulates`).

That computations over the two buses do the same is kept by all that an instruction is made of
(`simulates_closed`), and so holds of every instruction.
-/

namespace RiscvMachine

/-! ## The building blocks of an instruction -/

/-- A relation between the states of two buses under which they answer alike, and fail only with
faults in `E`. -/
structure BusSimulation {σ τ : Type} [Bus σ] [Bus τ] (E : BusFault → Prop) (R : σ → τ → Prop) :
    Prop where
  read {width : Width} {addr : UInt32} : width.aligned addr →
    Simulates E R (Bus.read width addr) (Bus.read width addr)
  write {width : Width} {addr : UInt32} (value : UInt32) : width.aligned addr →
    Simulates E R (Bus.write width addr value) (Bus.write width addr value)
  readCsr (number : UInt32) : Simulates E R (Bus.readCsr number) (Bus.readCsr number)
  writeCsr (number value : UInt32) :
    Simulates E R (Bus.writeCsr number value) (Bus.writeCsr number value)

/-- The interruptions that bus faults in `E` may lead to. Any instruction may trap. -/
def Interruption.Within (E : BusFault → Prop) : Interruption → Prop
  | .trap _ => True
  | .storage error => E (.storage error)

namespace Exec

variable {σ τ α : Type} {E : BusFault → Prop} {R : σ → τ → Prop}

/-- The same hart over related buses. -/
def Related (R : σ → τ → Prop) (core : Core σ) (core' : Core τ) : Prop :=
  core.hart = core'.hart ∧ R core.bus core'.bus

theorem getHart_simulates : Simulates (Interruption.Within E) (Related R) getHart getHart := by
  rintro ⟨hart, bus⟩ ⟨_, bus'⟩ ⟨rfl, hR⟩
  exact ⟨rfl, rfl, hR⟩

theorem onHart_simulates (change : Hart → Hart) :
    Simulates (Interruption.Within E) (Related R) (onHart change) (onHart change) := by
  rintro ⟨hart, bus⟩ ⟨_, bus'⟩ ⟨rfl, hR⟩
  exact ⟨rfl, rfl, hR⟩

theorem raise_simulates (cause : Trap) :
    Simulates (α := α) (Interruption.Within E) (Related R) (raise cause) (raise cause) :=
  fun _ _ h => ⟨rfl, trivial, h⟩

theorem callBus_simulates {call : EStateM BusFault σ α} {call' : EStateM BusFault τ α}
    (h : Simulates E R call call') (cause : Trap) :
    Simulates (Interruption.Within E) (Related R) (callBus call cause) (callBus call' cause) := by
  rintro ⟨hart, bus⟩ ⟨_, bus'⟩ ⟨rfl, hR⟩
  have hcall := h bus bus' hR
  unfold callBus
  simp only
  revert hcall
  cases call bus with
  | ok a s =>
      cases call' bus' with
      | ok b t =>
          rintro ⟨rfl, hR'⟩
          exact ⟨rfl, rfl, hR'⟩
      | error f t => exact False.elim
  | error e s =>
      cases call' bus' with
      | ok b t => exact False.elim
      | error f t =>
          rintro ⟨rfl, hE, hR'⟩
          cases e with
          | unmapped => exact ⟨rfl, trivial, rfl, hR'⟩
          | storage error => exact ⟨rfl, hE, rfl, hR'⟩

variable [Bus σ] [Bus τ]

theorem simulates_closed (hR : BusSimulation E R) :
    Closed (fun _ => True) (fun _ => True)
      fun α => Simulates (α := α) (Interruption.Within E) (Related R) where
  pure a := .pure a
  raise _ := raise_simulates _
  bind := .bind
  look _ hf := getHart_simulates.bind fun h => hf h trivial
  peek _ _ := getHart_simulates.bind fun _ => .pure _
  change _ := onHart_simulates _
  read haligned _ := callBus_simulates (hR.read haligned) _
  write value haligned _ := callBus_simulates (hR.write value haligned) _
  readCsr number _ := callBus_simulates (hR.readCsr number) _
  writeCsr number value _ := callBus_simulates (hR.writeCsr number value) _

theorem fetch_simulates (hR : BusSimulation E R) :
    Simulates (Interruption.Within E) (Related R) (fetch : Exec σ UInt32)
      (fetch : Exec τ UInt32) :=
  fetch_closed (simulates_closed hR) (onHart_simulates _)

/-- One instruction does the same over related buses. -/
theorem executeOne_simulates (hR : BusSimulation E R) :
    Simulates (Interruption.Within E) (Related R) (executeOne : Exec σ Flow)
      (executeOne : Exec τ Flow) :=
  executeOne_closed (simulates_closed hR) (onHart_simulates _)

end Exec

/-! ## Batches and steps -/

namespace Core

variable {σ τ : Type} {E : BusFault → Prop} {R : σ → τ → Prop} [Bus σ] [Bus τ]

/-- A batch does the same over related buses. -/
theorem batch_simulates (hR : BusSimulation E R) (n : Nat) :
    Simulates (fun error => E (.storage error)) (Exec.Related R) (batch n) (batch n) := by
  induction n with
  | zero => exact .pure Outcome.ran
  | succ n ih =>
      intro core core' hcore
      have hone := Exec.executeOne_simulates hR core core' hcore
      unfold batch
      revert hone
      cases Exec.executeOne core with
      | ok flow core₁ =>
          cases Exec.executeOne core' with
          | error why core₂ => exact False.elim
          | ok flow' core₂ =>
              rintro ⟨rfl, hcore'⟩
              cases flow with
              | next => exact ih core₁ core₂ hcore'
              | wait => exact ⟨rfl, hcore'⟩
              | power value => exact ⟨rfl, hcore'⟩
      | error why core₁ =>
          cases Exec.executeOne core' with
          | ok flow' core₂ => exact False.elim
          | error why' core₂ =>
              rintro ⟨rfl, hE, hcore'⟩
              cases why with
              | storage error => exact ⟨rfl, hE, hcore'⟩
              | trap cause =>
                  -- what becomes of a trap is the hart's own affair
                  obtain ⟨hart, bus⟩ := core₁
                  obtain ⟨hart', bus'⟩ := core₂
                  obtain ⟨rfl, hbus⟩ := hcore'
                  exact ⟨rfl, rfl, hbus⟩

/-- A step does the same over related buses. -/
theorem step_simulates (hR : BusSimulation E R) (limit : UInt32) (elapsed : UInt64) :
    Simulates (fun error => E (.storage error)) (Exec.Related R) (step limit elapsed)
      (step limit elapsed) := by
  rintro ⟨hart, bus⟩ ⟨_, bus'⟩ ⟨rfl, hbus⟩
  unfold step
  simp only
  split
  · exact ⟨rfl, rfl, hbus⟩
  · split
    · exact ⟨rfl, rfl, hbus⟩
    · exact batch_simulates hR _ _ _ ⟨rfl, hbus⟩

end Core

end RiscvMachine
