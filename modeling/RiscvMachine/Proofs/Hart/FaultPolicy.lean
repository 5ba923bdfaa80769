import RiscvMachine.Proofs.Hart.Ignores
import RiscvMachine.Proofs.Hart.Interrupts

set_option autoImplicit false

/-! # Fault policies

The policy is looked at when an instruction has raised an exception, and nowhere else: every
instruction does the same under any policy (`Exec.executeOne_unaware`). So a batch that fails fast
and one that delegates go the same way up to the exception that ends the first, which the second
hands to the guest (`Core.batch_delegates`). Neither the timer, nor the wait, nor an interrupt looks
at the policy, so the same holds of whole steps (`Core.step_delegates`).
-/

namespace RiscvMachine

namespace Hart

/-- The hart under another policy, and with another exception on record. -/
def withPolicy (h : Hart) (policy : FaultPolicy) (last : Option Trap) : Hart :=
  { h with faultPolicy := policy, lastFault := last }

/-- No instruction looks at the policy or at the exception on record, or changes them. -/
theorem apply_withPolicy (change : Change) (h : Hart) (policy : FaultPolicy)
    (last : Option Trap) :
    change.apply (h.withPolicy policy last) = (change.apply h).withPolicy policy last := by
  have hresult (rd : RegIndex) (value pc : UInt32) :
      { (h.withPolicy policy last).setRegister rd value with pc := pc } =
        { h.setRegister rd value with pc := pc }.withPolicy policy last := by
    unfold setRegister
    split <;> rfl
  cases change with
  | finish rd value => exact hresult rd value _
  | link rd target => exact hresult rd _ target
  | drop addr =>
      have hsame : (h.withPolicy policy last).reservation = h.reservation := rfl
      simp only [Change.apply, hsame]
      split <;> rfl
  | _ => rfl

end Hart

/-! ## Instructions -/

/-- An instruction does the same under any policy. -/
theorem Exec.executeOne_unaware {σ : Type} [Bus σ] (policy : FaultPolicy) (last : Option Trap) :
    Ignores (σ := σ) (·.withPolicy policy last) executeOne :=
  executeOne_closed
    (ignores_closed (fun _ => ⟨policy, last, rfl⟩) fun change _ h =>
      h.apply_withPolicy change policy last)
    (.onHart fun _ => rfl)

/-! ## Batches and steps -/

theorem Outcome.ofPower_ne_fault (value : UInt32) : ofPower value ≠ .fault := by
  unfold ofPower
  split
  · nofun
  split <;> nofun

namespace Core

variable {σ : Type}

def under (policy : FaultPolicy) (c : Core σ) : Core σ :=
  ⟨c.hart.withPolicy policy c.hart.lastFault, c.bus⟩

/-- How the end of a run that delegates follows from that of a run that fails fast. Both began with
the exception `last` on record, which the delegating one keeps. The bus is in the same state. -/
inductive Delegated (last : Option Trap) :
    EStateM.Result StorageError (Core σ) Outcome → EStateM.Result StorageError (Core σ) Outcome →
      Prop
  /-- The exception on record has entered the guest's handler. -/
  | fault {h : Hart} {bus : σ} {cause : Trap} : h.lastFault = some cause →
      Delegated last (.ok .fault ⟨h, bus⟩)
        (.ok .ran ⟨(h.enterTrap cause).withPolicy .delegate last, bus⟩)
  | other {h : Hart} {bus : σ} {outcome : Outcome} : outcome ≠ .fault →
      Delegated last (.ok outcome ⟨h, bus⟩) (.ok outcome ⟨h.withPolicy .delegate last, bus⟩)
  | storage {h : Hart} {bus : σ} {error : StorageError} :
      Delegated last (.error error ⟨h, bus⟩) (.error error ⟨h.withPolicy .delegate last, bus⟩)

theorem Delegated.of_fault {last : Option Trap} {f : Core σ}
    {slow : EStateM.Result StorageError (Core σ) Outcome} (h : Delegated last (.ok .fault f) slow) :
    ∃ cause, f.hart.lastFault = some cause ∧
      slow = .ok .ran ⟨(f.hart.enterTrap cause).withPolicy .delegate last, f.bus⟩ := by
  cases h with
  | fault hcause => exact ⟨_, hcause, rfl⟩
  | other hne => exact absurd rfl hne

variable [Bus σ]

/-- Two batches, instruction by instruction. -/
theorem batch_delegates (last : Option Trap) (n : Nat) (h : Hart) (bus : σ) :
    Delegated last (batch n ⟨h.withPolicy .failFast last, bus⟩)
      (batch n ⟨h.withPolicy .delegate last, bus⟩) := by
  induction n generalizing h bus with
  | zero => exact .other (h := h.withPolicy .failFast last) (by decide)
  | succ n ih =>
      -- both instructions end as the one over `h` does, and its end decides how the batches go on
      have hone (policy : FaultPolicy) :
          Exec.executeOne ⟨h.withPolicy policy last, bus⟩ =
            Exec.amended (·.withPolicy policy last) (Exec.executeOne ⟨h, bus⟩) :=
        Exec.executeOne_unaware policy last ⟨h, bus⟩
      simp only [batch, hone]
      cases Exec.executeOne (⟨h, bus⟩ : Core σ) with
      | ok flow core =>
          obtain ⟨h₁, bus₁⟩ := core
          cases flow with
          | next => exact ih h₁ bus₁
          | wait => exact .other (h := h₁.withPolicy .failFast last) (by decide)
          | power value =>
              exact .other (h := h₁.withPolicy .failFast last) (Outcome.ofPower_ne_fault value)
      | error why core =>
          obtain ⟨h₁, bus₁⟩ := core
          cases why with
          | storage error => exact .storage (h := h₁.withPolicy .failFast last)
          | trap cause => exact .fault (h := h₁.withPolicy .failFast (some cause)) rfl

theorem step_under (policy : FaultPolicy) (limit : UInt32) (elapsed : UInt64) (c : Core σ) :
    step limit elapsed (c.under policy) =
      if (c.hart.advanceTimer elapsed).waiting then
        .ok .waitForInterrupt
          ⟨(c.hart.advanceTimer elapsed).withPolicy policy c.hart.lastFault, c.bus⟩
      else match (c.hart.advanceTimer elapsed).pendingInterrupt with
        | some cause =>
          .ok .ran ⟨((c.hart.advanceTimer elapsed).enterTrap cause).withPolicy policy
            c.hart.lastFault, c.bus⟩
        | none =>
          batch limit.toNat
            ⟨(c.hart.advanceTimer elapsed).withPolicy policy c.hart.lastFault, c.bus⟩ :=
  rfl

/-- A step that fails fast and one that delegates, from the same state over any bus. They make the
same calls on it. Where the first ends with a fault, the second hands the exception to the guest in
the state that the first has left, and otherwise they end alike, in states that differ in the policy
only. An interrupt that is taken is handed to the guest under either policy. -/
theorem step_delegates (limit : UInt32) (elapsed : UInt64) (c : Core σ) :
    Delegated c.hart.lastFault (step limit elapsed (c.under .failFast).traced)
      (step limit elapsed (c.under .delegate).traced) ∧
    ∀ policy cause, (c.hart.advanceTimer elapsed).waiting = false →
      (c.hart.advanceTimer elapsed).Due cause →
      step limit elapsed (c.under policy).traced =
        .ok .ran (traced
          ⟨((c.hart.advanceTimer elapsed).enterTrap cause).withPolicy policy c.hart.lastFault,
            c.bus⟩) := by
  have hunder (policy : FaultPolicy) : (c.under policy).traced = c.traced.under policy := rfl
  simp only [hunder]
  constructor
  · rw [step_under, step_under]
    split
    · exact .other (h := (c.hart.advanceTimer elapsed).withPolicy .failFast c.hart.lastFault) nofun
    split
    · rename_i cause _
      exact .other (h :=
        ((c.hart.advanceTimer elapsed).enterTrap cause).withPolicy .failFast c.hart.lastFault) nofun
    · exact batch_delegates _ _ _ _
  · intro policy cause hawake hdue
    rw [step_under, if_neg (by simp [traced, hawake]),
      show (c.traced.hart.advanceTimer elapsed).pendingInterrupt = some cause from
        Hart.pendingInterrupt_eq_some_iff.mpr hdue]
    rfl

/-- A word that is no instruction, and an interrupt that is taken under either policy. -/
theorem step_delegates_illegal :
    let enabled : ControlRegisters :=
      { mstatus := Mstatus.mie, mie := Mip.external, mip := Mip.external }
    let c : Core Rom := ⟨Hart.new 4096 .delegate, ⟨0⟩⟩
    let interrupted : Core Rom := ⟨{ c.hart with csr := enabled }, c.bus⟩
    (∃ f, step 8 0 (c.under .failFast).traced = .ok .fault f ∧
      f.hart.lastFault = some (.illegalInstruction 0) ∧
      f.bus.calls = [⟨.read .word 0x80000000, none⟩] ∧
      step 8 0 (c.under .delegate).traced = .ok .ran
        ⟨(f.hart.enterTrap (.illegalInstruction 0)).withPolicy .delegate none, f.bus⟩) ∧
    ∀ policy, step 8 0 (interrupted.under policy).traced = .ok .ran (traced
      ⟨((interrupted.hart.advanceTimer 0).enterTrap .machineExternalInterrupt).withPolicy policy
        none, c.bus⟩) := by
  intro enabled c interrupted
  have hdue : (interrupted.hart.advanceTimer 0).Due .machineExternalInterrupt :=
    ⟨.inr (by decide), by decide, [], _, rfl, nofun⟩
  constructor
  · have hfast : step 8 0 (c.under .failFast).traced =
        .ok .fault (stateOf (step 8 0 (c.under .failFast).traced)) := eq_ok_of_answer? (by decide)
    have hlast : (stateOf (step 8 0 (c.under .failFast).traced)).hart.lastFault =
        some (.illegalInstruction 0) := by decide
    have hends := (step_delegates 8 0 c).1
    rw [hfast] at hends
    obtain ⟨cause, hcause, hslow⟩ := hends.of_fault
    obtain rfl : .illegalInstruction 0 = cause := Option.some.inj (hlast.symm.trans hcause)
    exact ⟨_, hfast, hlast, by decide, hslow⟩
  · exact fun policy => (step_delegates 8 0 interrupted).2 policy _ (by decide) hdue

end Core

end RiscvMachine
