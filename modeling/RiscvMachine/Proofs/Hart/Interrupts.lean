import RiscvMachine.Proofs.Hart.Invariants
import RiscvMachine.Proofs.Machine.History

set_option autoImplicit false

/-! # Interrupts

`Hart.Due` says which interrupt is to be taken: one that the hart accepts, that is pending and
enabled, and that no other such interrupt comes before. It is what `Hart.pendingInterrupt` finds
(`Hart.pendingInterrupt_eq_some_iff`).

Interrupts are taken between batches only, since what cuts an instruction short is an exception
(`Exec.executeOne_raises`). A step takes the interrupt that is due and executes nothing, unless
the hart waits: then only the timer ends the wait, and another interrupt that is due is not taken
(`Core.step_takes_due`).
-/

namespace RiscvMachine

namespace Trap

/-- The place of an interrupt's bit in `mip` and `mie`: its number without the highest bit. -/
def place (cause : Trap) : Nat :=
  cause.code.toNat % 2 ^ 31

end Trap

/-! ## The interrupt that is due -/

/-- A mask of one bit tests that bit. -/
theorem and_mask_ne_zero {v mask : UInt32} {n : Nat} (hmask : mask.toNat = 2 ^ n) :
    (v &&& mask != 0) = v.toNat.testBit n := by
  have hand : (v &&& mask).toNat = (v.toNat.testBit n).toNat * 2 ^ n := by
    rw [UInt32.toNat_and, hmask, Nat.and_two_pow]
  cases hbit : v.toNat.testBit n with
  | false =>
      rw [hbit, Bool.toNat_false, Nat.zero_mul] at hand
      have hzero : v &&& mask = 0 := UInt32.toNat_inj.mp hand
      rw [hzero]
      rfl
  | true =>
      rw [hbit, Bool.toNat_true, Nat.one_mul] at hand
      have hne : v &&& mask ≠ 0 := by
        intro hzero
        rw [hzero] at hand
        exact absurd hand.symm (Nat.two_pow_pos n).ne'
      exact bne_iff_ne.mpr hne

namespace Hart

/-- The interrupt is pending and enabled. -/
def Requested (h : Hart) (cause : Trap) : Prop :=
  h.csr.mip.toNat.testBit cause.place = true ∧ h.csr.mie.toNat.testBit cause.place = true

instance (h : Hart) (cause : Trap) : Decidable (h.Requested cause) :=
  inferInstanceAs (Decidable (_ ∧ _))

/-- The interrupt is to be taken: interrupts are accepted, in user mode always and in machine mode
if they are enabled, and of those that are requested this one is the first. -/
structure Due (h : Hart) (cause : Trap) : Prop where
  accepted : h.privilege = .user ∨ h.csr.mstatus.toNat.testBit 3 = true
  requested : h.Requested cause
  first : ∃ before after, Trap.interrupts = before ++ cause :: after ∧
    ∀ other ∈ before, ¬ h.Requested other

theorem acceptsInterrupts_iff (h : Hart) :
    h.acceptsInterrupts = true ↔ h.privilege = .user ∨ h.csr.mstatus.toNat.testBit 3 = true := by
  unfold acceptsInterrupts
  rw [Bool.or_eq_true, beq_iff_eq, and_mask_ne_zero (n := 3) rfl]

theorem requested_iff (h : Hart) (cause : Trap) (mask : UInt32)
    (hmask : mask.toNat = 2 ^ cause.place) :
    (h.csr.mip &&& h.csr.mie &&& mask != 0) = true ↔ h.Requested cause := by
  rw [and_mask_ne_zero hmask, UInt32.toNat_and, Nat.testBit_and, Bool.and_eq_true]
  exact Iff.rfl

/-- The choice of the interrupt as a search in the list of the interrupts. -/
theorem pendingInterrupt_eq (h : Hart) :
    h.pendingInterrupt =
      if h.acceptsInterrupts then Trap.interrupts.find? fun cause => h.Requested cause
      else none := by
  have hexternal := h.requested_iff .machineExternalInterrupt Mip.external rfl
  have hsoftware := h.requested_iff .machineSoftwareInterrupt Mip.software rfl
  have htimer := h.requested_iff .machineTimerInterrupt Mip.timer rfl
  unfold pendingInterrupt Trap.interrupts
  simp only [hexternal, hsoftware, htimer, List.find?_cons, List.find?_nil]
  cases h.acceptsInterrupts with
  | false => rfl
  | true =>
      by_cases h₁ : h.Requested .machineExternalInterrupt
      · simp [h₁]
      by_cases h₂ : h.Requested .machineSoftwareInterrupt
      · simp [h₁, h₂]
      by_cases h₃ : h.Requested .machineTimerInterrupt <;> simp [h₁, h₂, h₃]

theorem pendingInterrupt_eq_some_iff {h : Hart} {cause : Trap} :
    h.pendingInterrupt = some cause ↔ h.Due cause := by
  rw [pendingInterrupt_eq, Option.ite_none_right_eq_some, acceptsInterrupts_iff,
    List.find?_eq_some_iff_append]
  simp only [decide_eq_true_eq, Bool.not_eq_true', decide_eq_false_iff_not]
  exact ⟨fun ⟨haccepted, hrequested, hfirst⟩ => ⟨haccepted, hrequested, hfirst⟩,
    fun ⟨haccepted, hrequested, hfirst⟩ => ⟨haccepted, hrequested, hfirst⟩⟩

theorem pendingInterrupt_eq_none_iff {h : Hart} :
    h.pendingInterrupt = none ↔ ∀ cause, ¬ h.Due cause := by
  simp only [← pendingInterrupt_eq_some_iff]
  exact Option.eq_none_iff_forall_ne_some

/-- The hart waits, and the timer does not end the wait within the time that passes. -/
def Sleeps (h : Hart) (elapsed : UInt64) : Prop :=
  h.waiting = true ∧ ¬ (h.csr.timerMatch ≠ 0 ∧ h.csr.timerMatch ≤ h.csr.timer + elapsed)

instance (h : Hart) (elapsed : UInt64) : Decidable (h.Sleeps elapsed) :=
  inferInstanceAs (Decidable (_ ∧ _))

theorem waiting_advanceTimer_iff (h : Hart) (elapsed : UInt64) :
    (h.advanceTimer elapsed).waiting = true ↔ h.Sleeps elapsed := by
  simp only [advanceTimer, Sleeps, ControlRegisters.advanceTimer, ControlRegisters.timerExpired,
    Bool.and_eq_true, Bool.not_eq_true', Bool.and_eq_false_eq_eq_false_or_eq_false,
    bne_eq_false_iff_eq, decide_eq_false_iff_not, not_and_or, not_not]

end Hart

/-- What cuts an instruction short is no interrupt. -/
theorem Exec.executeOne_raises {σ : Type} [Bus σ] (c c' : Core σ) (cause : Trap)
    (h : executeOne c = .error (.trap cause) c') : cause ∉ Trap.interrupts := by
  have hanything : Core.Invariant fun _ : Core σ => True :=
    ⟨fun _ h => h, fun _ h => h, fun _ _ h => h, fun _ h => h, fun _ _ h => h⟩
  have hend := executeOne_behaves hanything c trivial
  rw [h] at hend
  exact hend.of_error.1

/-! ## Steps -/

namespace Core

variable {σ : Type} [Bus σ]

/-- A step begins with the timer. If an interrupt is due then, no instruction is executed and no
call is made on the bus: the interrupt is taken, except that a hart whose wait the timer has not
ended goes on waiting. If none is due, the hart waits or executes a batch, whose instructions are
cut short by exceptions only. -/
theorem step_takes_due (c : Core σ) (limit : UInt32) (elapsed : UInt64) :
    let h := c.hart.advanceTimer elapsed
    (∀ cause, h.Due cause →
      step limit elapsed c.traced = (if c.hart.Sleeps elapsed then
        .ok .waitForInterrupt (traced ⟨h, c.bus⟩)
      else .ok .ran (traced ⟨h.enterTrap cause, c.bus⟩)) ∧
      stepStates limit elapsed c = []) ∧
    ((∀ cause, ¬ h.Due cause) →
      step limit elapsed c = (if c.hart.Sleeps elapsed then .ok .waitForInterrupt ⟨h, c.bus⟩
        else batch limit.toNat ⟨h, c.bus⟩) ∧
      ∀ c₁ ∈ stepStates limit elapsed c, ∀ cause c₂,
        Exec.executeOne c₁ = .error (.trap cause) c₂ → cause ∉ Trap.interrupts) := by
  intro h
  have hsleeps : h.waiting = true ↔ c.hart.Sleeps elapsed := c.hart.waiting_advanceTimer_iff elapsed
  constructor
  · intro cause hdue
    have hpending : h.pendingInterrupt = some cause := Hart.pendingInterrupt_eq_some_iff.mpr hdue
    constructor
    · change proceed limit (traced ⟨h, c.bus⟩) = _
      simp only [proceed, traced, hsleeps, hpending]
    · -- asleep or not, the step has no state in which it starts an instruction
      simp only [stepStates]
      rw [show (c.hart.advanceTimer elapsed).pendingInterrupt = some cause from hpending, ite_self]
  · intro hnone
    have hpending : h.pendingInterrupt = none := Hart.pendingInterrupt_eq_none_iff.mpr hnone
    constructor
    · change proceed limit ⟨h, c.bus⟩ = _
      simp only [proceed, hsleeps, hpending]
    · intro c₁ _ cause c₂ hshort
      exact Exec.executeOne_raises c₁ c₂ cause hshort

/-- A guest that has requested an external interrupt by itself waits with the interrupt enabled.
The interrupt is due, and the guest goes on waiting. -/
theorem step_takes_due_asleep :
    let enabled : ControlRegisters :=
      { mstatus := Mstatus.mie, mie := Mip.external, mip := Mip.external }
    let c : Core Rom := ⟨{ Hart.new 4096 .delegate with csr := enabled, waiting := true }, ⟨0⟩⟩
    (c.hart.advanceTimer 0).Due .machineExternalInterrupt ∧
      step 1 0 c.traced = .ok .waitForInterrupt (traced ⟨c.hart.advanceTimer 0, c.bus⟩) ∧
      stepStates 1 0 c = [] := by
  intro enabled c
  have hdue : (c.hart.advanceTimer 0).Due .machineExternalInterrupt :=
    ⟨.inr (by decide), by decide, [], _, rfl, nofun⟩
  obtain ⟨hstep, hstates⟩ := (step_takes_due c 1 0).1 _ hdue
  rw [if_pos (by decide)] at hstep
  exact ⟨hdue, hstep, hstates⟩

end Core

end RiscvMachine
