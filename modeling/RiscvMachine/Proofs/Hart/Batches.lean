import RiscvMachine.Proofs.Hart.Interrupts
import RiscvMachine.Proofs.Hart.TrapReturn

set_option autoImplicit false

/-! # Batches cut in two

The instructions of a batch do not know where it ends, so a batch whose instructions all go on to
the next may be cut in two (`Core.batch_add`). What a cut adds is the beginning of a step: the
timer's interrupt bit is set anew, and an interrupt may be taken. Where neither happens, a step and
one more without time in between do what one long step does (`Core.step_add`).

The wait of the hart is no such matter: an instruction that goes on to the next leaves it as it
was (`Exec.waiting_of_next`).
-/

namespace RiscvMachine

/-! ## The beginning of a step -/

namespace Hart

/-- A step that begins in this state takes an interrupt: one is due, and the hart does not wait. -/
def Interrupted (h : Hart) : Prop :=
  h.waiting = false ∧ ∃ cause, h.Due cause

theorem interrupted_iff {h : Hart} :
    h.Interrupted ↔ h.waiting = false ∧ h.pendingInterrupt ≠ none := by
  simp only [Interrupted, ← pendingInterrupt_eq_some_iff, Option.ne_none_iff_exists']

instance (h : Hart) : Decidable h.Interrupted :=
  decidable_of_iff _ interrupted_iff.symm

/-- If no time passes, the timer sets its interrupt bit anew and may end the wait. Where it does
neither, nothing has changed. -/
theorem advanceTimer_zero {h : Hart} (hlatch : (h.advanceTimer 0).csr.mip = h.csr.mip)
    (hwait : h.waiting = true → ¬ h.csr.timerExpired = true) : h.advanceTimer 0 = h := by
  have htimer : ({ h.csr with timer := h.csr.timer + 0 } : ControlRegisters) = h.csr := by
    rw [UInt64.add_zero]
  have hcsr : h.csr.advanceTimer 0 = h.csr := by
    simp only [advanceTimer, ControlRegisters.advanceTimer, htimer] at hlatch ⊢
    rw [hlatch, UInt64.add_zero]
  rw [advanceTimer, hcsr]
  cases hwaiting : h.waiting with
  | false => rw [Bool.false_and, ← hwaiting]
  | true => rw [Bool.eq_false_iff.mpr (hwait hwaiting), Bool.not_false, Bool.and_true, ← hwaiting]

end Hart

/-! ## Instructions that go on to the next -/

/-- Waiting is left to the instruction that waits, and that does not go on to the next. -/
theorem Exec.waiting_of_next {σ : Type} [Bus σ] {c c' : Core σ}
    (h : executeOne c = .ok .next c') : c'.hart.waiting = c.hart.waiting := by
  rw [executeOne_eq] at h
  obtain ⟨word, c₁, hfetch, hdecoded⟩ := ok_of_bind h
  have hcounted : c₁.hart.waiting = c.hart.waiting :=
    (congrArg Hart.waiting (fetch_traced hfetch).1 :)
  rw [← hcounted]
  unfold executeDecoded at hdecoded
  cases hdecode : Isa.decode word with
  | none =>
      rw [hdecode] at hdecoded
      cases hdecoded
  | some instruction =>
      rw [hdecode] at hdecoded
      by_cases hwfi : instruction = .wfi
      · subst hwfi
        cases hdecoded
      by_cases hmret : instruction = .mret
      · subst hmret
        simp only [execute, raise_bind, getHart_bind_apply] at hdecoded
        split at hdecoded
        · cases hdecoded
        · cases hdecoded
          rfl
      · have hmoves := execute_moves word hmret hwfi c₁
        rw [show execute word instruction c₁ = _ from hdecoded] at hmoves
        exact hmoves.waiting

namespace Core

variable {σ : Type} [Bus σ]

/-- The instruction retires and goes on to the next. -/
def GoesOn (c : Core σ) : Prop :=
  ∃ c', Exec.executeOne c = .ok .next c'

theorem goesOn_iff {c : Core σ} : c.GoesOn ↔ answer? (Exec.executeOne c) = some .next := by
  constructor
  · rintro ⟨c', hone⟩
    rw [hone]
    rfl
  · exact exists_of_answer?

instance (c : Core σ) : Decidable c.GoesOn :=
  decidable_of_iff _ goesOn_iff.symm

/-- A batch whose first instructions all go on is the batch of the others, where those have led. -/
theorem batch_add {n : Nat} {c : Core σ} (h : ∀ c₁ ∈ batchStates n c, c₁.GoesOn) :
    ∃ c', batch n c = .ok .ran c' ∧ c'.hart.waiting = c.hart.waiting ∧
      ∀ m, batch (n + m) c = batch m c' := by
  induction n generalizing c with
  | zero => exact ⟨c, rfl, rfl, fun m => by rw [Nat.zero_add]⟩
  | succ n ih =>
      obtain ⟨c₁, hone⟩ := h c (by simp [batchStates])
      obtain ⟨c', hran, hwaiting, hadd⟩ := ih (c := c₁) fun c₂ hmem =>
        h c₂ (by simp [batchStates, hone, hmem])
      refine ⟨c', ?_, hwaiting.trans (Exec.waiting_of_next hone), fun m => ?_⟩
      · simp only [batch, hone, hran]
      · rw [Nat.add_right_comm]
        simp only [batch, hone, hadd]

/-! ## Steps -/

/-- A step of `n` instructions takes no interrupt and executes them all, each of which goes on to
the next. It leaves `c'`. -/
structure StepsOn (n : UInt32) (elapsed : UInt64) (c c' : Core σ) : Prop where
  uninterrupted : ¬ (c.hart.advanceTimer elapsed).Interrupted
  count : (stepStates n elapsed c).length = n.toNat
  goesOn : ∀ c₁ ∈ stepStates n elapsed c, c₁.GoesOn
  leaves : stateOf (step n elapsed c) = c'

theorem StepsOn.step_bind {n m : UInt32} {elapsed : UInt64} {c c' : Core σ}
    (hfit : n.toNat + m.toNat < 2 ^ 32) (hon : StepsOn n elapsed c c')
    (hlatch : (c'.hart.advanceTimer 0).csr.mip = c'.hart.csr.mip)
    (hquiet : ¬ (c'.hart.advanceTimer 0).Interrupted) :
    step (n + m) elapsed c = (step n elapsed >>= fun _ => step m 0) c := by
  obtain ⟨huninterrupted, hcount, hgoesOn, rfl⟩ := hon
  have hsum : (n + m).toNat = n.toNat + m.toNat := by
    rw [UInt32.toNat_add, Nat.mod_eq_of_lt hfit]
  obtain ⟨hart, bus⟩ := c
  simp only [bind, EStateM.bind]
  by_cases hwaiting : (hart.advanceTimer elapsed).waiting = true
  · -- a hart that sleeps executes nothing, and the cut leaves it asleep
    have hstep (limit : UInt32) : step limit elapsed (⟨hart, bus⟩ : Core σ) =
        .ok .waitForInterrupt ⟨hart.advanceTimer elapsed, bus⟩ := by
      simp only [step, if_pos hwaiting]
    rw [hstep] at hlatch hquiet
    have hsleeps := ((hart.waiting_advanceTimer_iff elapsed).mp hwaiting).2
    have hsame : (hart.advanceTimer elapsed).advanceTimer 0 = hart.advanceTimer elapsed := by
      refine Hart.advanceTimer_zero hlatch fun _ hexpired => hsleeps ?_
      simpa [ControlRegisters.timerExpired, Hart.advanceTimer, ControlRegisters.advanceTimer]
        using hexpired
    rw [hstep, hstep]
    simp only [step, hsame, if_pos hwaiting]
  · have hawake : (hart.advanceTimer elapsed).waiting = false := Bool.eq_false_iff.mpr hwaiting
    have hpending : (hart.advanceTimer elapsed).pendingInterrupt = none := by
      by_contra hsome
      exact huninterrupted (Hart.interrupted_iff.mpr ⟨hawake, hsome⟩)
    have hstep (limit : UInt32) : step limit elapsed (⟨hart, bus⟩ : Core σ) =
        batch limit.toNat ⟨hart.advanceTimer elapsed, bus⟩ := by
      simp only [step, if_neg hwaiting, hpending]
    simp only [stepStates, if_neg hwaiting, hpending] at hgoesOn
    obtain ⟨c', hran, hstays, hadd⟩ := batch_add hgoesOn
    rw [hstep, hran] at hlatch hquiet
    change (c'.hart.advanceTimer 0).csr.mip = c'.hart.csr.mip at hlatch
    change ¬ (c'.hart.advanceTimer 0).Interrupted at hquiet
    have hawake' : c'.hart.waiting = false := hstays.trans hawake
    -- at the cut the timer is told of no time, and nothing is due
    have hsame : c'.hart.advanceTimer 0 = c'.hart :=
      Hart.advanceTimer_zero hlatch fun hwaits => absurd (hawake'.symm.trans hwaits) (by decide)
    rw [hsame, Hart.interrupted_iff, not_and_not_right] at hquiet
    rw [hstep, hstep, hsum, hadd, hran]
    simp only [step, hsame, hawake', hquiet hawake']
    rfl

end Core

/-! ## The calls on the bus -/

namespace Traced

variable {σ : Type}

/-- The core over the bus inside. -/
def inner (c : Core (Traced σ)) : Core σ :=
  ⟨c.hart, c.bus.bus⟩

variable [Bus σ]

theorem goesOn_inner {c : Core (Traced σ)} : (inner c).GoesOn ↔ c.GoesOn := by
  rw [Core.goesOn_iff, Core.goesOn_iff, inner, executeOne_forget]
  cases Exec.executeOne c <;> rfl

/-- The instructions of a batch are executed in the same states over the bus inside. -/
theorem batchStates_inner (n : Nat) (c : Core (Traced σ)) :
    Core.batchStates n (inner c) = (Core.batchStates n c).map inner := by
  induction n generalizing c with
  | zero => rfl
  | succ n ih =>
      simp only [Core.batchStates, List.map_cons]
      congr 1
      rw [inner, executeOne_forget]
      cases Exec.executeOne c with
      | error why c₁ => rfl
      | ok flow c₁ =>
          cases flow with
          | next => exact ih c₁
          | wait => rfl
          | power value => rfl

theorem stepStates_inner (limit : UInt32) (elapsed : UInt64) (c : Core (Traced σ)) :
    Core.stepStates limit elapsed (inner c) = (Core.stepStates limit elapsed c).map inner := by
  obtain ⟨hart, bus⟩ := c
  change Core.stepStates limit elapsed ⟨hart, bus.bus⟩ = _
  simp only [Core.stepStates]
  split
  · rfl
  · cases (hart.advanceTimer elapsed).pendingInterrupt with
    | some cause => rfl
    | none => exact batchStates_inner limit.toNat ⟨hart.advanceTimer elapsed, bus⟩

/-- A step over the bus inside that takes no interrupt and executes all its instructions is one
over the traced bus as well. -/
theorem stepsOn {n : UInt32} {elapsed : UInt64} {c c' : Core σ} (h : Core.StepsOn n elapsed c c') :
    ∃ t, Core.StepsOn n elapsed c.traced t ∧ t.hart = c'.hart := by
  have hstates : Core.stepStates n elapsed c = _ := stepStates_inner n elapsed c.traced
  have hagree := Core.step_simulates traced_simulation n elapsed c c.traced ⟨rfl, rfl⟩
  obtain ⟨huninterrupted, hcount, hgoesOn, rfl⟩ := h
  refine ⟨_, ⟨huninterrupted, ?_, fun c₁ hmem => ?_, rfl⟩, hagree.stateOf.1.symm⟩
  · rw [← hcount, hstates, List.length_map]
  · rw [← goesOn_inner]
    apply hgoesOn
    rw [hstates]
    exact List.mem_map_of_mem hmem

end Traced

namespace Core

variable {σ : Type} [Bus σ]

/-- A step whose instructions all retire and go on to the next, and another one after it without
time in between, end as one step of all their instructions does: with the same outcome or failure,
the hart and the bus in the same state, and the same calls made on the bus. It takes no more for
that than that the timer, set anew in between, leaves the interrupts that are pending as they are,
and that none is taken there. -/
theorem step_add {n m : UInt32} {elapsed : UInt64} {c c' : Core σ}
    (hfit : n.toNat + m.toNat < 2 ^ 32) (hon : StepsOn n elapsed c c')
    (hlatch : (c'.hart.advanceTimer 0).csr.mip = c'.hart.csr.mip)
    (hquiet : ¬ (c'.hart.advanceTimer 0).Interrupted) :
    step (n + m) elapsed c.traced = (step n elapsed >>= fun _ => step m 0) c.traced := by
  obtain ⟨t, hon', hhart⟩ := Traced.stepsOn hon
  rw [← hhart] at hlatch hquiet
  exact hon'.step_bind hfit hlatch hquiet

/-- The timer expires when the first of the two steps begins, and its interrupt stays pending and
disabled. Five words are fetched either way. -/
theorem step_add_expired :
    let clock : ControlRegisters := { timer := 3, timerMatch := 5 }
    let c : Core Rom := ⟨{ Hart.new 4096 .delegate with csr := clock }, ⟨0x00000013⟩⟩
    step 5 4 c.traced = (step 2 4 >>= fun _ => step 3 0) c.traced ∧
      (stateOf (step 5 4 c.traced)).hart.csr.mip = Mip.timer ∧
      (stateOf (step 5 4 c.traced)).bus.calls.map BusEvent.call =
        [.read .word 0x80000000, .read .word 0x80000004, .read .word 0x80000008,
          .read .word 0x8000000C, .read .word 0x80000010] := by
  intro clock c
  have hon : StepsOn 2 4 c (stateOf (step 2 4 c)) :=
    ⟨by decide, by decide, by decide, rfl⟩
  exact ⟨step_add (m := 3) (by decide) hon (by decide) (by decide), by decide, by decide⟩

end Core

end RiscvMachine
