import RiscvMachine.Hart.Execute

set_option autoImplicit false

/-! # Batches of instructions

`Core.step` advances the timer, takes a pending interrupt or executes a limited number of
instructions, and tells how the batch ended. A failure of the backing store ends it with the
hart as it stood.
-/

namespace RiscvMachine

inductive Outcome
  /-- The limit was reached, an interrupt was taken, or a trap entered its handler. -/
  | ran
  | waitForInterrupt
  /-- An exception under the fail-fast policy. -/
  | fault
  | reboot
  | powerOff
  /-- The guest wrote some other value to the power register. -/
  | unknown (value : UInt32)
  deriving DecidableEq, Repr

namespace Outcome

def rebootValue : UInt32 := 0x7777

def powerOffValue : UInt32 := 0x5555

/-- What a value written to the power register asks for. -/
def ofPower (value : UInt32) : Outcome :=
  if value = rebootValue then .reboot
  else if value = powerOffValue then .powerOff
  else .unknown value

def code : Outcome → UInt32
  | ran => 0
  | waitForInterrupt => 1
  | fault => 3
  | reboot => rebootValue
  | powerOff => powerOffValue
  | unknown value => value

end Outcome

namespace Hart

/-- What an exception does to the hart, and how it leaves the batch. -/
def onException (h : Hart) (cause : Trap) : Outcome × Hart :=
  match h.faultPolicy with
  | .failFast => (.fault, { h with lastFault := some cause })
  | .delegate => (.ran, h.enterTrap cause)

/-- Advances the timer; if it has expired the hart stops waiting. -/
def advanceTimer (h : Hart) (elapsed : UInt64) : Hart :=
  let csr := h.csr.advanceTimer elapsed
  { h with csr := csr, waiting := h.waiting && !csr.timerExpired }

end Hart

namespace Core

variable {σ : Type}

def batch [Bus σ] : Nat → EStateM StorageError (Core σ) Outcome
  | 0 => pure .ran
  | n + 1 => fun core =>
    match Exec.executeOne core with
    | .ok .next core => batch n core
    | .ok .wait core => .ok .waitForInterrupt core
    | .ok (.power value) core => .ok (.ofPower value) core
    | .error (.storage error) core => .error error core
    | .error (.trap cause) ⟨hart, bus⟩ =>
      let (outcome, hart) := hart.onException cause
      .ok outcome ⟨hart, bus⟩

/-- Advances the timer by `elapsed` and then waits, takes an interrupt, or executes up to
`limit` instructions. -/
def step [Bus σ] (limit : UInt32) (elapsed : UInt64) :
    EStateM StorageError (Core σ) Outcome := fun ⟨hart, bus⟩ =>
  let hart := hart.advanceTimer elapsed
  -- nothing but the timer wakes the hart, so a pending interrupt is not looked for
  if hart.waiting then .ok .waitForInterrupt ⟨hart, bus⟩
  else
    match hart.pendingInterrupt with
    | some cause => .ok .ran ⟨hart.enterTrap cause, bus⟩
    | none => batch limit.toNat ⟨hart, bus⟩

end Core

end RiscvMachine
