import RiscvMachine.Proofs.Hart.Simulation

set_option autoImplicit false

/-! # Recording the calls on a bus

`Traced` is a bus that passes every call on to another one and keeps a record of it. Recording
changes nothing that the hart sees (`traced_simulation`), so what a hart does over any bus can be
read off the record (`executeOne_traced`).
-/

namespace RiscvMachine

/-- A call of the hart on its bus. -/
inductive BusCall
  | read (width : Width) (addr : UInt32)
  | write (width : Width) (addr value : UInt32)
  | readCsr (number : UInt32)
  | writeCsr (number value : UInt32)
  deriving DecidableEq, Repr

/-- Whether a call writes to memory or to a control register. -/
def BusCall.isWrite : BusCall → Bool
  | .read .. => false
  | .write .. => true
  | .readCsr .. => false
  | .writeCsr .. => true

/-- A call that was made, and how it failed if it did not complete. -/
structure BusEvent where
  call : BusCall
  fault : Option BusFault
  deriving DecidableEq, Repr

/-- A bus and the calls made on it, in order. -/
structure Traced (σ : Type) where
  bus : σ
  calls : List BusEvent

namespace Traced

variable {σ : Type}

def record {α : Type} (call : BusCall) (request : EStateM BusFault σ α) :
    EStateM BusFault (Traced σ) α := fun t =>
  match request t.bus with
  | .ok value bus => .ok value ⟨bus, t.calls ++ [⟨call, none⟩]⟩
  | .error fault bus => .error fault ⟨bus, t.calls ++ [⟨call, some fault⟩]⟩

variable [Bus σ]

instance : Bus (Traced σ) where
  read width addr := record (.read width addr) (Bus.read width addr)
  write width addr value := record (.write width addr value) (Bus.write width addr value)
  readCsr number := record (.readCsr number) (Bus.readCsr number)
  writeCsr number value := record (.writeCsr number value) (Bus.writeCsr number value)

/-- A bus and the traced bus around it. -/
def Around (bus : σ) (t : Traced σ) : Prop :=
  t.bus = bus

omit [Bus σ] in
theorem record_simulates {α : Type} (call : BusCall) (request : EStateM BusFault σ α) :
    Simulates (fun _ => True) Around request (record call request) := by
  rintro _ t rfl
  unfold record
  cases request t.bus with
  | ok value bus => exact ⟨rfl, rfl⟩
  | error fault bus => exact ⟨rfl, trivial, rfl⟩

/-- The traced bus answers like the bus inside. -/
theorem traced_simulation : BusSimulation (fun _ => True) (Around (σ := σ)) where
  read _ := record_simulates _ _
  write _ _ := record_simulates _ _
  readCsr _ := record_simulates _ _
  writeCsr _ _ := record_simulates _ _

/-- An instruction that is cut short over some bus is cut short in the same way over the traced
bus, which then tells the calls that it made. -/
theorem executeOne_traced {h h' : Hart} {bus bus' : σ} {why : Interruption}
    (herror : Exec.executeOne ⟨h, bus⟩ = .error why ⟨h', bus'⟩) :
    ∃ calls, Exec.executeOne (σ := Traced σ) ⟨h, bus, []⟩
      = .error why ⟨h', bus', calls⟩ := by
  have hagree := Exec.executeOne_simulates traced_simulation ⟨h, bus⟩ ⟨h, bus, []⟩ ⟨rfl, rfl⟩
  rw [herror] at hagree
  revert hagree
  cases Exec.executeOne (σ := Traced σ) ⟨h, bus, []⟩ with
  | ok flow core => exact False.elim
  | error why' core =>
      obtain ⟨hart, bus'', calls⟩ := core
      rintro ⟨rfl, -, rfl, hbus⟩
      cases hbus
      exact ⟨calls, rfl⟩

/-- A result over the traced bus, without the record. -/
def forget {α : Type} :
    EStateM.Result Interruption (Core (Traced σ)) α → EStateM.Result Interruption (Core σ) α
  | .ok a core => .ok a ⟨core.hart, core.bus.bus⟩
  | .error why core => .error why ⟨core.hart, core.bus.bus⟩

omit [Bus σ] in
/-- What does the same over a bus and over the traced bus around it differs in the record only. -/
theorem forget_of_simulates {α : Type} {x : Exec σ α} {y : Exec (Traced σ) α}
    {E : Interruption → Prop} (h : Simulates E (Exec.Related Around) x y)
    (core : Core (Traced σ)) : x ⟨core.hart, core.bus.bus⟩ = forget (y core) := by
  have hagree := h ⟨core.hart, core.bus.bus⟩ core ⟨rfl, rfl⟩
  revert hagree
  cases x ⟨core.hart, core.bus.bus⟩ with
  | ok a core₁ =>
      cases y core with
      | ok b core₂ =>
          rintro ⟨rfl, hhart, hbus⟩
          obtain ⟨hart, bus⟩ := core₁
          obtain rfl : hart = core₂.hart := hhart
          obtain rfl : core₂.bus.bus = bus := hbus
          rfl
      | error why core₂ => exact False.elim
  | error why core₁ =>
      cases y core with
      | ok b core₂ => exact False.elim
      | error why' core₂ =>
          rintro ⟨rfl, -, hhart, hbus⟩
          obtain ⟨hart, bus⟩ := core₁
          obtain rfl : hart = core₂.hart := hhart
          obtain rfl : core₂.bus.bus = bus := hbus
          rfl

theorem fetch_forget (core : Core (Traced σ)) :
    Exec.fetch ⟨core.hart, core.bus.bus⟩ = forget (Exec.fetch core) :=
  forget_of_simulates (Exec.fetch_simulates traced_simulation) core

theorem executeOne_forget (core : Core (Traced σ)) :
    Exec.executeOne ⟨core.hart, core.bus.bus⟩ = forget (Exec.executeOne core) :=
  forget_of_simulates (Exec.executeOne_simulates traced_simulation) core

end Traced

namespace Core

variable {σ : Type}

/-- The core over a traced bus on which no call has been made. -/
def traced (c : Core σ) : Core (Traced σ) :=
  ⟨c.hart, c.bus, []⟩

variable [Bus σ]

/-- The core that an instruction leaves, whether or not it retires. -/
def after (c : Core σ) : Core σ :=
  stateOf (Exec.executeOne c)

/-- The calls that an instruction makes on the bus, that of the fetch included. -/
def calls (c : Core σ) : List BusEvent :=
  c.traced.after.bus.calls

theorem after_eq (c : Core σ) : c.after = ⟨c.traced.after.hart, c.traced.after.bus.bus⟩ := by
  have hforget := Traced.executeOne_forget c.traced
  unfold after
  rw [show Exec.executeOne c = _ from hforget]
  cases Exec.executeOne c.traced <;> rfl

end Core

end RiscvMachine
