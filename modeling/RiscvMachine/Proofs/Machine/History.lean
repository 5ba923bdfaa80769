import RiscvMachine.Proofs.Hart.Trace
import RiscvMachine.Proofs.Machine.Flat

set_option autoImplicit false

/-! # Histories

A run of a machine executes instructions, one after the other, in states that are listed here
(`Machine.executed`). Between two of them, time may pass, a trap may be entered, and the host may
flush the cache or use the console.

What is said of a state together with the states before it, and is kept by an instruction and by
all that may come between two of them (`Machine.Kept`), holds in every state of a run
(`Machine.executed_along`).
-/

namespace RiscvMachine

/-- What happens to the hart between two instructions. -/
inductive Hart.Turns (h : Hart) : Hart → Prop
  | time (elapsed : UInt64) : Turns h (h.advanceTimer elapsed)
  | trap (cause : Trap) : Turns h (h.enterTrap cause)
  | fault (cause : Trap) : Turns h { h with lastFault := some cause }

theorem Hart.turns_onException (h : Hart) (cause : Trap) : h.Turns (h.onException cause).2 := by
  unfold onException
  split
  · exact .fault cause
  · exact .trap cause

namespace Core

variable {σ : Type}

/-- `P` holds in every one of the states, each together with the ones before it, those of `past`
first of all. -/
def Along (P : List (Core σ) → Core σ → Prop) : List (Core σ) → List (Core σ) → Prop
  | _, [] => True
  | past, c :: rest => P past c ∧ Along P (past ++ [c]) rest

variable {P : List (Core σ) → Core σ → Prop}

theorem Along.append {past states states' : List (Core σ)} (h : Along P past states)
    (h' : Along P (past ++ states) states') : Along P past (states ++ states') := by
  induction states generalizing past with
  | nil => rwa [List.append_nil] at h'
  | cons c rest ih =>
      obtain ⟨hc, hrest⟩ := h
      refine ⟨hc, ih hrest ?_⟩
      rwa [List.append_assoc, List.singleton_append]

theorem Along.at {past before after : List (Core σ)} {c : Core σ}
    (h : Along P past (before ++ c :: after)) : P (past ++ before) c := by
  induction before generalizing past with
  | nil =>
      rw [List.append_nil]
      exact h.1
  | cons c₀ before ih =>
      have hrest := ih h.2
      rwa [List.append_assoc, List.singleton_append] at hrest

variable [Bus σ]

/-- The states in which a batch executes its instructions, in order. -/
def batchStates : Nat → Core σ → List (Core σ)
  | 0, _ => []
  | n + 1, c => c :: match Exec.executeOne c with
    | .ok .next c' => batchStates n c'
    | _ => []

/-- The states in which a step executes its instructions: none if the hart waits or takes an
interrupt. -/
def stepStates (limit : UInt32) (elapsed : UInt64) : Core σ → List (Core σ) := fun ⟨hart, bus⟩ =>
  let hart := hart.advanceTimer elapsed
  if hart.waiting then []
  else
    match hart.pendingInterrupt with
    | some _ => []
    | none => batchStates limit.toNat ⟨hart, bus⟩

/-- An instruction keeps `P` and adds its state to the ones before, and between instructions `P`
is kept. -/
structure Kept (P : List (Core σ) → Core σ → Prop) : Prop where
  execute {past : List (Core σ)} {c : Core σ} : P past c → P (past ++ [c]) c.after
  turn {past : List (Core σ)} {h h' : Hart} {bus : σ} : h.Turns h' → P past ⟨h, bus⟩ →
    P past ⟨h', bus⟩

theorem batch_along (hP : Kept P) (n : Nat) {past : List (Core σ)} {c : Core σ} (h : P past c) :
    Along P past (batchStates n c) ∧ P (past ++ batchStates n c) (stateOf (batch n c)) := by
  induction n generalizing past c with
  | zero =>
      rw [batchStates, List.append_nil]
      exact ⟨trivial, h⟩
  | succ n ih =>
      have hnext := hP.execute h
      rw [after] at hnext
      unfold batchStates batch
      revert hnext
      cases Exec.executeOne c with
      | ok flow c' =>
          intro hnext
          cases flow with
          | next =>
              obtain ⟨halong, hend⟩ := ih hnext
              rw [List.append_assoc, List.singleton_append] at hend
              exact ⟨⟨h, halong⟩, hend⟩
          | wait => exact ⟨⟨h, trivial⟩, hnext⟩
          | power value => exact ⟨⟨h, trivial⟩, hnext⟩
      | error why c' =>
          intro hnext
          cases why with
          | storage error => exact ⟨⟨h, trivial⟩, hnext⟩
          | trap cause => exact ⟨⟨h, trivial⟩, hP.turn (c'.hart.turns_onException cause) hnext⟩

theorem step_along (hP : Kept P) (limit : UInt32) (elapsed : UInt64) {past : List (Core σ)}
    {c : Core σ} (h : P past c) :
    Along P past (stepStates limit elapsed c) ∧
      P (past ++ stepStates limit elapsed c) (stateOf (step limit elapsed c)) := by
  obtain ⟨hart, bus⟩ := c
  have htime := hP.turn (.time elapsed) h
  unfold stepStates step
  simp only
  split
  · rw [List.append_nil]
    exact ⟨trivial, htime⟩
  · cases (hart.advanceTimer elapsed).pendingInterrupt with
    | some cause =>
        simp only
        rw [List.append_nil]
        exact ⟨trivial, hP.turn (.trap cause) htime⟩
    | none => exact batch_along hP _ htime

end Core

namespace Machine

variable {υ : Type} [StorageUnit υ]

def core (m : Machine υ) : Core (Platform υ) := ⟨m.hart, m.platform⟩

/-- The states in which instructions are executed to serve a request. -/
def statesOf (m : Machine υ) : MachineRequest → List (Core (Platform υ))
  | .step limit elapsed => Core.stepStates limit elapsed m.core
  | .sendKey _ | .flush | .takeOutput => []

/-- The states in which the machine executes instructions while it serves the requests in order,
up to the first that fails. -/
def executed : List MachineRequest → Machine υ → List (Core (Platform υ))
  | [], _ => []
  | request :: rest, m => m.statesOf request ++
    match serve request m with
    | .ok _ m' => executed rest m'
    | .error _ _ => []

/-- What the instructions of a run and the requests of the host keep. -/
structure Kept (P : List (Core (Platform υ)) → Core (Platform υ) → Prop) : Prop
    extends Core.Kept P where
  console {past : List (Core (Platform υ))} {h : Hart} {p : Platform υ} (console : GuestConsole) :
    P past ⟨h, p⟩ → P past ⟨h, { p with console := console }⟩
  flush {past : List (Core (Platform υ))} {h : Hart} {p : Platform υ} : P past ⟨h, p⟩ →
    P past ⟨h, { p with cache := stateOf (Cache.flush p.cache) }⟩

variable {P : List (Core (Platform υ)) → Core (Platform υ) → Prop}

theorem serve_along (hP : Kept P) (request : MachineRequest) {past : List (Core (Platform υ))}
    {m : Machine υ} (h : P past m.core) :
    Core.Along P past (m.statesOf request) ∧
      P (past ++ m.statesOf request) (stateOf (serve request m)).core := by
  obtain ⟨config, hart, ⟨cache, ⟨keys, output⟩, ramSize⟩, tree⟩ := m
  cases request with
  | step limit elapsed =>
      obtain ⟨halong, hend⟩ := Core.step_along hP.toKept limit elapsed h
      refine ⟨halong, ?_⟩
      simp only [statesOf, serve, bind, EStateM.bind, step, core] at hend ⊢
      revert hend
      cases Core.step limit elapsed (⟨hart, cache, ⟨keys, output⟩, ramSize⟩ : Core (Platform υ)) <;>
        exact id
  | sendKey byte =>
      rw [statesOf, List.append_nil]
      exact ⟨trivial, hP.console ⟨keys.send byte, output⟩ h⟩
  | flush =>
      have hflush := hP.flush h
      rw [statesOf, List.append_nil]
      refine ⟨trivial, ?_⟩
      simp only [serve, bind, EStateM.bind, flush, onMemory, onCache] at hflush ⊢
      revert hflush
      cases Cache.flush cache <;> exact id
  | takeOutput =>
      rw [statesOf, List.append_nil]
      exact ⟨trivial, hP.console _ h⟩

/-- What is kept holds in every state in which a run executes an instruction. -/
theorem executed_along (hP : Kept P) (requests : List MachineRequest)
    {past : List (Core (Platform υ))} {m : Machine υ} (h : P past m.core) :
    Core.Along P past (executed requests m) := by
  induction requests generalizing past m with
  | nil => trivial
  | cons request rest ih =>
      obtain ⟨halong, hend⟩ := serve_along hP request h
      unfold executed
      apply halong.append
      revert hend
      cases serve request m with
      | ok answer m' => exact fun hend => ih hend
      | error error m' => exact fun _ => trivial

end Machine

end RiscvMachine
