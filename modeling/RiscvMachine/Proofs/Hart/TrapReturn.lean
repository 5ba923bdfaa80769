import RiscvMachine.Proofs.Hart.ControlRegisters
import RiscvMachine.Proofs.Hart.Reservation

set_option autoImplicit false

/-! # Handlers return

Between a trap and the return from it the handler may execute any instructions that retire, as
long as it writes neither `mstatus` nor `mepc`, does not return and does not wait
(`Core.HandlerStep`). What the return needs is still there at its end (`Hart.Handling`): every
other instruction moves at most the program counter, the general registers, the reservation and
the control registers that it names (`Exec.execute_moves`). So the return goes back to where the
trap was taken, in the same mode and with interrupts enabled as they were
(`Core.mret_after_trap`). Other bits of `mstatus` do not survive: entering a trap clears them.
-/

namespace RiscvMachine

/-! ## What an instruction moves -/

/-- What a change of the hart leaves alone that writes at most the control register with the given
number. -/
structure Hart.Moves (written : Option UInt32) (h h' : Hart) : Prop where
  privilege : h'.privilege = h.privilege
  waiting : h'.waiting = h.waiting
  controls : ∀ csr ∈ CoreCsr.writable, written.bind CoreCsr.ofNumber? ≠ some csr →
    h'.csr.read csr = h.csr.read csr

theorem Hart.Moves.refl (written : Option UInt32) (h : Hart) : h.Moves written h :=
  ⟨rfl, rfl, fun _ _ _ => rfl⟩

theorem Hart.Moves.trans {written : Option UInt32} {h₁ h₂ h₃ : Hart} (h : h₁.Moves written h₂)
    (h' : h₂.Moves written h₃) : h₁.Moves written h₃ :=
  ⟨h'.privilege.trans h.privilege, h'.waiting.trans h.waiting, fun csr hcsr hother =>
    (h'.controls csr hcsr hother).trans (h.controls csr hcsr hother)⟩

theorem Hart.moves_setRegister (written : Option UInt32) (h : Hart) (rd : RegIndex)
    (value pc : UInt32) : h.Moves written { h.setRegister rd value with pc := pc } := by
  rw [setRegister_eq]
  exact ⟨rfl, rfl, fun _ _ _ => rfl⟩

theorem Hart.moves_timerMatch (written : Option UInt32) (h : Hart) (timerMatch : UInt64) :
    h.Moves written { h with csr := { h.csr with timerMatch := timerMatch } } :=
  ⟨rfl, rfl, fun csr _ _ => by cases csr <;> rfl⟩

/-- What an instruction does to the hart that neither returns from a trap nor waits. -/
theorem Isa.Instruction.Makes.moves {harts : Hart → Prop} {i : Instruction} {change : Hart.Change}
    (hmakes : i.Makes harts change) (hmret : i ≠ .mret) (hwfi : i ≠ .wfi) (h : Hart) :
    h.Moves i.writtenCsr? (change.apply h) := by
  cases change with
  | finish rd value => exact h.moves_setRegister _ rd value _
  | link rd target => exact h.moves_setRegister _ rd _ target
  | timerMatchLow value => exact h.moves_timerMatch _ _
  | timerMatchHigh value => exact h.moves_timerMatch _ _
  | drop addr =>
      simp only [Hart.Change.apply]
      split
      · exact ⟨rfl, rfl, fun _ _ _ => rfl⟩
      · exact .refl _ h
  | csr name value =>
      obtain ⟨number, hwritten, hname, -⟩ := hmakes
      refine ⟨rfl, rfl, fun csr _ hother => ?_⟩
      rw [hwritten, Option.bind_some, hname] at hother
      simp only [Hart.Change.apply]
      rw [ControlRegisters.read_write, if_neg]
      exact fun hsame => hother (congrArg some hsame.1.symm)
  | returnFromTrap => exact absurd hmakes.1 hmret
  | wait => exact absurd hmakes hwfi
  | _ => exact ⟨rfl, rfl, fun _ _ _ => rfl⟩

namespace Exec

variable {σ α β : Type} {written : Option UInt32}

/-- The computation moves nothing else, whether it succeeds or fails. -/
def Moves (written : Option UInt32) (x : Exec σ α) : Prop :=
  ∀ core : Core σ, core.hart.Moves written (stateOf (x core)).hart

theorem Moves.pure (a : α) : Moves written (Pure.pure a : Exec σ α) :=
  fun core => .refl written core.hart

theorem Moves.raise (cause : Trap) : Moves written (raise cause : Exec σ α) :=
  fun core => .refl written core.hart

theorem Moves.getHart : Moves (σ := σ) written getHart :=
  fun core => .refl written core.hart

theorem Moves.callBus (call : EStateM BusFault σ α) (cause : Trap) :
    Moves written (callBus call cause) := by
  rintro ⟨hart, bus⟩
  unfold Exec.callBus
  simp only
  cases call bus with
  | ok value bus' => exact .refl written hart
  | error fault bus' => cases fault <;> exact .refl written hart

theorem Moves.bind {x : Exec σ α} {f : α → Exec σ β} (hx : Moves written x)
    (hf : ∀ a, Moves written (f a)) : Moves written (x >>= f) := by
  intro core
  have hfirst := hx core
  simp only [Bind.bind, EStateM.bind]
  revert hfirst
  cases x core with
  | ok a core₁ => exact fun hfirst => hfirst.trans (hf a core₁)
  | error why core₁ => exact id

variable [Bus σ]

theorem moves_closed : Closed (σ := σ) (τ := σ) (fun _ => True)
    (fun change => ∀ h : Hart, h.Moves written (change.apply h))
    fun _ x _ => Moves written x where
  pure := .pure
  raise _ := .raise _
  bind := .bind
  look _ hf := Moves.getHart.bind fun h => hf h trivial
  peek _ _ := Moves.getHart.bind fun _ => .pure _
  change hchange core := hchange core.hart
  read _ _ := .callBus _ _
  write _ _ _ := .callBus _ _
  readCsr _ _ := .callBus _ _
  writeCsr _ _ _ := .callBus _ _

/-- An instruction that neither returns from a trap nor waits moves no control register but the
one that it writes. -/
theorem execute_moves (word : UInt32) {instruction : Isa.Instruction}
    (hmret : instruction ≠ .mret) (hwfi : instruction ≠ .wfi) :
    Moves (σ := σ) instruction.writtenCsr? (execute word instruction) :=
  execute_walks moves_closed.walk (fun _ hmakes => hmakes.moves hmret hwfi) word

end Exec

/-! ## Handlers -/

/-- An instruction that a handler may execute on its way: it does not return or wait, and writes
neither `mstatus` nor `mepc`. -/
def Isa.Instruction.Ordinary (i : Instruction) : Prop :=
  i ≠ .mret ∧ i ≠ .wfi ∧ i.writtenCsr? ≠ some 0x300 ∧ i.writtenCsr? ≠ some 0x341

namespace Core

variable {σ : Type} [Bus σ]

/-- What happens between a trap and the return from it: an ordinary instruction retires, or, where
a new batch begins, the host moves the timer on and does something to the bus. -/
inductive HandlerStep : Core σ → Core σ → Prop
  | instruction {c c₁ c' : Core σ} {i : Isa.Instruction} {flow : Flow} :
      c.Fetches i c₁ → i.Ordinary → Exec.executeOne c = .ok flow c' → HandlerStep c c'
  | host {h : Hart} {bus bus' : σ} (elapsed : UInt64) :
      HandlerStep ⟨h, bus⟩ ⟨h.advanceTimer elapsed, bus'⟩

/-- A handler that has come from one state to another. -/
abbrev Handles : Core σ → Core σ → Prop := Relation.ReflTransGen HandlerStep

end Core

/-- What a handler leaves alone: `h'` is in machine mode, does not wait, and has the saved state
that `h` has. -/
structure Hart.Handling (h h' : Hart) : Prop where
  privilege : h'.privilege = .machine
  waiting : h'.waiting = false
  mstatus : h'.csr.mstatus = h.csr.mstatus
  mepc : h'.csr.mepc = h.csr.mepc

namespace Core

variable {σ : Type} [Bus σ] {h : Hart}

/-- One step leaves it alone. -/
theorem HandlerStep.handling {c c' : Core σ} (hstep : HandlerStep c c')
    (hcore : h.Handling c.hart) : h.Handling c'.hart := by
  cases hstep with
  | instruction hfetches hordinary hok =>
      rename_i c₁ i flow
      obtain ⟨hmret, hwfi, hmstatus, hmepc⟩ := hordinary
      obtain ⟨word, hone⟩ := hfetches.executeOne_eq
      have hmoves := Exec.execute_moves (σ := σ) word hmret hwfi c₁
      rw [← hone, hok, hfetches.hart_eq] at hmoves
      have hother {csr : CoreCsr} {number : UInt32}
          (hnumber : number = UInt32.ofNat csr.number.toNat)
          (hwritten : i.writtenCsr? ≠ some number) :
          i.writtenCsr?.bind CoreCsr.ofNumber? ≠ some csr := by
        intro hsame
        obtain ⟨n, hn, hcsr⟩ := Option.bind_eq_some_iff.mp hsame
        rw [CoreCsr.eq_number_of_ofNumber? hcsr, ← hnumber] at hn
        exact hwritten hn
      exact ⟨hmoves.privilege.trans hcore.privilege, hmoves.waiting.trans hcore.waiting,
        (hmoves.controls .mstatus (by decide) (hother rfl hmstatus)).trans hcore.mstatus,
        (hmoves.controls .mepc (by decide) (hother rfl hmepc)).trans hcore.mepc⟩
  | host elapsed =>
      refine ⟨hcore.privilege, ?_, hcore.mstatus, hcore.mepc⟩
      rw [Hart.advanceTimer, hcore.waiting]
      rfl

/-- Nor does any number of steps touch it. -/
theorem Handles.handling {c c' : Core σ} (hrun : Handles c c') (hcore : h.Handling c.hart) :
    h.Handling c'.hart := by
  induction hrun with
  | refl => exact hcore
  | tail _ hstep ih => exact hstep.handling ih

end Core

/-! ## Entry and return -/

def Trap.interruptNumber? : Trap → Option UInt32
  | .machineSoftwareInterrupt => some 3
  | .machineTimerInterrupt => some 7
  | .machineExternalInterrupt => some 11
  | _ => none

theorem Trap.isInterrupt_eq (t : Trap) : t.isInterrupt = t.interruptNumber?.isSome := by
  unfold isInterrupt
  cases t <;> simp only [code] <;> rfl

theorem Trap.code_of_interruptNumber? {t : Trap} {number : UInt32}
    (h : t.interruptNumber? = some number) : t.code &&& 0x7FFFFFFF = number := by
  cases t <;> cases h <;> rfl

namespace Hart

/-- The place in the handler's vector: only interrupts have places of their own. -/
def vectorOffset (mtvec : UInt32) (t : Trap) : UInt32 :=
  match t.interruptNumber? with
  | some number => if mtvec &&& 3 = 1 then 4 * number else 0
  | none => 0

theorem handlerAddress_eq (mtvec : UInt32) (t : Trap) :
    handlerAddress mtvec t = (mtvec &&& ~~~3) + vectorOffset mtvec t := by
  have hbase : mtvec &&& 0xFFFFFFFC = (mtvec &&& ~~~3) + 0 := (UInt32.add_zero _).symm
  simp only [handlerAddress, vectorOffset, t.isInterrupt_eq]
  cases hnumber : t.interruptNumber? with
  | none => simpa using hbase
  | some number =>
      rw [Trap.code_of_interruptNumber? hnumber]
      by_cases hmode : mtvec &&& 3 = 1
      · simp only [hmode]
        rfl
      · simpa [hmode] using hbase

/-- Where a trap leads and what it leaves: the handler, in machine mode and awake, with the saved
state in four registers. -/
theorem enterTrap_eq (h : Hart) (t : Trap) :
    h.enterTrap t =
      { h with
        pc := (h.csr.mtvec &&& ~~~3) + vectorOffset h.csr.mtvec t
        privilege := .machine
        waiting := false
        csr := { h.csr with
          mepc := h.pc
          mcause := t.code
          mtval := t.value
          mstatus := (h.enterTrap t).csr.mstatus } } := by
  rw [← handlerAddress_eq]
  rfl

/-- No interrupt is taken in a handler: they are disabled, and the mode is machine mode. -/
theorem Handling.pendingInterrupt {h h' : Hart} {t : Trap} (hh : (h.enterTrap t).Handling h') :
    h'.pendingInterrupt = none := by
  have hdisabled : h'.csr.mstatus &&& Mstatus.mie = 0 := by
    rw [hh.mstatus]
    simp only [enterTrap]
    rcases and_mie_eq h.csr.mstatus with hmie | hmie <;> rw [hmie] <;>
      cases h.privilege <;> rfl
  have haccepts : h'.acceptsInterrupts = false := by
    rw [acceptsInterrupts, hh.privilege, hdisabled]
    rfl
  rw [Hart.pendingInterrupt, haccepts]
  rfl

/-- What the return makes of the state that a handler has left alone. -/
theorem Handling.returnFromTrap {h h' : Hart} {t : Trap} (hh : (h.enterTrap t).Handling h') :
    h'.returnFromTrap =
      { h' with
        pc := h.pc
        privilege := h.privilege
        csr := { h'.csr with mstatus := (h.csr.mstatus &&& Mstatus.mie) ||| Mstatus.mpie } } := by
  -- the return looks at nothing but what is as it was at the entry
  have hback := returnFromTrap_enterTrap h t
  have hprivilege := congrArg Hart.privilege hback
  have hmstatus := congrArg (fun h => h.csr.mstatus) hback
  simp only [Hart.returnFromTrap] at hprivilege hmstatus ⊢
  rw [hh.mstatus, hh.mepc, hprivilege, hmstatus]
  rfl

end Hart

/-- Words are equal if their bits are. -/
theorem eq_iff_getElem {a b : UInt32} :
    a = b ↔ ∀ i (hi : i < 32), a.toBitVec[i] = b.toBitVec[i] := by
  rw [← UInt32.toBitVec_inj]
  constructor
  · rintro heq i hi
    rw [heq]
  · intro heq
    ext i hi
    exact heq i hi

/-- Of a word in which some bits are set and others cleared, keeping all the rest is as much as
keeping some of it only if there is no more. -/
theorem keep_iff {s kept set cleared : UInt32} (hset : kept &&& set = 0)
    (hcleared : kept &&& cleared = 0) :
    (s &&& kept) ||| set = (s &&& ~~~(set ||| cleared)) ||| set ↔
      s &&& ~~~(kept ||| set ||| cleared) = 0 := by
  rw [eq_iff_getElem] at *
  rw [eq_iff_getElem]
  refine forall₂_congr fun i hi => ?_
  have hset := hset i hi
  have hcleared := hcleared i hi
  simp only [UInt32.toBitVec_and, UInt32.toBitVec_or, UInt32.toBitVec_not, BitVec.getElem_and,
    BitVec.getElem_or, BitVec.getElem_not, UInt32.toBitVec_zero, BitVec.getElem_zero]
    at hset hcleared ⊢
  revert hset hcleared
  generalize s.toBitVec[i] = a, kept.toBitVec[i] = b, set.toBitVec[i] = c,
    cleared.toBitVec[i] = d
  revert a b c d
  decide

namespace Core

variable {σ : Type} [Bus σ]

/-- A return that has been fetched in machine mode. -/
theorem Fetches.mret_ok {c c₁ : Core σ} (hfetches : c.Fetches .mret c₁)
    (hmachine : c.hart.privilege = .machine) :
    Exec.executeOne c = .ok .next ⟨c.hart.counted.returnFromTrap, c₁.bus⟩ := by
  obtain ⟨word, hone⟩ := hfetches.executeOne_eq
  obtain ⟨hart, bus⟩ := c₁
  obtain rfl : hart = c.hart.counted := hfetches.hart_eq
  have hmode : ¬ c.hart.counted.privilege = .user := by
    rw [show c.hart.counted.privilege = .machine from hmachine]
    decide
  rw [hone]
  simp only [Exec.execute, Exec.raise_bind, Exec.getHart_bind_apply, if_neg hmode,
    Exec.onHart_bind_apply]
  rfl

/-- A trap leads to its handler, and the return from it back. Entering the trap saves the program
counter, the cause and the value, and goes to the handler in machine mode, where no register and
no other part of the state has changed. However the handler goes on, with instructions that retire
and without writing the saved state, returning or waiting, it is not interrupted. The return then
restores the program counter and the mode, leaves interrupts enabled as they were, with user mode
and an enabled interrupt as the saved state, and keeps everything else as the handler has left it.
But the other bits of `mstatus` are clear then, whatever they were; so it is as it was but for the
saved state if and only if they were clear before. -/
theorem mret_after_trap (h : Hart) (t : Trap) {bus : σ} {c c₁ : Core σ}
    (hrun : Handles ⟨h.enterTrap t, bus⟩ c) (hfetches : c.Fetches .mret c₁) :
    h.enterTrap t =
      { h with
        pc := (h.csr.mtvec &&& ~~~3) + Hart.vectorOffset h.csr.mtvec t
        privilege := .machine
        waiting := false
        csr := { h.csr with
          mepc := h.pc
          mcause := t.code
          mtval := t.value
          mstatus := (h.enterTrap t).csr.mstatus } } ∧
    (∀ limit elapsed, step limit elapsed c =
      batch limit.toNat ⟨c.hart.advanceTimer elapsed, c.bus⟩) ∧
    ∃ status, Exec.executeOne c = .ok .next
      ⟨{ c.hart with
        pc := h.pc
        privilege := h.privilege
        csr := { c.hart.csr with cycle := c.hart.csr.cycle + 1, mstatus := status } }, c₁.bus⟩ ∧
      status = (h.csr.mstatus &&& Mstatus.mie) ||| Mstatus.mpie ∧
      (status = (h.csr.mstatus &&& ~~~(Mstatus.mpie ||| Mstatus.mpp)) ||| Mstatus.mpie ↔
        h.csr.mstatus &&& ~~~(Mstatus.mie ||| Mstatus.mpie ||| Mstatus.mpp) = 0) := by
  have hentry : (h.enterTrap t).Handling (h.enterTrap t) := ⟨rfl, rfl, rfl, rfl⟩
  -- the handler has left alone what the return goes by
  have hhandling := hrun.handling hentry
  refine ⟨h.enterTrap_eq t, ?_, _, ?_, rfl, keep_iff (by decide) (by decide)⟩
  · intro limit elapsed
    have hlater : (h.enterTrap t).Handling (c.hart.advanceTimer elapsed) :=
      (show HandlerStep ⟨c.hart, c.bus⟩ ⟨_, c.bus⟩ from .host elapsed).handling hhandling
    simp only [step, hlater.waiting, hlater.pendingInterrupt]
    rfl
  · have hcounted : (h.enterTrap t).Handling c.hart.counted :=
      ⟨hhandling.privilege, hhandling.waiting, hhandling.mstatus, hhandling.mepc⟩
    rw [hfetches.mret_ok hhandling.privilege, hcounted.returnFromTrap]
    rfl

/-- A user program that has interrupts enabled and another bit of `mstatus` set calls its
environment. -/
def called : Hart :=
  ({ Hart.new 4096 .delegate with
    pc := 0x80000010
    privilege := .user
    csr := { mstatus := 0x20008, mtvec := ramBase } } : Hart).enterTrap .environmentCallFromUser

/-- The handler does nothing, and returns in another batch. The mode is user mode again and
interrupts are enabled, but the other bit is gone. -/
theorem mret_after_trap_call :
    ∃ c, Handles (σ := Rom) ⟨called, ⟨0x00000013⟩⟩ c ∧
      ∃ h', Exec.executeOne c = .ok .next ⟨h', ⟨0x30200073⟩⟩ ∧
        h'.pc = 0x80000010 ∧ h'.privilege = .user ∧ h'.csr.mstatus = 0x88 := by
  have hnop : Fetches (σ := Rom) ⟨called, ⟨0x00000013⟩⟩ (.aluImm .add 0 0 0)
      ⟨called.counted, ⟨0x00000013⟩⟩ := ⟨0x00000013, by rfl, by rfl⟩
  have hone : Exec.executeOne (σ := Rom) ⟨called, ⟨0x00000013⟩⟩ =
      .ok .next ⟨called.counted.finished 0 0, ⟨0x00000013⟩⟩ := by rfl
  have hmret : Fetches (σ := Rom) ⟨(called.counted.finished 0 0).advanceTimer 0, ⟨0x30200073⟩⟩ .mret
      ⟨((called.counted.finished 0 0).advanceTimer 0).counted, ⟨0x30200073⟩⟩ :=
    ⟨0x30200073, by rfl, by rfl⟩
  have hrun : Handles (σ := Rom) ⟨called, ⟨0x00000013⟩⟩
      ⟨(called.counted.finished 0 0).advanceTimer 0, ⟨0x30200073⟩⟩ :=
    .tail (.single (.instruction hnop ⟨nofun, nofun, nofun, nofun⟩ hone)) (.host 0)
  obtain ⟨-, -, status, hreturn, rfl, -⟩ := mret_after_trap _ _ hrun hmret
  exact ⟨_, hrun, _, hreturn, rfl, rfl, by decide⟩

end Core

end RiscvMachine
