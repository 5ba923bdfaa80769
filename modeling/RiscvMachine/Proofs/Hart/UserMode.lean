import RiscvMachine.Proofs.Hart.Edits

set_option autoImplicit false

/-! # User mode

The control registers of machine mode neither answer to a guest in user mode nor move the hart.
So a computation of the hart over other values in these registers does the same, but for leaving
the other values (`Exec.Confined`). That holds of every instruction but the one that waits, which
enables interrupts besides (`Exec.executeOne_user`).

Taken at the values that the registers have, it says that an instruction leaves them as they are
(`Exec.machineRegisters_after`); taken at any others, that runs in user mode do not tell them apart
(`Core.instructions_blind`). The way out of user mode is a trap (`Core.step_user`).
-/

namespace RiscvMachine

/-- What the control registers hold that belong to machine mode. -/
structure MachineRegisters where
  mstatus : UInt32
  mie : UInt32
  mip : UInt32
  mtvec : UInt32
  mscratch : UInt32
  mepc : UInt32
  mcause : UInt32
  mtval : UInt32
  deriving DecidableEq, Repr

def MachineRegisters.enabled (r : MachineRegisters) : MachineRegisters :=
  { r with mstatus := r.mstatus ||| Mstatus.mie }

namespace Hart

def machineRegisters (h : Hart) : MachineRegisters where
  mstatus := h.csr.mstatus
  mie := h.csr.mie
  mip := h.csr.mip
  mtvec := h.csr.mtvec
  mscratch := h.csr.mscratch
  mepc := h.csr.mepc
  mcause := h.csr.mcause
  mtval := h.csr.mtval

/-- The hart with other values in the registers of machine mode. -/
def withMachineRegisters (h : Hart) (r : MachineRegisters) : Hart :=
  { h with csr :=
    { h.csr with
      mstatus := r.mstatus
      mie := r.mie
      mip := r.mip
      mtvec := r.mtvec
      mscratch := r.mscratch
      mepc := r.mepc
      mcause := r.mcause
      mtval := r.mtval } }

theorem setRegister_with (h : Hart) (r : MachineRegisters) (rd : RegIndex) (value : UInt32) :
    (h.withMachineRegisters r).setRegister rd value =
      (h.setRegister rd value).withMachineRegisters r := by
  unfold setRegister
  split <;> rfl

theorem privilege_setRegister (h : Hart) (rd : RegIndex) (value : UInt32) :
    (h.setRegister rd value).privilege = h.privilege := by
  unfold setRegister
  split <;> rfl

/-- A change of the hart that depends on the registers of machine mode in no way, and keeps user
mode. -/
def Blind (change : Hart → Hart) : Prop :=
  ∀ h : Hart, h.privilege = .user → (change h).privilege = .user ∧
    ∀ r, change (h.withMachineRegisters r) = (change h).withMachineRegisters r

theorem blind_result (rd : RegIndex) (value pc : Hart → UInt32)
    (hvalue : ∀ (h : Hart) (r : MachineRegisters), value (h.withMachineRegisters r) = value h)
    (hpc : ∀ (h : Hart) (r : MachineRegisters), pc (h.withMachineRegisters r) = pc h) :
    Blind fun h => { h.setRegister rd (value h) with pc := pc h } := by
  intro h huser
  refine ⟨(h.privilege_setRegister rd _).trans huser, fun r => ?_⟩
  simp only [hvalue, hpc, setRegister_with]
  rfl

end Hart

def Core.withMachineRegisters {σ : Type} (c : Core σ) (r : MachineRegisters) : Core σ :=
  ⟨c.hart.withMachineRegisters r, c.bus⟩

namespace Exec

variable {σ α β : Type}

/-- What a computation comes to, but for other values in the registers of machine mode. -/
def withMachineRegisters (r : MachineRegisters) :
    EStateM.Result Interruption (Core σ) α → EStateM.Result Interruption (Core σ) α
  | .ok a core => .ok a (core.withMachineRegisters r)
  | .error why core => .error why (core.withMachineRegisters r)

/-- In user mode the computation stays there, and does the same over other values in the registers
of machine mode, which it leaves. -/
def Confined (x : Exec σ α) : Prop :=
  ∀ core : Core σ, core.hart.privilege = .user → (stateOf (x core)).hart.privilege = .user ∧
    ∀ r, x (core.withMachineRegisters r) = withMachineRegisters r (x core)

/-- What does the same over other values leaves the values that it finds. -/
theorem machineRegisters_of_blind {x : Exec σ α} {core : Core σ}
    (hsame : ∀ r, x (core.withMachineRegisters r) = withMachineRegisters r (x core)) :
    (stateOf (x core)).hart.machineRegisters = core.hart.machineRegisters := by
  have hown : x core = withMachineRegisters core.hart.machineRegisters (x core) :=
    hsame core.hart.machineRegisters
  rw [hown]
  cases x core <;> rfl

/-! ## The building blocks of an instruction -/

theorem Confined.pure (a : α) : Confined (Pure.pure a : Exec σ α) :=
  fun _ huser => ⟨huser, fun _ => rfl⟩

theorem Confined.raise (cause : Trap) : Confined (raise cause : Exec σ α) :=
  fun _ huser => ⟨huser, fun _ => rfl⟩

theorem Confined.onHart {change : Hart → Hart} (hchange : Hart.Blind change) :
    Confined (σ := σ) (onHart change) := by
  rintro ⟨hart, bus⟩ huser
  obtain ⟨hstays, hsame⟩ := hchange hart huser
  refine ⟨hstays, fun r => ?_⟩
  simp only [Exec.onHart, Core.withMachineRegisters, withMachineRegisters, hsame]

theorem Confined.callBus (call : EStateM BusFault σ α) (cause : Trap) :
    Confined (callBus call cause) := by
  rintro ⟨hart, bus⟩ huser
  unfold Exec.callBus
  simp only [Core.withMachineRegisters]
  cases call bus with
  | ok value bus' => exact ⟨huser, fun _ => rfl⟩
  | error fault bus' => cases fault <;> exact ⟨huser, fun _ => rfl⟩

theorem Confined.bind {x : Exec σ α} {f : α → Exec σ β} (hx : Confined x)
    (hf : ∀ a, Confined (f a)) : Confined (x >>= f) := by
  intro core huser
  have hfirst := hx core huser
  simp only [Bind.bind, EStateM.bind]
  revert hfirst
  cases x core with
  | ok a core₁ =>
      rintro ⟨huser₁, hsame⟩
      obtain ⟨huser₂, hsame'⟩ := hf a core₁ huser₁
      refine ⟨huser₂, fun r => ?_⟩
      rw [hsame r]
      exact hsame' r
  | error why core₁ =>
      rintro ⟨huser₁, hsame⟩
      refine ⟨huser₁, fun r => ?_⟩
      rw [hsame r]
      rfl

/-- What follows a look at the hart must not depend on the registers of machine mode. -/
theorem Confined.getHart {f : Hart → Exec σ α}
    (hblind : ∀ (h : Hart) (r : MachineRegisters), f (h.withMachineRegisters r) = f h)
    (hf : ∀ h : Hart, h.privilege = .user → Confined (f h)) : Confined (getHart >>= f) := by
  intro core huser
  obtain ⟨hstays, hsame⟩ := hf core.hart huser core huser
  refine ⟨hstays, fun r => ?_⟩
  rw [getHart_bind_apply, getHart_bind_apply, Core.withMachineRegisters, hblind]
  exact hsame r

/-! ## The functions of an instruction -/

/-- Of the registers that the hart serves itself, the counters are all that is open to user mode. -/
theorem counter_of_opens {number : UInt32} {csr : CoreCsr}
    (hcsr : CoreCsr.ofNumber? number = some csr)
    (hopen : Opens (fun h => h.privilege = .user) number) :
    csr = .cycle ∨ csr = .time ∨ csr = .cycleh ∨ csr = .timeh := by
  have hnumber : isMachineCsr number = false :=
    hopen.resolve_right fun ⟨_, huser, hother⟩ => hother huser
  unfold CoreCsr.ofNumber? at hcsr
  split at hcsr
  all_goals first
    | exact absurd hnumber (by decide)
    | (cases hcsr; decide)
    | cases hcsr

variable [Bus σ]

theorem confined_closed : Closed (σ := σ) (τ := σ) (fun h => h.privilege = .user)
    (fun change => Hart.Blind change.apply) fun _ x _ => Confined x where
  pure := .pure
  raise _ := .raise _
  bind := .bind
  look hheedless hf := .getHart (fun h _ => hheedless h _ _ _) hf
  peek hcsr hopen := by
    rcases counter_of_opens hcsr hopen with rfl | rfl | rfl | rfl <;>
      exact .getHart (fun _ _ => rfl) fun _ _ => .pure _
  change := .onHart
  read _ _ := .callBus _ _
  write _ _ _ := .callBus _ _
  readCsr _ _ := .callBus _ _
  writeCsr _ _ _ := .callBus _ _

/-- Only the instruction that waits writes a register of machine mode, and only the return from a
trap would leave user mode, if it were not refused. -/
theorem blind_of_makes {i : Isa.Instruction} (hwfi : i ≠ .wfi) {change : Hart.Change}
    (hmakes : i.Makes (fun h => h.privilege = .user) change) : Hart.Blind change.apply := by
  cases change with
  | finish rd value =>
      exact Hart.blind_result rd (fun _ => value) (fun h => h.pc + 4) (fun _ _ => rfl)
        fun _ _ => rfl
  | link rd target =>
      exact Hart.blind_result rd (fun h => h.pc + 4) (fun _ => target) (fun _ _ => rfl)
        fun _ _ => rfl
  | drop addr =>
      refine fun h huser => ⟨?_, fun r => ?_⟩
      · simp only [Hart.Change.apply]
        split <;> exact huser
      · have hsame : (h.withMachineRegisters r).reservation = h.reservation := rfl
        simp only [Hart.Change.apply, hsame]
        split <;> rfl
  | csr name value =>
      obtain ⟨number, -, hname, hopen⟩ := hmakes
      rcases counter_of_opens hname hopen with rfl | rfl | rfl | rfl <;>
        exact fun _ huser => ⟨huser, fun _ => rfl⟩
  | returnFromTrap =>
      obtain ⟨-, h, huser, hother⟩ := hmakes
      exact absurd huser hother
  | wait => exact absurd hmakes hwfi
  | _ => exact fun _ huser => ⟨huser, fun _ => rfl⟩

theorem executeDecoded_confined {word : UInt32} (hwfi : Isa.decode word ≠ some .wfi) :
    Confined (σ := σ) (executeDecoded word) := by
  refine executeDecoded_walks confined_closed.walk fun i hdecode change => blind_of_makes ?_
  exact fun hsame => hwfi (hdecode.trans (congrArg some hsame))

theorem fetch_confined : Confined (σ := σ) fetch :=
  fetch_closed confined_closed (Confined.onHart fun _ huser => ⟨huser, fun _ => rfl⟩)

/-! ## Instructions -/

/-- The word at the program counter is the instruction that waits. -/
def FetchesWait (core : Core σ) : Prop :=
  ∃ word core₁, fetch core = .ok word core₁ ∧ Isa.decode word = some .wfi

/-- The instruction waits and leaves interrupts enabled. Otherwise it leaves the registers of
machine mode as they are, and does the same whatever they hold. -/
def EnablesOnly (core : Core σ) : Prop :=
  ∃ core', executeOne core = .ok .wait core' ∧
    core'.hart.machineRegisters = core.hart.machineRegisters.enabled ∧
    ∀ r, executeOne (core.withMachineRegisters r) =
      .ok .wait (core'.withMachineRegisters r.enabled)

/-- An instruction in user mode stays there, and unless it waits it is blind to the registers of
machine mode. -/
theorem executeOne_user {core : Core σ} (huser : core.hart.privilege = .user) :
    core.after.hart.privilege = .user ∧
      ((∀ r, executeOne (core.withMachineRegisters r) =
          withMachineRegisters r (executeOne core)) ∨
        FetchesWait core ∧ EnablesOnly core) := by
  obtain ⟨huser₁, hsame⟩ := fetch_confined core huser
  have hkept := machineRegisters_of_blind hsame
  unfold Core.after
  cases hfetch : fetch core with
  | error why core₁ =>
      rw [hfetch] at huser₁ hsame
      have hone : executeOne core = .error why core₁ := by
        simp only [executeOne_eq, Bind.bind, EStateM.bind, hfetch]
      rw [hone]
      refine ⟨huser₁, .inl fun r => ?_⟩
      simp only [executeOne_eq, Bind.bind, EStateM.bind, hsame r]
      rfl
  | ok word core₁ =>
      rw [hfetch] at huser₁ hsame hkept
      have hone : executeOne core = executeDecoded word core₁ := by
        simp only [executeOne_eq, Bind.bind, EStateM.bind, hfetch]
      have hone' (r : MachineRegisters) : executeOne (core.withMachineRegisters r) =
          executeDecoded word (core₁.withMachineRegisters r) := by
        simp only [executeOne_eq, Bind.bind, EStateM.bind, hsame r]
        rfl
      -- to wait is the one instruction of user mode that writes a register of machine mode
      by_cases hwfi : Isa.decode word = some .wfi
      · have hwait : (executeDecoded word : Exec σ Flow) = execute word .wfi := by
          unfold executeDecoded
          rw [hwfi]
        rw [hwait] at hone hone'
        rw [hone]
        refine ⟨huser₁, .inr ⟨⟨word, core₁, hfetch, hwfi⟩, _, hone, ?_, hone'⟩⟩
        exact congrArg MachineRegisters.enabled hkept
      · obtain ⟨huser₂, hsame'⟩ := executeDecoded_confined hwfi core₁ huser₁
        rw [hone]
        exact ⟨huser₂, .inl fun r => (hone' r).trans (hsame' r)⟩

/-- Interrupts may be enabled, and nothing else of the registers of machine mode is changed. -/
theorem machineRegisters_after {core : Core σ} (huser : core.hart.privilege = .user) :
    core.after.hart.machineRegisters = core.hart.machineRegisters ∨
      FetchesWait core ∧ (∃ core', executeOne core = .ok .wait core') ∧
        core.after.hart.machineRegisters = core.hart.machineRegisters.enabled := by
  obtain ⟨-, hblind | ⟨hfetches, core', hone, henabled, -⟩⟩ := executeOne_user huser
  · exact .inl (machineRegisters_of_blind hblind)
  · refine .inr ⟨hfetches, ⟨core', hone⟩, ?_⟩
    rw [Core.after, hone]
    exact henabled

end Exec

namespace Core

variable {σ : Type} [Bus σ]

/-! ## Runs of instructions -/

/-- What comes of executing instructions one after the other: how those that retired went on, why
the one after them did not retire if there was one, and what they leave. -/
structure Stretch (σ : Type) where
  flows : List Flow
  interruption : Option Interruption
  core : Core σ

def Stretch.withMachineRegisters (s : Stretch σ) (r : MachineRegisters) : Stretch σ :=
  { s with core := s.core.withMachineRegisters r }

/-- Executes up to `n` instructions, up to the first that does not retire. -/
def instructions : Nat → Core σ → Stretch σ
  | 0, c => ⟨[], none, c⟩
  | n + 1, c =>
    match Exec.executeOne c with
    | .ok flow c' => { instructions n c' with flows := flow :: (instructions n c').flows }
    | .error why c' => ⟨[], some why, c'⟩

/-- Runs that start in user mode over different values in the registers of machine mode come to the
same, but for what is in these registers in the end. -/
theorem instructions_blind (n : Nat) {c : Core σ} (huser : c.hart.privilege = .user)
    (r : MachineRegisters) :
    ∃ r', instructions n (c.withMachineRegisters r) =
      (instructions n c).withMachineRegisters r' := by
  induction n generalizing c r with
  | zero => exact ⟨r, rfl⟩
  | succ n ih =>
      obtain ⟨hstays, hone⟩ := Exec.executeOne_user huser
      -- the next instruction finds the values that this one has left
      have hnext : ∃ r₁, Exec.executeOne (c.withMachineRegisters r) =
          Exec.withMachineRegisters r₁ (Exec.executeOne c) := by
        rcases hone with hblind | ⟨-, c', hwait, -, henables⟩
        · exact ⟨r, hblind r⟩
        · refine ⟨r.enabled, ?_⟩
          rw [henables r, hwait]
          rfl
      obtain ⟨r₁, hnext⟩ := hnext
      unfold instructions
      rw [hnext]
      rw [after] at hstays
      revert hstays
      cases Exec.executeOne c with
      | ok flow c' =>
          intro (hstays : c'.hart.privilege = .user)
          obtain ⟨r', hrest⟩ := ih hstays r₁
          refine ⟨r', ?_⟩
          simp only [Exec.withMachineRegisters, hrest, Stretch.withMachineRegisters]
      | error why c' => exact fun _ => ⟨r₁, rfl⟩

/-! ## Steps -/

/-- The hart is in user mode, or it was until it took a trap to the handler whose address is in
`mtvec`. -/
def StaysOrTraps (mtvec : UInt32) (h : Hart) : Prop :=
  h.privilege = .user ∨ ∃ (h₁ : Hart) (cause : Trap), h₁.privilege = .user ∧
    h = h₁.enterTrap cause ∧ h.pc = Hart.handlerAddress mtvec cause

theorem batch_user (n : Nat) {c : Core σ} (huser : c.hart.privilege = .user) :
    StaysOrTraps c.hart.csr.mtvec (stateOf (batch n c)).hart := by
  induction n generalizing c with
  | zero => exact .inl huser
  | succ n ih =>
      have hstays := (Exec.executeOne_user huser).1
      have hmtvec : c.after.hart.csr.mtvec = c.hart.csr.mtvec := by
        rcases Exec.machineRegisters_after huser with hkept | ⟨-, -, henabled⟩
        · exact congrArg MachineRegisters.mtvec hkept
        · exact congrArg MachineRegisters.mtvec henabled
      unfold batch
      rw [after] at hstays hmtvec
      revert hstays hmtvec
      cases Exec.executeOne c with
      | ok flow c' =>
          intro hstays hmtvec
          cases flow with
          | next => exact hmtvec ▸ ih hstays
          | wait => exact .inl hstays
          | power value => exact .inl hstays
      | error why c' =>
          obtain ⟨hart, bus⟩ := c'
          intro hstays hmtvec
          cases why with
          | storage error => exact .inl hstays
          | trap cause =>
              simp only [Hart.onException]
              cases hart.faultPolicy with
              | failFast => exact .inl hstays
              | delegate => exact .inr ⟨hart, cause, hstays, rfl, hmtvec ▸ rfl⟩

theorem step_user (limit : UInt32) (elapsed : UInt64) {c : Core σ}
    (huser : c.hart.privilege = .user) :
    StaysOrTraps c.hart.csr.mtvec (stateOf (step limit elapsed c)).hart := by
  have hadvanced : (c.hart.advanceTimer elapsed).privilege = .user := huser
  rw [step_eq]
  unfold proceed
  split
  · exact .inl hadvanced
  split
  · exact .inr ⟨_, _, hadvanced, rfl, rfl⟩
  · exact batch_user limit.toNat (c := ⟨c.hart.advanceTimer elapsed, c.bus⟩) hadvanced

/-- In user mode the registers of machine mode are out of reach, whatever the bus and the word that
is fetched. An instruction that retires leaves user mode and these registers as they are, except
that waiting enables interrupts. Runs of instructions over different values in them, up to the
first that does not retire, go on alike, make the same calls on the bus and end for the same reason,
in states that differ in these registers alone. And a step leaves user mode by taking a trap only,
which goes to the handler. -/
theorem user_isolated {c : Core σ} (huser : c.hart.privilege = .user) :
    (∀ flow c', Exec.executeOne c = .ok flow c' → c'.hart.privilege = .user ∧
      (c'.hart.machineRegisters = c.hart.machineRegisters ∨
        flow = .wait ∧ Exec.FetchesWait c ∧
          c'.hart.machineRegisters = c.hart.machineRegisters.enabled)) ∧
    (∀ n r, ∃ r', instructions n (c.traced.withMachineRegisters r) =
      (instructions n c.traced).withMachineRegisters r') ∧
    ∀ limit elapsed, StaysOrTraps c.hart.csr.mtvec (stateOf (step limit elapsed c)).hart := by
  refine ⟨fun flow c' hone => ?_, fun n r => instructions_blind (c := c.traced) n huser r,
    fun limit elapsed => step_user limit elapsed huser⟩
  have hstays := (Exec.executeOne_user huser).1
  have hkept := Exec.machineRegisters_after huser
  rw [after, hone] at hstays hkept
  refine ⟨hstays, hkept.imp_right ?_⟩
  rintro ⟨hfetches, ⟨_, ⟨⟩⟩, henabled⟩
  exact ⟨rfl, hfetches, henabled⟩

/-- `csrr x5, mscratch` in user mode: whatever the register holds, the word is fetched and refused,
and the handler is entered. -/
theorem user_isolated_mscratch :
    let c : Core Rom := ⟨{ Hart.new 4096 .delegate with privilege := .user }, ⟨0x340022F3⟩⟩
    let secret : MachineRegisters := { c.hart.machineRegisters with mscratch := 0xCAFE }
    let run := instructions 2 (c.traced.withMachineRegisters secret)
    c.hart.privilege = .user ∧ run.flows = [] ∧
      run.interruption = some (.trap (.illegalInstruction 0x340022F3)) ∧
      run.core.bus.calls = [⟨.read .word ramBase, none⟩] ∧ run.core.hart.register 5 = 0 ∧
      StaysOrTraps 0 (stateOf (step 1 0 c)).hart := by
  intro c secret run
  obtain ⟨-, hruns, hsteps⟩ := user_isolated (c := c) rfl
  obtain ⟨r', hrun⟩ := hruns 2 secret
  have hflows : (instructions 2 c.traced).flows = [] := by decide
  have hrefused : (instructions 2 c.traced).interruption =
      some (.trap (.illegalInstruction 0x340022F3)) := by decide
  have hcalls : (instructions 2 c.traced).core.bus.calls = [⟨.read .word ramBase, none⟩] := by
    decide
  have hregister : (instructions 2 c.traced).core.hart.register 5 = 0 := by decide
  have hsame : run = (instructions 2 c.traced).withMachineRegisters r' := hrun
  rw [hsame]
  exact ⟨rfl, hflows, hrefused, hcalls, hregister, hsteps 1 0⟩

end Core

end RiscvMachine
