import RiscvMachine.Proofs.Hart.PreciseTraps

set_option autoImplicit false

/-! # What an instruction changes

An instruction changes its hart by a few kinds of changes (`Hart.Change`), besides the cycle that
its fetch counts. So what is kept by every such edit and by every aligned call on the bus
(`Core.Stable`) is kept by what follows the fetch, and what cuts that short is no interrupt
(`Exec.Behaves`).

The timer is moved by no edit, and the cycle counter by the fetch only (`Core.counts_after`). A
batch therefore leaves the timer as it was started, and counts at most as many cycles as it may
execute instructions (`Core.counts_proceed`).
-/

namespace RiscvMachine

/-- What cuts an instruction short: an exception, but no interrupt, or a failure of the store. -/
def Interruption.IsException : Interruption → Prop
  | .trap cause => cause ∉ Trap.interrupts
  | .storage _ => True

def Hart.Edit (h h' : Hart) : Prop :=
  ∃ change : Change, h' = change.apply h

abbrev Hart.Edited : Hart → Hart → Prop := Relation.ReflTransGen Hart.Edit

/-- `P` is kept by every edit of the hart, and by every call that an instruction makes on the
bus. -/
structure Core.Stable {σ : Type} [Bus σ] (P : Core σ → Prop) : Prop where
  edit {h h' : Hart} {bus : σ} : h.Edit h' → P ⟨h, bus⟩ → P ⟨h', bus⟩
  read {width : Width} {addr : UInt32} {h : Hart} {bus : σ} : width.aligned addr →
    P ⟨h, bus⟩ → P ⟨h, stateOf (Bus.read width addr bus)⟩
  write {width : Width} {addr : UInt32} {h : Hart} {bus : σ} (value : UInt32) :
    width.aligned addr → P ⟨h, bus⟩ → P ⟨h, stateOf (Bus.write width addr value bus)⟩
  readCsr {h : Hart} {bus : σ} (number : UInt32) :
    P ⟨h, bus⟩ → P ⟨h, stateOf (Bus.readCsr number bus)⟩
  writeCsr {h : Hart} {bus : σ} (number value : UInt32) :
    P ⟨h, bus⟩ → P ⟨h, stateOf (Bus.writeCsr number value bus)⟩

namespace Exec

variable {σ : Type} [Bus σ] {α β : Type} {P : Core σ → Prop}

/-! ## The building blocks of an instruction -/

/-- The computation keeps `P`, whether it succeeds or fails. -/
def Keeps (P : Core σ → Prop) (x : Exec σ α) : Prop :=
  ∀ core, P core → P (stateOf (x core))

/-- The computation keeps `P`, whether it succeeds or fails, and what cuts it short is an
exception. -/
def Behaves (P : Core σ → Prop) (x : Exec σ α) : Prop :=
  ∀ core, P core → Ends (fun _ core' => P core') (fun why core' => why.IsException ∧ P core')
    (x core)

omit [Bus σ] in
theorem Behaves.keeps {x : Exec σ α} (hx : Behaves P x) : Keeps P x := by
  intro core h
  have hend := hx core h
  revert hend
  cases x core with
  | ok a core₁ => exact Ends.of_ok
  | error why core₁ => exact fun hend => hend.of_error.2

omit [Bus σ] in
theorem Behaves.pure (a : α) : Behaves P (Pure.pure a : Exec σ α) :=
  fun _ h => .ok h

omit [Bus σ] in
theorem Behaves.getHart : Behaves P getHart :=
  fun _ h => .ok h

omit [Bus σ] in
theorem Behaves.raise {cause : Trap} (hcause : cause ∉ Trap.interrupts) :
    Behaves P (raise cause : Exec σ α) :=
  fun _ h => .error ⟨hcause, h⟩

omit [Bus σ] in
theorem Behaves.bind {x : Exec σ α} {f : α → Exec σ β} (hx : Behaves P x)
    (hf : ∀ a, Behaves P (f a)) : Behaves P (x >>= f) := by
  intro core h
  have hfirst := hx core h
  simp only [Bind.bind, EStateM.bind]
  revert hfirst
  cases x core with
  | ok a core₁ => exact fun hfirst => hf a core₁ hfirst.of_ok
  | error why core₁ => exact fun hfirst => .error hfirst.of_error

omit [Bus σ] in
theorem Behaves.callBus {call : EStateM BusFault σ α}
    (hcall : ∀ {h : Hart} {bus : σ}, P ⟨h, bus⟩ → P ⟨h, stateOf (call bus)⟩)
    {cause : Trap} (hcause : cause ∉ Trap.interrupts) : Behaves P (callBus call cause) := by
  rintro ⟨hart, bus⟩ h
  have hbus := hcall h
  unfold Exec.callBus
  simp only
  revert hbus
  cases call bus with
  | ok value bus' => exact fun hbus => .ok hbus
  | error fault bus' =>
      cases fault with
      | unmapped => exact fun hbus => .error ⟨hcause, hbus⟩
      | storage error => exact fun hbus => .error ⟨trivial, hbus⟩

/-! ## The functions of an instruction -/

theorem behaves_closed (hP : Core.Stable P) :
    Closed (τ := σ) (fun _ => True) (fun _ => True) fun _ x _ => Behaves P x where
  pure := .pure
  raise := .raise
  bind := .bind
  look _ hf := Behaves.getHart.bind fun h => hf h trivial
  peek _ _ := Behaves.getHart.bind fun _ => .pure _
  change {change} _ := fun _ h => .ok (hP.edit ⟨change, rfl⟩ h)
  read haligned := .callBus (hP.read haligned)
  write value haligned := .callBus (hP.write value haligned)
  readCsr number := .callBus (hP.readCsr number)
  writeCsr number value := .callBus (hP.writeCsr number value)

theorem executeDecoded_behaves (hP : Core.Stable P) (word : UInt32) :
    Behaves P (executeDecoded word) :=
  executeDecoded_walks (behaves_closed hP).walk fun _ _ _ _ => trivial

theorem executeDecoded_keeps (hP : Core.Stable P) (word : UInt32) :
    Keeps P (executeDecoded word) :=
  (executeDecoded_behaves hP word).keeps

theorem executeDecoded_edits (word : UInt32) (core : Core σ) :
    core.hart.Edited (stateOf (executeDecoded word core)).hart := by
  have hstable : Core.Stable fun c : Core σ => core.hart.Edited c.hart :=
    ⟨fun hedit h => h.tail hedit, fun _ h => h, fun _ _ h => h, fun _ h => h, fun _ _ h => h⟩
  exact executeDecoded_keeps hstable word core .refl

/-- The hart that a fetch leaves is the same, or has counted a cycle. -/
theorem hart_fetch (core : Core σ) :
    (stateOf (fetch core)).hart = core.hart ∨ (stateOf (fetch core)).hart = core.hart.counted := by
  obtain ⟨calls, -, hafter⟩ := fetch_counts core.traced
  rw [show fetch core = _ from Traced.fetch_forget core.traced]
  revert hafter
  cases fetch core.traced with
  | ok word core₁ => exact fun hafter => .inr hafter.1
  | error why core₁ => exact fun hafter => .inl hafter.1

/-- An instruction edits the hart that its fetch has left. -/
theorem executeOne_edits (core : Core σ) :
    core.hart.Edited core.after.hart ∨ core.hart.counted.Edited core.after.hart := by
  have hfetch := hart_fetch core
  simp only [Core.after, executeOne_eq, Bind.bind, EStateM.bind]
  revert hfetch
  cases fetch core with
  | ok word core₁ =>
      have hedits := executeDecoded_edits word core₁
      rintro (hhart | hhart)
      · exact .inl (hhart ▸ hedits)
      · exact .inr (hhart ▸ hedits)
  | error why core₁ =>
      rintro (hhart | hhart)
      · exact .inl (hhart ▸ .refl)
      · exact .inr (hhart ▸ .refl)

end Exec

/-! ## Time -/

namespace Hart

theorem csr_setRegister (h : Hart) (rd : RegIndex) (value : UInt32) :
    (h.setRegister rd value).csr = h.csr := by
  unfold setRegister
  split <;> rfl

/-- `h'` has the time of `h` and has counted at most `n` cycles more. -/
def CountsTo (n : Nat) (h h' : Hart) : Prop :=
  h'.csr.timer = h.csr.timer ∧ ∃ k ≤ n, h'.csr.cycle = h.csr.cycle + UInt64.ofNat k

theorem CountsTo.refl (n : Nat) (h : Hart) : h.CountsTo n h :=
  ⟨rfl, 0, Nat.zero_le n, (UInt64.add_zero _).symm⟩

theorem CountsTo.trans {m n : Nat} {h h' h'' : Hart} (hfirst : h.CountsTo m h')
    (hsecond : h'.CountsTo n h'') : h.CountsTo (m + n) h'' := by
  obtain ⟨htimer, j, hj, hcycle⟩ := hfirst
  obtain ⟨htimer', k, hk, hcycle'⟩ := hsecond
  refine ⟨htimer'.trans htimer, j + k, Nat.add_le_add hj hk, ?_⟩
  rw [hcycle', hcycle, UInt64.ofNat_add, UInt64.add_assoc]

theorem CountsTo.mono {m n : Nat} {h h' : Hart} (hcounts : h.CountsTo m h') (hmn : m ≤ n) :
    h.CountsTo n h' := by
  obtain ⟨htimer, k, hk, hcycle⟩ := hcounts
  exact ⟨htimer, k, hk.trans hmn, hcycle⟩

/-- No edit moves the timer or the cycle counter. -/
theorem Edit.countsTo {h h' : Hart} (hedit : h.Edit h') : h.CountsTo 0 h' := by
  obtain ⟨change, rfl⟩ := hedit
  have hclock : (change.apply h).csr.timer = h.csr.timer ∧
      (change.apply h).csr.cycle = h.csr.cycle := by
    cases change with
    | finish rd value =>
        have hcsr := h.csr_setRegister rd value
        exact ⟨congrArg (·.timer) hcsr, congrArg (·.cycle) hcsr⟩
    | link rd target =>
        have hcsr := h.csr_setRegister rd (h.pc + 4)
        exact ⟨congrArg (·.timer) hcsr, congrArg (·.cycle) hcsr⟩
    | drop addr =>
        simp only [Change.apply]
        split <;> exact ⟨rfl, rfl⟩
    | csr name value => cases name <;> exact ⟨rfl, rfl⟩
    | _ => exact ⟨rfl, rfl⟩
  exact ⟨hclock.1, 0, le_rfl, hclock.2.trans (UInt64.add_zero _).symm⟩

theorem Edited.countsTo {h h' : Hart} (hedited : h.Edited h') : h.CountsTo 0 h' := by
  induction hedited with
  | refl => exact .refl 0 h
  | tail _ hedit ih => exact ih.trans hedit.countsTo

end Hart

namespace Core

variable {σ : Type} [Bus σ]

/-- An instruction counts a cycle at most. -/
theorem counts_after (c : Core σ) : c.hart.CountsTo 1 c.after.hart := by
  rcases Exec.executeOne_edits c with hedited | hedited
  · exact hedited.countsTo.mono (Nat.zero_le 1)
  · have hfetch : c.hart.CountsTo 1 c.hart.counted := ⟨rfl, 1, le_rfl, rfl⟩
    exact hfetch.trans hedited.countsTo

/-- What a step does once it has advanced the timer. -/
def proceed (limit : UInt32) : EStateM StorageError (Core σ) Outcome := fun core =>
  if core.hart.waiting then .ok .waitForInterrupt core
  else
    match core.hart.pendingInterrupt with
    | some cause => .ok .ran ⟨core.hart.enterTrap cause, core.bus⟩
    | none => batch limit.toNat core

theorem step_eq (limit : UInt32) (elapsed : UInt64) (c : Core σ) :
    step limit elapsed c = proceed limit ⟨c.hart.advanceTimer elapsed, c.bus⟩ :=
  rfl

theorem counts_batch (n : Nat) (c : Core σ) :
    c.hart.CountsTo n (stateOf (batch n c)).hart := by
  induction n generalizing c with
  | zero => exact .refl 0 c.hart
  | succ n ih =>
      -- the first instruction counts one cycle, and the others are a shorter batch
      have hfirst := c.counts_after
      unfold batch
      simp only [after] at hfirst
      revert hfirst
      cases Exec.executeOne c with
      | ok flow c₁ =>
          intro hfirst
          cases flow with
          | next => exact (hfirst.trans (ih c₁)).mono (Nat.add_comm 1 n).le
          | wait => exact hfirst.mono (Nat.le_add_left 1 n)
          | power value => exact hfirst.mono (Nat.le_add_left 1 n)
      | error why c₁ =>
          intro hfirst
          obtain ⟨hart, bus⟩ := c₁
          cases why with
          | storage error => exact hfirst.mono (Nat.le_add_left 1 n)
          | trap cause =>
              have hexception : hart.CountsTo 0 (hart.onException cause).2 := by
                unfold Hart.onException
                cases hart.faultPolicy <;> exact .refl 0 hart
              exact (hfirst.trans hexception).mono (Nat.le_add_left 1 n)

/-- A batch leaves the timer as it was when it started. -/
theorem counts_proceed (limit : UInt32) (c : Core σ) :
    c.hart.CountsTo limit.toNat (stateOf (proceed limit c)).hart := by
  unfold proceed
  split
  · exact .refl _ c.hart
  · split
    · exact .refl _ c.hart
    · exact counts_batch limit.toNat c

end Core

end RiscvMachine
