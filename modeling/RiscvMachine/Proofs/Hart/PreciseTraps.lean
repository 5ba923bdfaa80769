import RiscvMachine.Proofs.Hart.Trace

set_option autoImplicit false

/-! # Traps are precise

An instruction that does not retire leaves no trace but the cycle that its fetch has counted and
perhaps a dropped reservation (`executeOne_precise`). The reason is the order in which every
instruction does its work: first what may fail without having changed anything (`Quiet`), then at
most one write on the bus, and then what cannot fail (`Total`). Computations of that shape are
`Precise`, and the functions of the hart are put together from the lemmas about the three.
-/

namespace RiscvMachine

/-- Whether a failed bus call is the reason for an interruption. -/
def BusFault.Causes : BusFault → Interruption → Prop
  | .unmapped, why => ∃ cause, why = .trap cause
  | .storage error, why => why = .storage error

/-- None of the calls is a write. -/
def NoWrites (calls : List BusEvent) : Prop :=
  ∀ event ∈ calls, event.call.isWrite = false

/-- The calls of an interrupted instruction: none of them is a write, except that the last one
may be a write that failed and so caused the interruption. -/
def StoppedBy (why : Interruption) (calls : List BusEvent) : Prop :=
  NoWrites calls ∨ ∃ before call fault, calls = before ++ [⟨call, some fault⟩] ∧
    NoWrites before ∧ fault.Causes why

theorem noWrites_nil : NoWrites [] := nofun

theorem NoWrites.append {calls calls' : List BusEvent} (h : NoWrites calls)
    (h' : NoWrites calls') : NoWrites (calls ++ calls') := by
  intro event hevent
  rcases List.mem_append.mp hevent with hevent | hevent
  · exact h event hevent
  · exact h' event hevent

theorem StoppedBy.append {why : Interruption} {calls calls' : List BusEvent}
    (h : NoWrites calls) (h' : StoppedBy why calls') : StoppedBy why (calls ++ calls') := by
  rcases h' with h' | ⟨before, call, fault, rfl, hbefore, hcauses⟩
  · exact .inl (h.append h')
  · exact .inr ⟨calls ++ before, call, fault, (List.append_assoc _ _ _).symm, h.append hbefore,
      hcauses⟩

namespace Hart

/-- The hart is the same, or it has lost its reservation. -/
def Drops (h h' : Hart) : Prop :=
  h' = h ∨ h' = { h with reservation := none }

theorem Drops.trans {h h' h'' : Hart} (hd : h.Drops h') (hd' : h'.Drops h'') : h.Drops h'' := by
  rcases hd with rfl | rfl
  · exact hd'
  · rcases hd' with rfl | rfl
    · exact .inr rfl
    · exact .inr rfl

theorem Change.Frees.drops {addr : UInt32} {change : Change} (hfrees : change.Frees addr)
    (h : Hart) : h.Drops (change.apply h) := by
  cases hfrees with
  | release => exact .inr rfl
  | drop =>
      simp only [Change.apply]
      split
      · exact .inr rfl
      · exact .inl rfl

end Hart

namespace Exec

variable {σ : Type} {α β : Type}

/-- `core'` is `core` after the given calls and with the hart as it is. -/
def After (calls : List BusEvent) (core core' : Core (Traced σ)) : Prop :=
  core'.hart = core.hart ∧ core'.bus.calls = core.bus.calls ++ calls

/-- The computation leaves the hart as it is and writes nothing. -/
def Quiet (x : Exec (Traced σ) α) : Prop :=
  ∀ core, ∃ calls, NoWrites calls ∧
    match x core with
    | .ok _ core' => After calls core core'
    | .error _ core' => After calls core core'

/-- The computation does not fail. -/
def Total (x : Exec (Traced σ) α) : Prop :=
  ∀ core, ∃ a core', x core = .ok a core'

/-- The computation, if it fails, has at most dropped the reservation, and written nothing. -/
def Precise (x : Exec (Traced σ) α) : Prop :=
  ∀ core why core', x core = .error why core' →
    core.hart.Drops core'.hart ∧
    ∃ calls, StoppedBy why calls ∧ core'.bus.calls = core.bus.calls ++ calls

/-! ## Computations that change nothing -/

theorem Quiet.pure (a : α) : Quiet (σ := σ) (Pure.pure a) :=
  fun _ => ⟨[], noWrites_nil, rfl, (List.append_nil _).symm⟩

theorem Quiet.raise (cause : Trap) : Quiet (σ := σ) (raise (α := α) cause) :=
  fun _ => ⟨[], noWrites_nil, rfl, (List.append_nil _).symm⟩

theorem Quiet.getHart : Quiet (σ := σ) getHart :=
  fun _ => ⟨[], noWrites_nil, rfl, (List.append_nil _).symm⟩

theorem Quiet.bind {x : Exec (Traced σ) α} {f : α → Exec (Traced σ) β} (hx : Quiet x)
    (hf : ∀ a, Quiet (f a)) : Quiet (x >>= f) := by
  intro core
  obtain ⟨calls, hcalls, hafter⟩ := hx core
  simp only [Bind.bind, EStateM.bind]
  revert hafter
  cases x core with
  | error why core₁ => exact fun hafter => ⟨calls, hcalls, hafter⟩
  | ok a core₁ =>
      rintro ⟨hhart, hlog⟩
      obtain ⟨calls', hcalls', hafter'⟩ := hf a core₁
      refine ⟨calls ++ calls', hcalls.append hcalls', ?_⟩
      simp only
      revert hafter'
      cases f a core₁ <;>
        exact fun ⟨hhart', hlog'⟩ =>
          ⟨hhart'.trans hhart, by rw [hlog', hlog, List.append_assoc]⟩

/-- A bus call that is no write. -/
theorem Quiet.callBus {call : BusCall} (hcall : call.isWrite = false)
    (request : EStateM BusFault σ α) (cause : Trap) :
    Quiet (callBus (Traced.record call request) cause) := by
  rintro ⟨hart, bus, calls⟩
  unfold Exec.callBus Traced.record
  simp only
  cases request bus with
  | ok a bus' =>
      exact ⟨[⟨call, none⟩], by simpa [NoWrites] using hcall, rfl, rfl⟩
  | error fault bus' =>
      refine ⟨[⟨call, some fault⟩], by simpa [NoWrites] using hcall, ?_⟩
      cases fault <;> exact ⟨rfl, rfl⟩

/-! ## Computations that do not fail -/

theorem Total.pure (a : α) : Total (σ := σ) (Pure.pure a) :=
  fun core => ⟨a, core, rfl⟩

theorem Total.onHart (change : Hart → Hart) : Total (σ := σ) (onHart change) :=
  fun ⟨_, _⟩ => ⟨_, _, rfl⟩

theorem Total.bind {x : Exec (Traced σ) α} {f : α → Exec (Traced σ) β} (hx : Total x)
    (hf : ∀ a, Total (f a)) : Total (x >>= f) := by
  intro core
  obtain ⟨a, core₁, hok⟩ := hx core
  obtain ⟨b, core₂, hok'⟩ := hf a core₁
  refine ⟨b, core₂, ?_⟩
  simp only [Bind.bind, EStateM.bind, hok, hok']

/-! ## Computations that fail without a trace -/

theorem Quiet.precise {x : Exec (Traced σ) α} (hx : Quiet x) : Precise x := by
  intro core why core' herror
  obtain ⟨calls, hcalls, hafter⟩ := hx core
  rw [herror] at hafter
  exact ⟨.inl hafter.1, calls, .inl hcalls, hafter.2⟩

theorem Total.precise {x : Exec (Traced σ) α} (hx : Total x) : Precise x := by
  intro core why core' herror
  obtain ⟨a, core₁, hok⟩ := hx core
  rw [hok] at herror
  cases herror

/-- What changes nothing may come before anything. -/
theorem Quiet.then {x : Exec (Traced σ) α} {f : α → Exec (Traced σ) β} (hx : Quiet x)
    (hf : ∀ a, Precise (f a)) : Precise (x >>= f) := by
  intro core why core' herror
  obtain ⟨calls, hcalls, hafter⟩ := hx core
  simp only [Bind.bind, EStateM.bind] at herror
  revert hafter herror
  cases x core with
  | error why₁ core₁ =>
      rintro ⟨⟩ ⟨hhart, hlog⟩
      exact ⟨.inl hhart, calls, .inl hcalls, hlog⟩
  | ok a core₁ =>
      rintro herror ⟨hhart, hlog⟩
      obtain ⟨hdrops, calls', hcalls', hlog'⟩ := hf a core₁ why core' herror
      exact ⟨hhart ▸ hdrops, calls ++ calls', hcalls'.append hcalls,
        by rw [hlog', hlog, List.append_assoc]⟩

/-- What cannot fail may come after anything. -/
theorem Precise.then {x : Exec (Traced σ) α} {f : α → Exec (Traced σ) β} (hx : Precise x)
    (hf : ∀ a, Total (f a)) : Precise (x >>= f) := by
  intro core why core' herror
  simp only [Bind.bind, EStateM.bind] at herror
  revert herror
  cases hresult : x core with
  | error why₁ core₁ =>
      rintro ⟨⟩
      exact hx core why core' hresult
  | ok a core₁ =>
      obtain ⟨b, core₂, hok⟩ := hf a core₁
      simp only [hok]
      exact nofun

/-- The reservation may be dropped before anything. -/
theorem Precise.drop {change : Hart → Hart} {f : Unit → Exec (Traced σ) β}
    (hchange : ∀ h : Hart, h.Drops (change h)) (hf : ∀ a, Precise (f a)) :
    Precise (onHart change >>= f) := by
  rintro ⟨hart, bus⟩ why core' herror
  obtain ⟨hdrops, hcalls⟩ := hf () ⟨change hart, bus⟩ why core' herror
  exact ⟨(hchange hart).trans hdrops, hcalls⟩

/-- A bus call, be it a write, fails as it is recorded. -/
theorem Precise.callBus (call : BusCall) (request : EStateM BusFault σ α) (cause : Trap) :
    Precise (callBus (Traced.record call request) cause) := by
  rintro ⟨hart, bus, calls⟩ why core' herror
  unfold Exec.callBus Traced.record at herror
  simp only at herror
  revert herror
  cases request bus with
  | ok a bus' => exact nofun
  | error fault bus' =>
      cases fault with
      | unmapped =>
          rintro ⟨⟩
          exact ⟨.inl rfl, [⟨call, some .unmapped⟩],
            .inr ⟨[], call, .unmapped, rfl, noWrites_nil, cause, rfl⟩, rfl⟩
      | storage error =>
          rintro ⟨⟩
          exact ⟨.inl rfl, [⟨call, some (.storage error)⟩],
            .inr ⟨[], call, .storage error, rfl, noWrites_nil, rfl⟩, rfl⟩

/-! ## The functions of an instruction -/

variable [Bus σ]

/-- Every instruction does its work in this order. -/
theorem precise_walk : Walk (σ := Traced σ) (τ := Traced σ) (fun _ => True) (fun _ => True)
    (fun _ x _ => Quiet x) (fun _ x _ => Precise x) fun _ x _ => Total x where
  pure := .pure
  raise _ := .raise _
  peek _ _ := Quiet.getHart.bind fun _ => .pure _
  read _ _ := .callBus rfl _ _
  readCsr _ _ := .callBus rfl _ _
  bind := .bind
  done := .pure
  change _ := .onHart _
  next := .bind
  of_reads := Quiet.precise
  of_closes := Total.precise
  look _ hf := Quiet.getHart.then fun h => hf h trivial
  after := Quiet.then
  write _ _ _ hfrees _ hf := .drop hfrees.drops fun _ => (Precise.callBus _ _ _).then hf
  update _ _ _ _ hf := (Precise.callBus _ _ _).then fun _ => (Total.onHart _).bind hf
  writeCsr _ _ _ hf := (Precise.callBus _ _ _).then hf

theorem executeDecoded_precise (word : UInt32) : Precise (σ := σ) (executeDecoded word) :=
  executeDecoded_walks precise_walk fun _ _ _ _ => trivial

end Exec

/-! ## A whole instruction -/

namespace Hart

/-- The hart after a fetch that succeeded. -/
def counted (h : Hart) : Hart :=
  { h with csr := h.csr.advanceCycles 1 }

@[simp] theorem register_counted (h : Hart) (r : RegIndex) : h.counted.register r = h.register r :=
  rfl

@[simp] theorem reservation_counted (h : Hart) : h.counted.reservation = h.reservation :=
  rfl

theorem counted_cycle_ne (cycle : UInt64) : cycle + 1 ≠ cycle := by
  intro h
  have hnat := congrArg UInt64.toNat h
  have hlt := cycle.toNat_lt
  rw [UInt64.toNat_add, show (1 : UInt64).toNat = 1 from rfl] at hnat
  omega

/-- The bit of the interrupt enable is either clear or set. -/
theorem and_mie_eq (status : UInt32) :
    status &&& Mstatus.mie = 0 ∨ status &&& Mstatus.mie = Mstatus.mie := by
  have hbit : status.toNat &&& 2 ^ 3 = (status.toNat.testBit 3).toNat * 2 ^ 3 :=
    Nat.and_two_pow _ _
  cases htest : status.toNat.testBit 3 with
  | false =>
      left
      apply UInt32.toNat_inj.mp
      rw [UInt32.toNat_and]
      rw [htest] at hbit
      exact hbit
  | true =>
      right
      apply UInt32.toNat_inj.mp
      rw [UInt32.toNat_and]
      rw [htest] at hbit
      exact hbit

/-- Returning from a handler that has left the saved state alone goes back to where the trap was
taken, in the same mode. -/
theorem returnFromTrap_enterTrap (h : Hart) (cause : Trap) :
    (h.enterTrap cause).returnFromTrap =
      { h with
        waiting := false
        csr := { h.csr with
          mepc := h.pc
          mcause := cause.code
          mtval := cause.value
          mstatus := (h.csr.mstatus &&& Mstatus.mie) ||| Mstatus.mpie } } := by
  simp only [enterTrap, returnFromTrap]
  rcases and_mie_eq h.csr.mstatus with hmie | hmie <;> rw [hmie] <;>
    cases hprivilege : h.privilege <;> rfl

end Hart

namespace Exec

variable {σ : Type} [Bus σ]

/-- The computation writes nothing, counts a cycle if it succeeds, and otherwise leaves the hart
as it is. -/
def Counts {α : Type} (x : Exec (Traced σ) α) : Prop :=
  ∀ core, ∃ calls, NoWrites calls ∧
    match x core with
    | .ok _ core' => core'.hart = core.hart.counted ∧ core'.bus.calls = core.bus.calls ++ calls
    | .error _ core' => After calls core core'

omit [Bus σ] in
theorem Counts.raise {α : Type} (cause : Trap) : Counts (σ := σ) (raise (α := α) cause) :=
  fun _ => ⟨[], noWrites_nil, rfl, (List.append_nil _).symm⟩

omit [Bus σ] in
theorem Quiet.thenCounts {α β : Type} {x : Exec (Traced σ) α} {f : α → Exec (Traced σ) β}
    (hx : Quiet x) (hf : ∀ a, Counts (f a)) : Counts (x >>= f) := by
  intro core
  obtain ⟨calls, hcalls, hafter⟩ := hx core
  simp only [Bind.bind, EStateM.bind]
  revert hafter
  cases x core with
  | error why core₁ => exact fun hafter => ⟨calls, hcalls, hafter⟩
  | ok a core₁ =>
      rintro ⟨hhart, hlog⟩
      obtain ⟨calls', hcalls', hafter'⟩ := hf a core₁
      refine ⟨calls ++ calls', hcalls.append hcalls', ?_⟩
      simp only
      revert hafter'
      cases f a core₁ <;>
        exact fun ⟨hhart', hlog'⟩ =>
          ⟨by rw [hhart', hhart], by rw [hlog', hlog, List.append_assoc]⟩

/-- A fetch writes nothing. It counts a cycle if it succeeds and changes nothing otherwise. -/
theorem fetch_counts : Counts (fetch : Exec (Traced σ) UInt32) := by
  simp only [fetch, raise_bind]
  refine Quiet.getHart.thenCounts fun h => ?_
  split
  · exact Counts.raise _
  split
  · exact Counts.raise _
  -- the cycle is counted once the word has arrived
  refine (Quiet.callBus rfl _ _).thenCounts fun word => ?_
  exact fun _ => ⟨[], noWrites_nil, rfl, (List.append_nil _).symm⟩

/-- The only call of a fetch that succeeds is the read of the word. -/
theorem fetch_traced {h : Hart} {bus : σ} {word : UInt32} {core : Core σ}
    (hfetch : fetch ⟨h, bus⟩ = .ok word core) :
    core.hart = h.counted ∧ fetch (⟨h, bus, []⟩ : Core (Traced σ)) =
      .ok word ⟨h.counted, core.bus, [⟨.read .word h.pc, none⟩]⟩ := by
  simp only [fetch, raise_bind, getHart_bind_apply] at hfetch ⊢
  split at hfetch
  · cases hfetch
  rw [if_neg ‹_›]
  split at hfetch
  · cases hfetch
  rw [if_neg ‹_›]
  simp only [bind, EStateM.bind, callBus, Bus.read, Traced.record] at hfetch ⊢
  cases hread : Bus.read .word h.pc bus with
  | ok value bus' =>
      rw [hread] at hfetch
      cases hfetch
      exact ⟨rfl, rfl⟩
  | error fault bus' =>
      rw [hread] at hfetch
      cases fault <;> cases hfetch

/-- An interrupted instruction, in parts: its fetch was interrupted, or it counted a cycle and
then was interrupted by what follows. -/
theorem executeOne_error {core core' : Core (Traced σ)} {why : Interruption}
    (herror : executeOne core = .error why core') :
    (∃ calls, StoppedBy why calls ∧ core'.bus.calls = core.bus.calls ++ calls) ∧
    match fetch core with
    | .ok _ _ => core.hart.counted.Drops core'.hart
    | .error _ _ => core'.hart = core.hart := by
  obtain ⟨calls, hcalls, hfetch⟩ := fetch_counts core
  simp only [executeOne, bind, EStateM.bind] at herror
  revert hfetch herror
  cases fetch core with
  | error why₁ core₁ =>
      rintro ⟨⟩ ⟨hhart, hlog⟩
      exact ⟨⟨calls, .inl hcalls, hlog⟩, hhart⟩
  | ok word core₁ =>
      rintro herror ⟨hhart, hlog⟩
      obtain ⟨hdrops, calls', hcalls', hlog'⟩ := executeDecoded_precise word core₁ why core' herror
      refine ⟨⟨calls ++ calls', hcalls'.append hcalls, ?_⟩, hhart ▸ hdrops⟩
      rw [hlog', hlog, List.append_assoc]

/-- What an interrupted instruction leaves of the hart. The cycle tells what its fetch came to. -/
theorem executeOne_error_hart {h h' : Hart} {bus bus' : σ} {calls : List BusEvent}
    {why : Interruption}
    (herror : executeOne (⟨h, bus, []⟩ : Core (Traced σ)) = .error why ⟨h', bus', calls⟩) :
    ∃ cycle reservation,
      h' = { h with csr := { h.csr with cycle := cycle }, reservation := reservation } ∧
      (reservation = h.reservation ∨ reservation = none) ∧
      ((cycle = h.csr.cycle + 1 ∧ ∃ word core, fetch ⟨h, bus⟩ = .ok word core) ∨
        (cycle = h.csr.cycle ∧ ∃ why core, fetch ⟨h, bus⟩ = .error why core)) := by
  have hhart := (executeOne_error herror).2
  have hagree := fetch_simulates Traced.traced_simulation ⟨h, bus⟩ ⟨h, bus, []⟩ ⟨rfl, rfl⟩
  revert hagree hhart
  cases fetch (⟨h, bus, []⟩ : Core (Traced σ)) with
  | ok word core =>
      intro hdrops
      cases fetch (⟨h, bus⟩ : Core σ) with
      | ok word₁ core₁ =>
          intro _
          rcases hdrops with rfl | rfl
          · exact ⟨_, _, rfl, .inl rfl, .inl ⟨rfl, word₁, core₁, rfl⟩⟩
          · exact ⟨_, _, rfl, .inr rfl, .inl ⟨rfl, word₁, core₁, rfl⟩⟩
      | error why₁ core₁ => exact False.elim
  | error why₁ core =>
      intro hsame
      obtain rfl : h = h' := hsame.symm
      cases fetch (⟨h, bus⟩ : Core σ) with
      | ok word₁ core₁ => exact False.elim
      | error why₂ core₁ => exact fun _ => ⟨_, _, rfl, .inl rfl, .inr ⟨rfl, why₂, core₁, rfl⟩⟩

omit [Bus σ] in
/-- If a cycle is counted upon success only, then the cycles tell success from failure. -/
theorem cycle_iff {α : Type} {x : Exec σ α} {core : Core σ} {cycle cycle' : UInt64}
    (h : (cycle' = cycle + 1 ∧ ∃ a core', x core = .ok a core') ∨
      (cycle' = cycle ∧ ∃ why core', x core = .error why core')) :
    (cycle' = cycle + 1 ↔ ∃ a core', x core = .ok a core') ∧
      (cycle' = cycle ↔ ∃ why core', x core = .error why core') := by
  have hne := Hart.counted_cycle_ne cycle
  rcases h with ⟨rfl, a, core₁, hok⟩ | ⟨rfl, why, core₁, herror⟩
  · refine ⟨⟨fun _ => ⟨a, core₁, hok⟩, fun _ => rfl⟩, fun heq => absurd heq hne, ?_⟩
    rintro ⟨why, core₂, herror⟩
    rw [hok] at herror
    cases herror
  · refine ⟨⟨fun heq => absurd heq.symm hne, ?_⟩, fun _ => ⟨why, core₁, herror⟩, fun _ => rfl⟩
    rintro ⟨a, core₂, hok⟩
    rw [herror] at hok
    cases hok

/-- Precise traps: an instruction that does not retire leaves the hart as it was, but for a cycle
if its fetch has succeeded and for the reservation, which may be gone. It has completed no write
on the bus. So a guest that handles the trap finds the address of the instruction in `mepc`, and
returning from the handler executes it again from where it stood. -/
theorem executeOne_precise {h h' : Hart} {bus bus' : σ} {why : Interruption}
    (herror : executeOne ⟨h, bus⟩ = .error why ⟨h', bus'⟩) :
    h' = { h with
      csr := { h.csr with cycle := h'.csr.cycle }
      reservation := h'.reservation } ∧
    (h'.csr.cycle = h.csr.cycle + 1 ↔ ∃ word core, fetch ⟨h, bus⟩ = .ok word core) ∧
    (h'.csr.cycle = h.csr.cycle ↔ ∃ why core, fetch ⟨h, bus⟩ = .error why core) ∧
    (h'.reservation = h.reservation ∨ h'.reservation = none) ∧
    (∃ calls, StoppedBy why calls ∧
      executeOne (⟨h, bus, []⟩ : Core (Traced σ)) = .error why ⟨h', bus', calls⟩) ∧
    ∀ cause, why = .trap cause → h.faultPolicy = .delegate →
      (∀ n, Core.batch (n + 1) ⟨h, bus⟩ = .ok .ran ⟨h'.enterTrap cause, bus'⟩) ∧
      (h'.enterTrap cause).csr.mepc = h.pc ∧
      (h'.enterTrap cause).returnFromTrap =
        { h with
          waiting := false
          reservation := h'.reservation
          csr := { h.csr with
            cycle := h'.csr.cycle
            mepc := h.pc
            mcause := cause.code
            mtval := cause.value
            mstatus := (h.csr.mstatus &&& Mstatus.mie) ||| Mstatus.mpie } } := by
  -- the calls are read off a traced bus, over which the instruction does the same
  obtain ⟨calls, htraced⟩ := Traced.executeOne_traced herror
  obtain ⟨⟨calls', hcalls, hlog⟩, -⟩ := executeOne_error htraced
  obtain rfl : calls = calls' := hlog
  obtain ⟨cycle, reservation, rfl, hreservation, hfetch⟩ := executeOne_error_hart htraced
  obtain ⟨hcounted, hsame⟩ := cycle_iff hfetch
  refine ⟨rfl, hcounted, hsame, hreservation, ⟨calls, hcalls, htraced⟩, ?_⟩
  rintro cause rfl hpolicy
  refine ⟨?_, rfl, Hart.returnFromTrap_enterTrap _ cause⟩
  intro n
  simp only [Core.batch, herror, Hart.onException, hpolicy]

end Exec

/-- A bus that holds one word everywhere and takes no writes. -/
structure Rom where
  word : UInt32

instance : Bus Rom where
  read _ _ := fun rom => .ok rom.word rom
  write _ _ _ := fun rom => .error .unmapped rom
  readCsr _ := fun rom => .ok 0 rom
  writeCsr _ _ := fun rom => .error .unmapped rom

/-- `sw x0, 0(x0)` where memory takes no writes: the reservation of the word is gone, a cycle is
counted, and the handler finds the store in `mepc`. -/
theorem Exec.executeOne_precise_refused_store :
    ∃ h', Exec.executeOne (σ := Rom)
        ⟨{ Hart.new 4096 .delegate with reservation := some 0 }, ⟨0x00002023⟩⟩
        = .error (.trap (.storeAccessFault 0)) ⟨h', ⟨0x00002023⟩⟩ ∧
      h'.csr.cycle = 1 ∧ h'.reservation = none ∧
      (h'.enterTrap (.storeAccessFault 0)).csr.mepc = ramBase := by
  have herror : Exec.executeOne (σ := Rom)
      ⟨{ Hart.new 4096 .delegate with reservation := some 0 }, ⟨0x00002023⟩⟩
      = .error (.trap (.storeAccessFault 0))
        ⟨(Hart.new 4096 .delegate).counted, ⟨0x00002023⟩⟩ := by rfl
  obtain ⟨-, hcycle, -, -, -, hdelegate⟩ := Exec.executeOne_precise herror
  obtain ⟨-, hmepc, -⟩ := hdelegate _ rfl rfl
  exact ⟨_, herror, hcycle.mpr ⟨_, _, rfl⟩, rfl, hmepc⟩

end RiscvMachine
