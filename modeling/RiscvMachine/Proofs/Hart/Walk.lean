import RiscvMachine.Hart.Step
import RiscvMachine.Proofs.Computation

set_option autoImplicit false

/-! # What an instruction is made of

Whatever is proved of every instruction is proved along the same lines: it holds of the few things
that an instruction may do, a look at the hart, a change of it and a call on the bus, and it is kept
where these are put together. `Exec.Closed` says so of one property, and `Exec.Walk` of three
properties where the order counts: an instruction first does what may be cut short without having
changed anything, then writes on the bus at most once, and then does what cannot fail.
`Exec.execute_walks` is the walk over the definitions of the instructions. It is made here once, for
two computations side by side, so that it serves relations between them as well.

What an instruction changes in the hart is one of the changes in `Hart.Change`, and which of them it
may make is told by `Isa.Instruction.Makes`.
-/

namespace RiscvMachine

/-! ## Traps and control registers -/

namespace Trap

/-- The interrupts, each before those that it takes precedence over. -/
def interrupts : List Trap :=
  [.machineExternalInterrupt, .machineSoftwareInterrupt, .machineTimerInterrupt]

@[simp] theorem mem_interrupts {cause : Trap} :
    cause ∈ interrupts ↔ cause = .machineExternalInterrupt ∨ cause = .machineSoftwareInterrupt ∨
      cause = .machineTimerInterrupt := by
  simp [interrupts]

end Trap

/-- The two tables name the same registers. -/
theorem CoreCsr.ofWrittenNumber?_eq (number : UInt32) :
    ofWrittenNumber? number = ofNumber? number := by
  unfold ofWrittenNumber? ofNumber?
  split <;> split <;> simp_all

/-- The number of the control register that an instruction writes, if it writes one. -/
def Isa.Instruction.writtenCsr? : Instruction → Option UInt32
  | .csr op _ source number =>
    if op = some .write || source.field.val ≠ 0 then some number else none
  | _ => none

/-- Some of the harts may use the control register with the given number. -/
def Opens (harts : Hart → Prop) (number : UInt32) : Prop :=
  Exec.isMachineCsr number = false ∨ ∃ h, harts h ∧ h.privilege ≠ .user

/-! ## Changes of the hart -/

inductive Hart.Change
  | advance
  | finish (rd : RegIndex) (value : UInt32)
  | jump (target : UInt32)
  | link (rd : RegIndex) (target : UInt32)
  | reserve (addr : UInt32)
  | release
  | drop (addr : UInt32)
  | csr (name : CoreCsr) (value : UInt32)
  | timerMatchLow (value : UInt32)
  | timerMatchHigh (value : UInt32)
  | returnFromTrap
  | wait

def Hart.Change.apply : Change → Hart → Hart
  | .advance => fun h => { h with pc := h.pc + 4 }
  | .finish rd value => fun h => { h.setRegister rd value with pc := h.pc + 4 }
  | .jump target => fun h => { h with pc := target }
  | .link rd target => fun h => { h.setRegister rd (h.pc + 4) with pc := target }
  | .reserve addr => fun h => { h with reservation := some addr }
  | .release => fun h => { h with reservation := none }
  | .drop addr => fun h =>
    if h.reservation = some addr then { h with reservation := none } else h
  | .csr name value => fun h => { h with csr := h.csr.write name value }
  | .timerMatchLow value => fun h => { h with csr := h.csr.withTimerMatchLow value }
  | .timerMatchHigh value => fun h => { h with csr := h.csr.withTimerMatchHigh value }
  | .returnFromTrap => Hart.returnFromTrap
  | .wait => fun h =>
    { h with waiting := true, csr := { h.csr with mstatus := h.csr.mstatus ||| Mstatus.mie } }

/-- The change leaves no reservation of the word at `addr`. -/
inductive Hart.Change.Frees (addr : UInt32) : Change → Prop
  | release : Frees addr .release
  | drop : Frees addr (.drop addr)

/-- The changes that an instruction may make to harts of the given kind. -/
def Isa.Instruction.Makes (harts : Hart → Prop) (i : Instruction) : Hart.Change → Prop
  | .reserve _ => ∃ rd rs1, i = .loadReserved rd rs1
  | .csr name _ => ∃ number, i.writtenCsr? = some number ∧
      CoreCsr.ofNumber? number = some name ∧ Opens harts number
  | .returnFromTrap => i = .mret ∧ ∃ h, harts h ∧ h.privilege ≠ .user
  | .wait => i = .wfi
  | _ => True

/-- The hart with other control registers, another policy and another exception on record, none of
which an instruction sees unless it reads a control register. -/
def Hart.reset (h : Hart) (csr : ControlRegisters) (policy : FaultPolicy) (last : Option Trap) :
    Hart :=
  { h with csr := csr, faultPolicy := policy, lastFault := last }

/-- What does not depend on them. -/
def Heedless {β : Type} (f : Hart → β) : Prop :=
  ∀ h csr policy last, f (h.reset csr policy last) = f h

namespace Exec

/-! ## The building blocks -/

section

variable {σ α β : Type}

@[simp] theorem raise_bind (cause : Trap) (f : α → Exec σ β) :
    (raise cause >>= f) = raise cause :=
  rfl

theorem getHart_bind_apply (f : Hart → Exec σ α) (core : Core σ) :
    (getHart >>= f) core = f core.hart core :=
  rfl

theorem onHart_bind_apply (change : Hart → Hart) (f : Unit → Exec σ α)
    (core : Core σ) : (onHart change >>= f) core = f () { core with hart := change core.hart } :=
  rfl

/-- An access that has passed the check of its alignment. -/
theorem aligned_of_not {width : Width} {addr : UInt32} (h : ¬ (!width.aligned addr) = true) :
    width.aligned addr := by
  simpa using h

/-- The program counter's check makes a fetch an aligned access. -/
theorem aligned_word {addr : UInt32} (h : ¬ (addr &&& 3 != 0) = true) :
    Width.word.aligned addr := by
  simpa [Width.aligned, Width.bytes] using h

variable [Bus σ]

/-- What follows when a control register instruction has the old value. -/
def modifyCsr (word : UInt32) (op : Option Isa.CsrOp) (rd : RegIndex)
    (source : Isa.CsrSource) (number operand old : UInt32) : Exec σ Flow :=
  if op = some .write || source.field.val ≠ 0 then
    match op with
    | some op => do
      writeCsr word number (op.apply old operand)
      finish rd old
    | none => raise (.illegalInstruction word)
  else finish rd old

def executeDecoded (word : UInt32) : Exec σ Flow :=
  match Isa.decode word with
  | some instruction => execute word instruction
  | none => raise (.illegalInstruction word)

theorem executeOne_eq : (executeOne : Exec σ Flow) = fetch >>= executeDecoded :=
  rfl

/-- An instruction whose fetch and decoding are known, after the fetch. -/
theorem executeOne_of_decode {word : UInt32} {instruction : Isa.Instruction} {core core' : Core σ}
    (hdecode : Isa.decode word = some instruction) (hfetch : fetch core = .ok word core') :
    executeOne core = execute word instruction core' := by
  simp only [executeOne_eq, bind, EStateM.bind, hfetch, executeDecoded, hdecode]

end

/-! ## What is kept where instructions are put together -/

variable {σ τ : Type} [Bus σ] [Bus τ] {harts : Hart → Prop} {Allowed : Hart.Change → Prop}

/-- Three relations between computations, for those parts of an instruction that may be cut short
without having changed anything (`Reads`), for the whole of it (`Works`), and for what cannot fail
(`Closes`). The harts that are looked at are of a given kind, and only some changes of them are
allowed for. -/
structure Walk (harts : Hart → Prop) (Allowed : Hart.Change → Prop)
    (Reads Works Closes : ∀ α : Type, Exec σ α → Exec τ α → Prop) : Prop where
  pure {α : Type} (a : α) : Reads α (Pure.pure a) (Pure.pure a)
  raise {α : Type} {cause : Trap} : cause ∉ Trap.interrupts → Reads α (raise cause) (raise cause)
  peek {number : UInt32} {csr : CoreCsr} : CoreCsr.ofNumber? number = some csr →
    Opens harts number →
    Reads _ (getHart >>= fun h => Pure.pure (h.csr.read csr))
      (getHart >>= fun h => Pure.pure (h.csr.read csr))
  read {width : Width} {addr : UInt32} {cause : Trap} : width.aligned addr →
    cause ∉ Trap.interrupts →
    Reads _ (callBus (Bus.read width addr) cause) (callBus (Bus.read width addr) cause)
  readCsr {cause : Trap} (number : UInt32) : cause ∉ Trap.interrupts →
    Reads _ (callBus (Bus.readCsr number) cause) (callBus (Bus.readCsr number) cause)
  bind {α β : Type} {x : Exec σ α} {y : Exec τ α} {f : α → Exec σ β} {g : α → Exec τ β} :
    Reads α x y → (∀ a, Reads β (f a) (g a)) → Reads β (x >>= f) (y >>= g)
  done {α : Type} (a : α) : Closes α (Pure.pure a) (Pure.pure a)
  change {change : Hart.Change} : Allowed change →
    Closes Unit (onHart change.apply) (onHart change.apply)
  next {α β : Type} {x : Exec σ α} {y : Exec τ α} {f : α → Exec σ β} {g : α → Exec τ β} :
    Closes α x y → (∀ a, Closes β (f a) (g a)) → Closes β (x >>= f) (y >>= g)
  of_reads {α : Type} {x : Exec σ α} {y : Exec τ α} : Reads α x y → Works α x y
  of_closes {α : Type} {x : Exec σ α} {y : Exec τ α} : Closes α x y → Works α x y
  look {α : Type} {f : Hart → Exec σ α} {g : Hart → Exec τ α} : Heedless f →
    (∀ h, harts h → Works α (f h) (g h)) → Works α (getHart >>= f) (getHart >>= g)
  after {α β : Type} {x : Exec σ α} {y : Exec τ α} {f : α → Exec σ β} {g : α → Exec τ β} :
    Reads α x y → (∀ a, Works β (f a) (g a)) → Works β (x >>= f) (y >>= g)
  /-- A write to a word of which there is no reservation any more. -/
  write {β : Type} {width : Width} {addr : UInt32} {change : Hart.Change} {cause : Trap}
    {f : Unit → Exec σ β} {g : Unit → Exec τ β} (value : UInt32) : width.aligned addr →
    Allowed change → change.Frees (addr &&& 0xFFFFFFFC) → cause ∉ Trap.interrupts →
    (∀ a, Closes β (f a) (g a)) →
    Works β
      (onHart change.apply >>= fun _ => callBus (Bus.write width addr value) cause >>= f)
      (onHart change.apply >>= fun _ => callBus (Bus.write width addr value) cause >>= g)
  /-- A write to a word whose reservation is dropped next. -/
  update {β : Type} {addr : UInt32} {cause : Trap} {f : Unit → Exec σ β}
    {g : Unit → Exec τ β} (value : UInt32) : Width.word.aligned addr → Allowed (.drop addr) →
    cause ∉ Trap.interrupts → (∀ a, Closes β (f a) (g a)) →
    Works β (callBus (Bus.write .word addr value) cause >>= fun _ => dropReservation addr >>= f)
      (callBus (Bus.write .word addr value) cause >>= fun _ => dropReservation addr >>= g)
  writeCsr {β : Type} {cause : Trap} {f : Unit → Exec σ β} {g : Unit → Exec τ β}
    (number value : UInt32) : cause ∉ Trap.interrupts → (∀ a, Closes β (f a) (g a)) →
    Works β (callBus (Bus.writeCsr number value) cause >>= f)
      (callBus (Bus.writeCsr number value) cause >>= g)

/-- A relation between computations that is kept whatever the order is. -/
structure Closed (harts : Hart → Prop) (Allowed : Hart.Change → Prop)
    (K : ∀ α : Type, Exec σ α → Exec τ α → Prop) : Prop where
  pure {α : Type} (a : α) : K α (Pure.pure a) (Pure.pure a)
  raise {α : Type} {cause : Trap} : cause ∉ Trap.interrupts → K α (raise cause) (raise cause)
  bind {α β : Type} {x : Exec σ α} {y : Exec τ α} {f : α → Exec σ β} {g : α → Exec τ β} :
    K α x y → (∀ a, K β (f a) (g a)) → K β (x >>= f) (y >>= g)
  look {α : Type} {f : Hart → Exec σ α} {g : Hart → Exec τ α} : Heedless f →
    (∀ h, harts h → K α (f h) (g h)) → K α (getHart >>= f) (getHart >>= g)
  peek {number : UInt32} {csr : CoreCsr} : CoreCsr.ofNumber? number = some csr →
    Opens harts number →
    K _ (getHart >>= fun h => Pure.pure (h.csr.read csr))
      (getHart >>= fun h => Pure.pure (h.csr.read csr))
  change {change : Hart.Change} : Allowed change →
    K Unit (onHart change.apply) (onHart change.apply)
  read {width : Width} {addr : UInt32} {cause : Trap} : width.aligned addr →
    cause ∉ Trap.interrupts →
    K _ (callBus (Bus.read width addr) cause) (callBus (Bus.read width addr) cause)
  write {width : Width} {addr : UInt32} {cause : Trap} (value : UInt32) : width.aligned addr →
    cause ∉ Trap.interrupts →
    K _ (callBus (Bus.write width addr value) cause) (callBus (Bus.write width addr value) cause)
  readCsr {cause : Trap} (number : UInt32) : cause ∉ Trap.interrupts →
    K _ (callBus (Bus.readCsr number) cause) (callBus (Bus.readCsr number) cause)
  writeCsr {cause : Trap} (number value : UInt32) : cause ∉ Trap.interrupts →
    K _ (callBus (Bus.writeCsr number value) cause) (callBus (Bus.writeCsr number value) cause)

theorem Closed.walk {K : ∀ α : Type, Exec σ α → Exec τ α → Prop} (hK : Closed harts Allowed K) :
    Walk harts Allowed K K K where
  pure := hK.pure
  raise := hK.raise
  peek := hK.peek
  read := hK.read
  readCsr := hK.readCsr
  bind := hK.bind
  done := hK.pure
  change := hK.change
  next := hK.bind
  of_reads := id
  of_closes := id
  look := hK.look
  after := hK.bind
  write value haligned hchange _ hcause hf :=
    hK.bind (hK.change hchange) fun _ => hK.bind (hK.write value haligned hcause) hf
  update value haligned hdrop hcause hf :=
    hK.bind (hK.write value haligned hcause) fun _ => hK.bind (hK.change hdrop) hf
  writeCsr number value hcause hf := hK.bind (hK.writeCsr number value hcause) hf

/-! ## The walk -/

section

variable {Reads Works Closes : ∀ α : Type, Exec σ α → Exec τ α → Prop}
  {i : Isa.Instruction} (hW : Walk harts Allowed Reads Works Closes)
  (hmakes : ∀ change, i.Makes harts change → Allowed change)

include hW hmakes

theorem advance_closes (flow : Flow) : Closes _ (advance flow) (advance flow) :=
  hW.next (hW.change (hmakes .advance trivial)) fun _ => hW.done flow

theorem finish_closes (rd : RegIndex) (value : UInt32) :
    Closes _ (finish rd value) (finish rd value) :=
  hW.next (hW.change (hmakes (.finish rd value) trivial)) fun _ => hW.done Flow.next

theorem jump_walks (target : UInt32) : Works _ (jump target) (jump target) := by
  simp only [jump, raise_bind]
  split
  · exact hW.of_reads (hW.raise (by simp))
  · exact hW.of_closes
      (hW.next (hW.change (hmakes (.jump target) trivial)) fun _ => hW.done _)

theorem jumpAndLink_walks (rd : RegIndex) (target : UInt32) :
    Works _ (jumpAndLink rd target) (jumpAndLink rd target) := by
  simp only [jumpAndLink, raise_bind]
  split
  · exact hW.of_reads (hW.raise (by simp))
  · exact hW.of_closes
      (hW.next (hW.change (hmakes (.link rd target) trivial)) fun _ => hW.done _)

omit hmakes in
theorem load_reads (word : UInt32) (kind : Option Isa.LoadKind) (addr : UInt32) :
    Reads _ (load word kind addr) (load word kind addr) := by
  -- the words of the timer are what two of the control registers read
  have htime : CoreCsr.ofNumber? 0xC01 = some .time := rfl
  have htimeh : CoreCsr.ofNumber? 0xC81 = some .timeh := rfl
  simp only [load, raise_bind]
  split
  · exact hW.peek htime (.inl rfl)
  split
  · exact hW.peek htimeh (.inl rfl)
  cases kind with
  | none => exact hW.raise (by simp)
  | some kind =>
      simp only
      split
      · exact hW.raise (by simp)
      · rename_i haligned
        exact hW.bind (hW.read (aligned_of_not haligned) (by simp)) fun _ => hW.pure _

theorem store_walks (word : UInt32) (width : Option Width) (addr value : UInt32) :
    Works _ (store word width addr value) (store word width addr value) := by
  have hadvance (flow : Flow) := advance_closes hW hmakes flow
  simp only [store, raise_bind]
  -- the hart takes the stores to three addresses itself
  split
  · exact hW.of_closes (hadvance _)
  split
  · exact hW.of_closes
      (hW.next (hW.change (hmakes (.timerMatchLow value) trivial)) fun _ => hadvance _)
  split
  · exact hW.of_closes
      (hW.next (hW.change (hmakes (.timerMatchHigh value) trivial)) fun _ => hadvance _)
  cases width with
  | none => exact hW.of_reads (hW.raise (by simp))
  | some width =>
      simp only
      split
      · exact hW.of_reads (hW.raise (by simp))
      · rename_i haligned
        -- the reservation goes before the write, which may still fail
        exact hW.write _ (aligned_of_not haligned) (hmakes (.drop _) trivial) .drop (by simp)
          fun _ => hadvance _

omit hmakes in
theorem readCsr_reads (word : UInt32) {number : UInt32} (hopen : Opens harts number) :
    Reads _ (readCsr word number) (readCsr word number) := by
  unfold readCsr
  cases hcsr : CoreCsr.ofNumber? number with
  | some csr => exact hW.peek hcsr hopen
  | none => exact hW.readCsr number (by simp)

theorem modifyCsr_walks {op : Option Isa.CsrOp} {rd : RegIndex} {source : Isa.CsrSource}
    {number : UInt32} (hi : i = .csr op rd source number) (hopen : Opens harts number)
    (word operand old : UInt32) :
    Works _ (modifyCsr word op rd source number operand old)
      (modifyCsr word op rd source number operand old) := by
  have hfinish := finish_closes hW hmakes rd old
  unfold modifyCsr
  split
  · rename_i hwrites
    have hwritten : i.writtenCsr? = some number := by
      rw [hi, Isa.Instruction.writtenCsr?, if_pos hwrites]
    cases op with
    | none => exact hW.of_reads (hW.raise (by simp))
    | some op =>
        simp only [writeCsr, CoreCsr.ofWrittenNumber?_eq]
        cases hcsr : CoreCsr.ofNumber? number with
        | some name =>
            have hchange := hmakes (.csr name (op.apply old operand))
              ⟨number, hwritten, hcsr, hopen⟩
            exact hW.of_closes (hW.next (hW.change hchange) fun _ => hfinish)
        | none => exact hW.writeCsr _ _ (by simp) fun _ => hfinish
  · exact hW.of_closes hfinish

theorem accessCsr_walks {op : Option Isa.CsrOp} {rd : RegIndex} {source : Isa.CsrSource}
    {number : UInt32} (hi : i = .csr op rd source number) (word : UInt32) :
    Works _ (accessCsr word op rd source number) (accessCsr word op rd source number) := by
  simp only [accessCsr, raise_bind]
  refine hW.look (fun _ _ _ _ => rfl) fun h hh => ?_
  split
  · exact hW.of_reads (hW.raise (by simp))
  rename_i hguard
  -- past the guard, one of the harts that are looked at may use the register
  have hopen : Opens harts number := by
    cases hnumber : isMachineCsr number with
    | false => exact .inl hnumber
    | true => exact .inr ⟨h, hh, by simpa [hnumber] using hguard⟩
  -- the write comes last, whether or not the old value has been read
  split
  · exact hW.after (readCsr_reads hW word hopen) fun old =>
      modifyCsr_walks hW hmakes hi hopen word _ old
  · exact hW.after (hW.pure _) fun old => modifyCsr_walks hW hmakes hi hopen word _ old

theorem loadReserved_walks {rd rs1 : RegIndex} (hi : i = .loadReserved rd rs1) (addr : UInt32) :
    Works _ (loadReserved rd addr) (loadReserved rd addr) := by
  simp only [loadReserved, raise_bind]
  split
  · exact hW.of_reads (hW.raise (by simp))
  · rename_i haligned
    refine hW.after (hW.read (aligned_of_not haligned) (by simp)) fun value => hW.of_closes ?_
    exact hW.next (hW.change (hmakes (.reserve addr) ⟨rd, rs1, hi⟩)) fun _ =>
      finish_closes hW hmakes rd value

theorem storeConditional_walks (rd : RegIndex) (addr value : UInt32) :
    Works _ (storeConditional rd addr value) (storeConditional rd addr value) := by
  have hfinish (answer : UInt32) := finish_closes hW hmakes rd answer
  simp only [storeConditional, raise_bind]
  split
  · exact hW.of_reads (hW.raise (by simp))
  · rename_i haligned
    refine hW.look (fun _ _ _ _ => rfl) fun h _ => ?_
    split
    -- the reservation is released whether or not anything is stored
    · exact hW.write value (aligned_of_not haligned) (hmakes .release trivial) .release (by simp)
        fun _ => hfinish _
    · exact hW.of_closes (hW.next (hW.change (hmakes .release trivial)) fun _ => hfinish _)

theorem atomicUpdate_walks (word : UInt32) (op : Option Isa.AmoOp) (rd : RegIndex)
    (addr operand : UInt32) :
    Works _ (atomicUpdate word op rd addr operand) (atomicUpdate word op rd addr operand) := by
  simp only [atomicUpdate, raise_bind]
  split
  · exact hW.of_reads (hW.raise (by simp))
  · rename_i haligned
    refine hW.after (hW.read (aligned_of_not haligned) (by simp)) fun old => ?_
    -- an undefined operation is found out after the read, but before anything is written
    cases op with
    | none => exact hW.of_reads (hW.raise (by simp))
    | some op =>
        exact hW.update _ (aligned_of_not haligned) (hmakes (.drop addr) trivial) (by simp)
          fun _ => finish_closes hW hmakes rd old

/-- The walk over one instruction. -/
theorem execute_walks (word : UInt32) : Works _ (execute word i) (execute word i) := by
  have hfinish (rd : RegIndex) (value : UInt32) := hW.of_closes (finish_closes hW hmakes rd value)
  have hadvance (flow : Flow) := hW.of_closes (advance_closes hW hmakes flow)
  -- each instruction looks at the hart first, and goes on from what it has found there
  cases i <;> simp only [execute, raise_bind]
  case lui rd imm => exact hfinish _ _
  case auipc rd imm => exact hW.look (fun _ _ _ _ => rfl) fun _ _ => hfinish _ _
  case jal rd offset =>
    exact hW.look (fun _ _ _ _ => rfl) fun _ _ => jumpAndLink_walks hW hmakes _ _
  case jalr rd rs1 offset =>
    exact hW.look (fun _ _ _ _ => rfl) fun _ _ => jumpAndLink_walks hW hmakes _ _
  case branch test rs1 rs2 offset =>
    refine hW.look (fun _ _ _ _ => rfl) fun h _ => ?_
    split
    · exact jump_walks hW hmakes _
    · exact hadvance _
  case load kind rd rs1 offset =>
    exact hW.look (fun _ _ _ _ => rfl) fun _ _ =>
      hW.after (load_reads hW _ _ _) fun _ => hfinish _ _
  case store width rs1 rs2 offset =>
    exact hW.look (fun _ _ _ _ => rfl) fun _ _ => store_walks hW hmakes _ _ _ _
  case aluImm op rd rs1 imm => exact hW.look (fun _ _ _ _ => rfl) fun _ _ => hfinish _ _
  case alu op rd rs1 rs2 => exact hW.look (fun _ _ _ _ => rfl) fun _ _ => hfinish _ _
  case mulDiv op rd rs1 rs2 => exact hW.look (fun _ _ _ _ => rfl) fun _ _ => hfinish _ _
  case fence => exact hadvance _
  case ecall =>
    refine hW.look (fun _ _ _ _ => rfl) fun h _ => ?_
    cases h.privilege <;> exact hW.of_reads (hW.raise (by simp))
  case ebreak =>
    exact hW.look (fun _ _ _ _ => rfl) fun _ _ => hW.of_reads (hW.raise (by simp))
  case mret =>
    refine hW.look (fun _ _ _ _ => rfl) fun h hh => ?_
    split
    · exact hW.of_reads (hW.raise (by simp))
    · have hreturns := hmakes .returnFromTrap ⟨rfl, h, hh, ‹_›⟩
      exact hW.of_closes (hW.next (hW.change hreturns) fun _ => hW.done _)
  case wfi =>
    exact hW.of_closes
      (hW.next (hW.change (hmakes .wait rfl)) fun _ => advance_closes hW hmakes .wait)
  case csr op rd source number => exact accessCsr_walks hW hmakes rfl _
  case loadReserved rd rs1 =>
    exact hW.look (fun _ _ _ _ => rfl) fun _ _ => loadReserved_walks hW hmakes rfl _
  case storeConditional rd rs1 rs2 =>
    exact hW.look (fun _ _ _ _ => rfl) fun _ _ => storeConditional_walks hW hmakes _ _ _
  case amo op rd rs1 rs2 =>
    exact hW.look (fun _ _ _ _ => rfl) fun _ _ => atomicUpdate_walks hW hmakes _ _ _ _ _

end

/-- The walk over what follows the fetch of a word. -/
theorem executeDecoded_walks {Reads Works Closes : ∀ α : Type, Exec σ α → Exec τ α → Prop}
    (hW : Walk harts Allowed Reads Works Closes) {word : UInt32}
    (hmakes : ∀ i, Isa.decode word = some i → ∀ change, i.Makes harts change → Allowed change) :
    Works _ (executeDecoded word) (executeDecoded word) := by
  unfold executeDecoded
  cases hdecode : Isa.decode word with
  | some i => exact execute_walks hW (hmakes i hdecode) word
  | none => exact hW.of_reads (hW.raise (by simp))

variable {K : ∀ α : Type, Exec σ α → Exec τ α → Prop}

/-- A fetch is made of the same, besides the cycle that it counts. -/
theorem fetch_closed (hK : Closed harts Allowed K)
    (hcount : K Unit (onHart fun h => { h with csr := h.csr.advanceCycles 1 })
      (onHart fun h => { h with csr := h.csr.advanceCycles 1 })) :
    K UInt32 fetch fetch := by
  simp only [fetch, raise_bind]
  refine hK.look (fun _ _ _ _ => rfl) fun h _ => ?_
  split
  · exact hK.raise (by simp)
  rename_i haligned
  split
  · exact hK.raise (by simp)
  -- the cycle is counted after the read, so a fetch that fails counts none
  · refine hK.bind (hK.read (aligned_word haligned) (by simp)) fun word => ?_
    exact hK.bind hcount fun _ => hK.pure word

/-- Where all changes are allowed for, the whole of an instruction is covered. -/
theorem executeOne_closed (hK : Closed harts (fun _ => True) K)
    (hcount : K Unit (onHart fun h => { h with csr := h.csr.advanceCycles 1 })
      (onHart fun h => { h with csr := h.csr.advanceCycles 1 })) :
    K Flow executeOne executeOne :=
  hK.bind (fetch_closed hK hcount) fun _ =>
    executeDecoded_walks hK.walk fun _ _ _ _ => trivial

end Exec

end RiscvMachine
