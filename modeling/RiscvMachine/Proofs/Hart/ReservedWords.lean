import RiscvMachine.Proofs.Hart.PreciseTraps

set_option autoImplicit false

/-! # Reserved words

A word with an undefined selector is illegal. Most of the reserved words do not decode at all and
are refused right after the fetch. Four classes are recognised before their last selector is
looked at (`decode_of_reserved`); what such a word does depends on the hart. It is refused like
the others unless the address or the register number that it computes is served first
(`Hart.ServesFirst`), and then it retires, traps for another reason, or makes a bus call
(`Exec.Strays`).
-/

namespace RiscvMachine

/-! ## The reserved words -/

namespace Isa

/-- The lowest seven bits, which name the class of a word. -/
def opcode (w : UInt32) : UInt32 := w &&& 0x7F

def opcodes : List UInt32 :=
  [0b0110111, 0b0010111, 0b1101111, 0b1100111, 0b1100011, 0b0000011, 0b0100011, 0b0010011,
    0b0110011, 0b0001111, 0b1110011, 0b0101111]

/-- The operation fields of the atomic extension that are in use: loading a reserved word,
storing conditionally, and the nine updates. -/
def atomicOperations : List UInt32 :=
  [0b00010, 0b00011, 0b00001, 0b00000, 0b00100, 0b01100, 0b01000, 0b10000, 0b10100, 0b11000,
    0b11100]

/-- The words with an undefined selector or an unknown opcode. -/
inductive Reserved (w : UInt32) : Prop
  | load : opcode w = 0b0000011 → funct3 w ∈ [3, 6, 7] → Reserved w
  | store : opcode w = 0b0100011 → funct3 w ∉ [0, 1, 2] → Reserved w
  | branch : opcode w = 0b1100011 → funct3 w ∈ [2, 3] → Reserved w
  | shiftLeftImm : opcode w = 0b0010011 → funct3 w = 1 → funct7 w ≠ 0 → Reserved w
  | shiftRightImm : opcode w = 0b0010011 → funct3 w = 5 → funct7 w ∉ [0, 0x20] → Reserved w
  | register : opcode w = 0b0110011 → funct7 w ∉ [0, 1, 0x20] → Reserved w
  /-- Only subtraction and the arithmetic shift have the alternative upper selector. -/
  | alternative : opcode w = 0b0110011 → funct7 w = 0x20 → funct3 w ∉ [0, 5] → Reserved w
  | csr : opcode w = 0b1110011 → funct3 w = 4 → Reserved w
  | atomicWidth : opcode w = 0b0101111 → funct3 w ≠ 2 → Reserved w
  | atomicOperation : opcode w = 0b0101111 → funct5 w ∉ atomicOperations → Reserved w
  | unknown : opcode w ∉ opcodes → Reserved w

/-! ## How they decode -/

variable {w : UInt32}

theorem LoadKind.ofFunct3?_eq_none {funct3 : UInt32} (h : funct3 ∈ [3, 6, 7]) :
    LoadKind.ofFunct3? funct3 = none := by
  rcases List.mem_cons.mp h with rfl | h
  · rfl
  rcases List.mem_cons.mp h with rfl | h
  · rfl
  cases List.mem_singleton.mp h
  rfl

theorem storeWidth?_eq_none {funct3 : UInt32} (h : funct3 ∉ [0, 1, 2]) :
    storeWidth? funct3 = none := by
  unfold storeWidth?
  split <;> simp_all

theorem BranchTest.ofFunct3?_eq_none {funct3 : UInt32} (h : funct3 ∈ [2, 3]) :
    BranchTest.ofFunct3? funct3 = none := by
  rcases List.mem_cons.mp h with rfl | h
  · rfl
  cases List.mem_singleton.mp h
  rfl

theorem AluOp.ofRegisterForm?_eq_none {funct3 funct7 : UInt32}
    (h : funct7 ∉ [0, 0x20] ∨ funct7 = 0x20 ∧ funct3 ∉ [0, 5]) :
    AluOp.ofRegisterForm? funct3 funct7 = none := by
  rcases h with h | ⟨rfl, h⟩
  · simp only [List.mem_cons, List.not_mem_nil, or_false, not_or] at h
    unfold ofRegisterForm?
    rw [if_neg h.1, if_neg h.2]
  · simp only [List.mem_cons, List.not_mem_nil, or_false, not_or] at h
    unfold ofRegisterForm?
    rw [if_neg (by decide), if_pos rfl]
    split <;> simp_all

theorem AmoOp.ofFunct5?_eq_none {funct5 : UInt32} (h : funct5 ∉ atomicOperations) :
    AmoOp.ofFunct5? funct5 = none := by
  unfold AmoOp.ofFunct5?
  split <;> first | rfl | exact absurd (by decide) h

/-- A reserved word does not decode, or it is one of those whose last selector is looked at where
they execute. -/
theorem decode_of_reserved (h : Reserved w) :
    decode w = none ∨
    decode w = some (.load none (rd w) (rs1 w) (immI w)) ∨
    decode w = some (.store none (rs1 w) (rs2 w) (immS w)) ∨
    decode w = some (.csr none (rd w) (.immediate (rs1 w)) (csrNumber w)) ∨
    decode w = some (.amo none (rd w) (rs1 w) (rs2 w)) := by
  cases h with
  | load hop h3 =>
      rw [decode, ← opcode, hop, LoadKind.ofFunct3?_eq_none h3]
      exact .inr (.inl rfl)
  | store hop h3 =>
      rw [decode, ← opcode, hop, storeWidth?_eq_none h3]
      exact .inr (.inr (.inl rfl))
  | branch hop h3 =>
      rw [decode, ← opcode, hop, BranchTest.ofFunct3?_eq_none h3]
      exact .inl rfl
  | shiftLeftImm hop h3 h7 =>
      rw [decode, ← opcode, hop, h3]
      left
      simp [AluOp.ofImmediateForm?, h7]
  | shiftRightImm hop h3 h7 =>
      simp only [List.mem_cons, List.not_mem_nil, or_false, not_or] at h7
      rw [decode, ← opcode, hop, h3]
      left
      simp [AluOp.ofImmediateForm?, h7.1, h7.2]
  | register hop h7 =>
      simp only [List.mem_cons, List.not_mem_nil, or_false, not_or] at h7
      rw [decode, ← opcode, hop]
      left
      -- the selector is not that of the M extension
      simp only [if_neg h7.2.1]
      rw [AluOp.ofRegisterForm?_eq_none (.inl (by simp [h7.1, h7.2.2]))]
      rfl
  | alternative hop h7 h3 =>
      rw [decode, ← opcode, hop]
      left
      simp only [h7, if_neg (show ¬ (0x20 : UInt32) = 1 by decide)]
      rw [AluOp.ofRegisterForm?_eq_none (.inr ⟨rfl, h3⟩)]
      rfl
  | csr hop h3 =>
      rw [decode, ← opcode, hop]
      right; right; right; left
      simp only [h3, decodeCsr]
      rfl
  | atomicWidth hop h3 =>
      rw [decode, ← opcode, hop]
      left
      simp only [decodeAtomic, if_neg h3]
  | atomicOperation hop h5 =>
      rw [decode, ← opcode, hop]
      by_cases h3 : funct3 w = 2
      · right; right; right; right
        simp only [decodeAtomic, if_pos h3]
        split
        -- the selectors of load-reserved and store-conditional are in use
        · simp_all [atomicOperations]
        · simp_all [atomicOperations]
        · rw [AmoOp.ofFunct5?_eq_none h5]
      · left
        simp only [decodeAtomic, if_neg h3]
  | unknown hop =>
      left
      rw [decode, ← opcode]
      split <;> first | rfl | simp_all [opcodes]

end Isa

/-! ## What they do -/

/-- Whether what the instruction computes from its operands is served before its undefined
selector is looked at: a load from the timer, a store to a register of the hart, a control
register that the mode may access and that is not written or is the bus's, any atomic update. -/
def Hart.ServesFirst (h : Hart) : Isa.Instruction → Prop
  | .load none _ rs1 offset =>
    h.register rs1 + offset = timerLowAddr ∨ h.register rs1 + offset = timerHighAddr
  | .store none rs1 _ offset =>
    h.register rs1 + offset = powerAddr ∨ h.register rs1 + offset = timerMatchLowAddr ∨
      h.register rs1 + offset = timerMatchHighAddr
  | .csr none _ source number =>
    ¬ (h.privilege = .user ∧ Exec.isMachineCsr number) ∧
      (source.field.val = 0 ∨ CoreCsr.ofNumber? number = none)
  | .amo none .. => True
  | _ => False

namespace Exec

variable {σ : Type}

/-- One call was made, and it is no write. -/
def Asks (core core' : Core (Traced σ)) : Prop :=
  ∃ call fault, BusCall.isWrite call = false ∧ core'.bus.calls = core.bus.calls ++ [⟨call, fault⟩]

/-- An instruction that is not refused outright: it retires without a bus call, traps because of
its address, or makes a bus call. -/
inductive Strays (core : Core (Traced σ)) :
    EStateM.Result Interruption (Core (Traced σ)) Flow → Prop
  | retires {flow : Flow} {core' : Core (Traced σ)} : core'.bus = core.bus →
      Strays core (.ok flow core')
  | misaligned {addr : UInt32} :
      Strays core (.error (.trap (.storeAddressMisaligned addr)) core)
  | asks {result : EStateM.Result Interruption (Core (Traced σ)) Flow} :
      Ends (fun _ => Asks core) (fun _ => Asks core) result → Strays core result

theorem Asks.ne {core core' : Core (Traced σ)} (h : Asks core core') : core' ≠ core := by
  rintro rfl
  obtain ⟨call, fault, -, hcalls⟩ := h
  exact absurd (congrArg List.length hcalls) (by simp)

theorem Strays.not_refused {core : Core (Traced σ)} {word : UInt32} :
    ¬ Strays core (.error (.trap (.illegalInstruction word)) core) := by
  intro h
  cases h with
  | asks h => exact h.of_error.ne rfl

/-- A bus call that is no write, and what follows it without another call. -/
theorem strays_callBus {α : Type} {call : BusCall} (hcall : call.isWrite = false)
    (request : EStateM BusFault σ α) (cause : Trap) {f : α → Exec (Traced σ) Flow}
    (core : Core (Traced σ))
    (hf : ∀ a core', Ends (fun _ core'' => core''.bus = core'.bus)
      (fun _ core'' => core''.bus = core'.bus) (f a core')) :
    Strays core ((callBus (Traced.record call request) cause >>= f) core) := by
  apply Strays.asks
  obtain ⟨hart, bus, calls⟩ := core
  simp only [Bind.bind, EStateM.bind, callBus, Traced.record]
  cases request bus with
  | ok a bus' =>
      have hrest := hf a ⟨hart, bus', calls ++ [⟨call, none⟩]⟩
      simp only
      revert hrest
      cases f a ⟨hart, bus', calls ++ [⟨call, none⟩]⟩ with
      | ok flow core' => exact fun h => .ok ⟨call, none, hcall, by rw [h.of_ok]⟩
      | error why core' => exact fun h => .error ⟨call, none, hcall, by rw [h.of_error]⟩
  | error fault bus' =>
      cases fault <;> exact .error ⟨call, _, hcall, rfl⟩

/-! ### One lemma for each class -/

variable [Bus σ]

/-- The instruction is refused as the hart stands, unless it is served first. -/
def RefusedUnlessServed (word : UInt32) (instruction : Isa.Instruction) : Prop :=
  ∀ core : Core (Traced σ),
    (¬ core.hart.ServesFirst instruction →
      execute word instruction core = .error (.trap (.illegalInstruction word)) core) ∧
    (core.hart.ServesFirst instruction → Strays core (execute word instruction core))

theorem load_refused (word : UInt32) (rd rs1 : RegIndex) (offset : UInt32) :
    RefusedUnlessServed (σ := σ) word (.load none rd rs1 offset) := by
  intro core
  simp only [Hart.ServesFirst, not_or, execute, load, getHart_bind_apply]
  constructor
  · rintro ⟨hlow, hhigh⟩
    rw [if_neg hlow, if_neg hhigh]
    rfl
  · intro hfirst
    split
    · exact .retires rfl
    · rw [if_pos (hfirst.resolve_left ‹_›)]
      exact .retires rfl

theorem store_refused (word : UInt32) (rs1 rs2 : RegIndex) (offset : UInt32) :
    RefusedUnlessServed (σ := σ) word (.store none rs1 rs2 offset) := by
  intro core
  simp only [Hart.ServesFirst, not_or, execute, store, getHart_bind_apply]
  constructor
  · rintro ⟨hpower, hlow, hhigh⟩
    rw [if_neg hpower, if_neg hlow, if_neg hhigh]
    rfl
  · intro hfirst
    split
    · exact .retires rfl
    split
    · exact .retires rfl
    split
    · exact .retires rfl
    · simp_all

theorem csr_refused (word : UInt32) (rd : RegIndex) (source : Isa.CsrSource) (number : UInt32) :
    RefusedUnlessServed (σ := σ) word (.csr none rd source number) := by
  intro core
  simp only [Hart.ServesFirst, execute, accessCsr, raise_bind, getHart_bind_apply]
  by_cases hmode : core.hart.privilege = .user ∧ isMachineCsr number
  · rw [if_pos (by simpa using hmode)]
    exact ⟨fun _ => rfl, fun hfirst => absurd hmode hfirst.1⟩
  rw [if_neg (by simpa using hmode), if_pos (by simp)]
  unfold readCsr
  cases hnumber : CoreCsr.ofNumber? number with
  | none =>
      refine ⟨fun h => absurd ⟨hmode, .inr rfl⟩ h, fun _ => ?_⟩
      refine strays_callBus rfl _ _ core fun old core' => ?_
      split
      · exact .error rfl
      · exact .ok rfl
  | some csr =>
      simp only [bind_assoc, getHart_bind_apply, pure_bind]
      by_cases hfield : source.field.val = 0
      · refine ⟨fun h => absurd ⟨hmode, .inl hfield⟩ h, fun _ => ?_⟩
        rw [if_neg (by simpa using hfield)]
        exact .retires rfl
      · refine ⟨fun _ => ?_, fun h => absurd h.2 (by simp [hfield])⟩
        rw [if_pos (by simpa using hfield)]
        rfl

theorem amo_refused (word : UInt32) (rd rs1 rs2 : RegIndex) :
    RefusedUnlessServed (σ := σ) word (.amo none rd rs1 rs2) := by
  intro core
  simp only [Hart.ServesFirst, execute, atomicUpdate, getHart_bind_apply]
  refine ⟨fun h => absurd trivial h, fun _ => ?_⟩
  split
  · exact .misaligned
  · exact strays_callBus rfl _ _ core fun old core' => .error rfl

/-- Every reserved word is refused as the hart stands, unless it is served first. -/
theorem decoded_refused {word : UInt32} (hreserved : Isa.Reserved word) (core : Core (Traced σ)) :
    ((¬ ∃ instruction ∈ Isa.decode word, core.hart.ServesFirst instruction) →
      executeDecoded word core = .error (.trap (.illegalInstruction word)) core) ∧
    ((∃ instruction ∈ Isa.decode word, core.hart.ServesFirst instruction) →
      Strays core (executeDecoded word core)) := by
  unfold executeDecoded
  rcases Isa.decode_of_reserved hreserved with h | h | h | h | h <;> rw [h]
  · exact ⟨fun _ => rfl, fun ⟨_, hmem, _⟩ => absurd hmem (by simp)⟩
  · simpa using load_refused word _ _ _ core
  · simpa using store_refused word _ _ _ core
  · simpa using csr_refused word _ _ _ core
  · simpa using amo_refused word _ _ _ core

/-! ### A whole instruction -/

/-- The word is refused: the instruction is illegal, a cycle is counted, and the fetch is the
only call that was made on the bus. -/
structure Rejects (core : Core σ) (word : UInt32) (bus : σ) : Prop where
  result : executeOne core = .error (.trap (.illegalInstruction word)) ⟨core.hart.counted, bus⟩
  calls : executeOne (σ := Traced σ) ⟨core.hart, core.bus, []⟩ =
    .error (.trap (.illegalInstruction word))
      ⟨core.hart.counted, bus, [⟨.read .word core.hart.pc, none⟩]⟩

/-- A reserved word that has been fetched is refused, whatever the bus is, unless what it computes
from the hart's state is served first; then it retires without a further call on the bus, traps
because of its address, or makes a call that is no write. -/
theorem reserved_rejects_iff {h : Hart} {bus : σ} {word : UInt32} {core : Core σ}
    (hfetch : fetch ⟨h, bus⟩ = .ok word core) (hreserved : Isa.Reserved word) :
    (Rejects ⟨h, bus⟩ word core.bus ↔
      ¬ ∃ instruction ∈ Isa.decode word, h.ServesFirst instruction) ∧
    ((∃ instruction ∈ Isa.decode word, h.ServesFirst instruction) →
      Strays ⟨h.counted, core.bus, [⟨.read .word h.pc, none⟩]⟩
        (executeOne (σ := Traced σ) ⟨h, bus, []⟩)) := by
  obtain ⟨-, htraced⟩ := fetch_traced hfetch
  -- the fetch changes nothing that the operands are computed from
  obtain ⟨hrefused, hstrays⟩ := decoded_refused hreserved
    (⟨h.counted, core.bus, [⟨.read .word h.pc, none⟩]⟩ : Core (Traced σ))
  have hrest : executeOne (σ := Traced σ) ⟨h, bus, []⟩ =
      executeDecoded word ⟨h.counted, core.bus, [⟨.read .word h.pc, none⟩]⟩ := by
    rw [executeOne_eq]
    simp only [bind, EStateM.bind, htraced]
  rw [← hrest] at hrefused hstrays
  refine ⟨⟨fun hrejects hfirst => ?_, fun hnot => ?_⟩, hstrays⟩
  · have hstray := hstrays hfirst
    rw [hrejects.calls] at hstray
    exact hstray.not_refused
  · have hcalls := hrefused hnot
    exact ⟨by rw [Traced.executeOne_forget ⟨h, bus, []⟩, hcalls]; rfl, hcalls⟩

/-- A load with an undefined width is refused where the timer is not at its address. -/
theorem reserved_rejects_load :
    Rejects (σ := Rom) ⟨Hart.new 4096 .failFast, ⟨0x0002B303⟩⟩ 0x0002B303 ⟨0x0002B303⟩ := by
  have hfetch : fetch (σ := Rom) ⟨Hart.new 4096 .failFast, ⟨0x0002B303⟩⟩ =
      .ok 0x0002B303 ⟨(Hart.new 4096 .failFast).counted, ⟨0x0002B303⟩⟩ := by rfl
  refine (reserved_rejects_iff hfetch (.load (by decide) (by decide))).1.mpr ?_
  rintro ⟨instruction, hdecode, hfirst⟩
  have hload : Isa.decode 0x0002B303 = some (.load none 6 5 0) := by rfl
  obtain rfl : _ = instruction := Option.mem_some.mp (hload ▸ hdecode)
  -- the load is from address zero
  rcases hfirst with haddr | haddr <;> exact absurd haddr (by decide)

end Exec

end RiscvMachine
