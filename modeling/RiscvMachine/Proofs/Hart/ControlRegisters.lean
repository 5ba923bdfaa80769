import RiscvMachine.Proofs.Hart.Computations

set_option autoImplicit false

/-! # Control register instructions

The instructions that access control registers as an assembler takes them (`CsrAssembly`), their
words, and what they do: they read a register and then write it (`Exec.executeOne_modifies`).
Whose register it is decides who is asked. The hart's own registers, which have fifteen standard
numbers, need no call on the bus; a register with any other number is the bus's, and the calls are
those of `CsrAssembly.transaction` and no others.

The execution is followed in the two parts that the definition has: the old value, and what is
made of it (`modifyCsr`). Both are settled once for either owner.
-/

namespace RiscvMachine

namespace Isa

/-! ## Instructions in assembly -/

/-- A control register instruction: `csrrw`, `csrrs`, `csrrc` and the forms of each with an
immediate operand. -/
structure CsrAssembly where
  op : CsrOp
  rd : RegIndex
  source : CsrSource
  number : BitVec 12
  deriving DecidableEq, Repr

def CsrOp.code : CsrOp → BitVec 2
  | .write => 1
  | .set => 2
  | .clear => 3

def CsrSource.form : CsrSource → BitVec 1
  | .register _ => 0
  | .immediate _ => 1

namespace CsrAssembly

def funct3 (i : CsrAssembly) : BitVec 3 := i.source.form ++ i.op.code

/-- The standard encoding. The operand's field stands where other instructions have their first
source register. -/
def encode (i : CsrAssembly) : UInt32 :=
  immediateFormat i.number i.source.field i.funct3 i.rd 0b1110011

/-- `csrrci x6, mstatus, 8`. -/
example : (CsrAssembly.mk .clear 6 (.immediate 8) 0x300).encode = 0x30047373 := by decide

/-- The number of the register as the hart takes it. -/
def csr (i : CsrAssembly) : UInt32 := UInt32.ofNat i.number.toNat

def instruction (i : CsrAssembly) : Instruction := .csr (some i.op) i.rd i.source i.csr

end CsrAssembly

/-! ## Decoding -/

theorem csrNumber_word (value : BitVec 12) (x : BitVec 5) (f : BitVec 3) (d : BitVec 5)
    (o : BitVec 7) : csrNumber (word (value ++ x ++ f) d o) = UInt32.ofNat value.toNat := by
  apply UInt32.toNat_inj.mp
  rw [csrNumber, toNat_shiftRight (by decide), toNat_word, toNat_append, toNat_append,
    UInt32.toNat_ofNat', show (20 : UInt32).toNat = 20 from rfl]
  omega

/-- A word of an access, by its selector. -/
theorem decode_csrFormat (number : BitVec 12) (first : RegIndex) (f : BitVec 3) (dest : RegIndex)
    (hf : UInt32.ofNat f.toNat ≠ 0) :
    decode (immediateFormat number first f dest 0b1110011) =
      some (.csr (CsrOp.ofFunct3? (UInt32.ofNat f.toNat)) dest
        (if UInt32.ofNat f.toNat &&& 4 = 0 then .register first else .immediate first)
        (UInt32.ofNat number.toNat)) := by
  rw [immediateFormat, decode, opcode_word]
  change (if funct3 _ = 0 then decodePrivileged _ else some (decodeCsr _)) = _
  rw [decodeCsr, funct3_word, if_neg hf, rs1_word, rd_word, csrNumber_word]

/-- Decoding undoes encoding. -/
theorem decode_csr_encode (i : CsrAssembly) : decode i.encode = some i.instruction := by
  obtain ⟨op, dest, source, number⟩ := i
  have hselector (form : BitVec 1) : UInt32.ofNat (form ++ op.code).toNat ≠ 0 := by
    cases op <;> revert form <;> decide
  have hop (form : BitVec 1) : CsrOp.ofFunct3? (UInt32.ofNat (form ++ op.code).toNat) = op := by
    cases op <;> revert form <;> decide
  have hform (form : BitVec 1) :
      UInt32.ofNat (form ++ op.code).toNat &&& 4 = 0 ↔ form = 0 := by
    cases op <;> revert form <;> decide
  rw [CsrAssembly.encode, CsrAssembly.funct3, decode_csrFormat _ _ _ _ (hselector _), hop]
  simp only [hform]
  cases source <;> rfl

end Isa

/-! ## Numbers -/

/-- The standard number of a register that the hart serves. -/
def CoreCsr.number : CoreCsr → BitVec 12
  | .mstatus => 0x300
  | .misa => 0x301
  | .mie => 0x304
  | .mtvec => 0x305
  | .mscratch => 0x340
  | .mepc => 0x341
  | .mcause => 0x342
  | .mtval => 0x343
  | .mip => 0x344
  | .mvendorid => 0xF11
  | .mhartid => 0xF14
  | .cycle => 0xC00
  | .time => 0xC01
  | .cycleh => 0xC80
  | .timeh => 0xC81

/-- The registers of the hart that a guest can change. -/
def CoreCsr.writable : List CoreCsr :=
  [.mstatus, .mie, .mip, .mtvec, .mscratch, .mepc, .mcause, .mtval]

theorem CoreCsr.ofNumber?_number (csr : CoreCsr) :
    ofNumber? (UInt32.ofNat csr.number.toNat) = some csr := by
  cases csr <;> rfl

theorem CoreCsr.eq_number_of_ofNumber? {n : UInt32} {csr : CoreCsr} (h : ofNumber? n = some csr) :
    n = UInt32.ofNat csr.number.toNat := by
  unfold ofNumber? at h
  split at h <;> cases h <;> rfl

theorem ofNat_toNat_inj {a b : BitVec 12} (h : UInt32.ofNat a.toNat = UInt32.ofNat b.toNat) :
    a = b := by
  have hnat := congrArg UInt32.toNat h
  rw [UInt32.toNat_ofNat', UInt32.toNat_ofNat'] at hnat
  apply BitVec.eq_of_toNat_eq
  omega

/-- No two registers of the hart have one number. -/
theorem CoreCsr.number_inj {csr csr' : CoreCsr} (h : csr.number = csr'.number) : csr = csr' := by
  have hsome := csr.ofNumber?_number
  rw [h, ofNumber?_number] at hsome
  exact (Option.some.inj hsome).symm

/-- The hart serves the fifteen numbers and no others. -/
theorem CoreCsr.ofNumber?_eq_none {number : BitVec 12}
    (h : ∀ csr : CoreCsr, csr.number ≠ number) : ofNumber? (UInt32.ofNat number.toNat) = none := by
  cases hsome : ofNumber? (UInt32.ofNat number.toNat) with
  | none => rfl
  | some csr => exact absurd (ofNat_toNat_inj (eq_number_of_ofNumber? hsome)).symm (h csr)

namespace ControlRegisters

/-- What a register reads after a write to one of them. -/
theorem read_write (c : ControlRegisters) (csr csr' : CoreCsr) (value : UInt32) :
    (c.write csr value).read csr' =
      if csr' = csr ∧ csr ∈ CoreCsr.writable then value else c.read csr' := by
  cases csr <;> cases csr' <;> rfl

/-- A write leaves the counters and the timer alone. -/
theorem write_counters (c : ControlRegisters) (csr : CoreCsr) (value : UInt32) :
    (c.write csr value).cycle = c.cycle ∧ (c.write csr value).timer = c.timer ∧
      (c.write csr value).timerMatch = c.timerMatch := by
  cases csr <;> exact ⟨rfl, rfl, rfl⟩

end ControlRegisters

/-! ## What the instructions mean -/

namespace Isa.CsrAssembly

/-- The operand: the value of a register, or the field itself with zeros in front. -/
def operand (i : CsrAssembly) (h : Hart) : UInt32 :=
  match i.source with
  | .register rs1 => h.register rs1
  | .immediate value => UInt32.ofNat value.val

/-- What the instruction makes of the old value. -/
def value (i : CsrAssembly) (h : Hart) (old : UInt32) : UInt32 :=
  match i.op with
  | .write => i.operand h
  | .set => old ||| i.operand h
  | .clear => old &&& ~~~(i.operand h)

/-- Whether the old value is asked for: not by a plain write whose result goes nowhere. -/
def Reads (i : CsrAssembly) : Prop := i.op ≠ .write ∨ i.rd.val ≠ 0

/-- Whether a value is written: not by the other forms if the field of their operand is zero. -/
def Writes (i : CsrAssembly) : Prop := i.op = .write ∨ i.source.field.val ≠ 0

instance (i : CsrAssembly) : Decidable i.Reads := inferInstanceAs (Decidable (_ ∨ _))

instance (i : CsrAssembly) : Decidable i.Writes := inferInstanceAs (Decidable (_ ∨ _))

/-- Numbers whose bits 8 and 9 are set are for machine mode only. -/
def Permitted (i : CsrAssembly) (h : Hart) : Prop :=
  h.privilege = .user → i.number.extractLsb 9 8 ≠ 3

/-- What the instruction does to the hart, from the value that the register had. -/
structure Modifies (i : CsrAssembly) (old : UInt32) (h h' : Hart) : Prop where
  /-- Nothing changes but the program counter, the general and the control registers. -/
  rest : h' = { h with pc := h.pc + 4, registers := h'.registers, csr := h'.csr }
  /-- The old value is in the result register, unless that is register zero. -/
  result : i.rd ≠ 0 → h'.register i.rd = old
  /-- The other registers, and the storage of register zero, are as they were. -/
  others : ∀ r : RegIndex, (r = i.rd → r = 0) → h'.registers.get r = h.registers.get r
  /-- The named register, if a guest can change it, has the new value. The others read as they
  did, the cycle counter included, which has counted this instruction before. -/
  controls : ∀ csr : CoreCsr, h'.csr.read csr =
    if csr.number = i.number ∧ csr ∈ CoreCsr.writable then i.value h old
    else h.counted.csr.read csr
  /-- The counters and the timer are not written. -/
  counters : h'.csr.cycle = h.csr.cycle + 1 ∧ h'.csr.timer = h.csr.timer ∧
    h'.csr.timerMatch = h.csr.timerMatch

/-- The old value of a register of the bus, if it is asked for. -/
def ask {σ : Type} [Bus σ] (i : CsrAssembly) : EStateM BusFault σ UInt32 :=
  if i.Reads then Bus.readCsr i.csr else pure 0

/-- The new value of a register of the bus, if it is written. -/
def tell {σ : Type} [Bus σ] (i : CsrAssembly) (h : Hart) (old : UInt32) :
    EStateM BusFault σ Unit :=
  if i.Writes then Bus.writeCsr i.csr (i.value h old) else pure ()

/-- What the instruction does on the bus about a register of the bus, and the old value. -/
def transaction {σ : Type} [Bus σ] (i : CsrAssembly) (h : Hart) : EStateM BusFault σ UInt32 := do
  let old ← i.ask
  i.tell h old
  return old

/-- The same as a list of calls: at most one read and then at most one write. -/
def calls (i : CsrAssembly) (h : Hart) (old : UInt32) : List BusEvent :=
  (if i.Reads then [⟨.readCsr i.csr, none⟩] else []) ++
    (if i.Writes then [⟨.writeCsr i.csr (i.value h old), none⟩] else [])

section

variable {σ : Type} [Bus σ] {i : CsrAssembly} {h : Hart} {bus bus' : σ} {old : UInt32}

/-- Both parts of a transaction that succeeds have succeeded. -/
theorem ok_of_transaction (hcalls : i.transaction h bus = .ok old bus') :
    ∃ bus₁, i.ask bus = .ok old bus₁ ∧ i.tell h old bus₁ = .ok () bus' := by
  obtain ⟨value, bus₁, hask, hrest⟩ := ok_of_bind hcalls
  obtain ⟨⟨⟩, bus₂, htell, hdone⟩ := ok_of_bind hrest
  cases hdone
  exact ⟨bus₁, hask, htell⟩

theorem ask_traced (hask : i.ask bus = .ok old bus') (before : List BusEvent) :
    i.ask (⟨bus, before⟩ : Traced σ) =
      .ok old ⟨bus', before ++ if i.Reads then [⟨.readCsr i.csr, none⟩] else []⟩ := by
  unfold ask at hask ⊢
  split
  · rw [if_pos ‹_›] at hask
    simp only [Bus.readCsr, Traced.record, hask]
  · rw [if_neg ‹_›] at hask
    cases hask
    rw [List.append_nil]
    rfl

theorem tell_traced (htell : i.tell h old bus = .ok () bus') (before : List BusEvent) :
    i.tell h old (⟨bus, before⟩ : Traced σ) =
      .ok () ⟨bus', before ++
        if i.Writes then [⟨.writeCsr i.csr (i.value h old), none⟩] else []⟩ := by
  unfold tell at htell ⊢
  split
  · rw [if_pos ‹_›] at htell
    simp only [Bus.writeCsr, Traced.record, htell]
  · rw [if_neg ‹_›] at htell
    cases htell
    rw [List.append_nil]
    rfl

/-- The calls are those on record if the bus is traced. -/
theorem transaction_traced (hcalls : i.transaction h bus = .ok old bus')
    (before : List BusEvent) :
    i.transaction h (⟨bus, before⟩ : Traced σ) = .ok old ⟨bus', before ++ i.calls h old⟩ := by
  obtain ⟨bus₁, hask, htell⟩ := ok_of_transaction hcalls
  simp only [transaction, bind, EStateM.bind, ask_traced hask, tell_traced htell, calls,
    List.append_assoc]
  rfl

end

/-- The hart after the instruction, with the control registers that it leaves. -/
def effect (i : CsrAssembly) (old : UInt32) (csr : ControlRegisters) (h : Hart) : Hart :=
  { ({ h with csr := csr }).setRegister i.rd old with pc := h.pc + 4 }

/-- Without an operand the other forms leave the old value. -/
theorem value_of_not_writes {i : CsrAssembly} (hwrites : ¬ i.Writes) (h : Hart) (old : UInt32) :
    i.value h old = old := by
  obtain ⟨hop, hfield⟩ := not_or.mp hwrites
  have hzero : i.operand h = 0 := by
    unfold operand
    cases hsource : i.source with
    | register rs1 =>
        obtain rfl : rs1 = 0 := by simpa [hsource, CsrSource.field] using hfield
        rfl
    | immediate value =>
        obtain rfl : value = 0 := by simpa [hsource, CsrSource.field] using hfield
        rfl
  unfold value
  rw [hzero]
  cases hcase : i.op with
  | write => exact absurd hcase hop
  | set => exact UInt32.or_zero
  | clear => simp

/-- The control registers that an instruction on one of them leaves. -/
def controls (i : CsrAssembly) (csr : CoreCsr) (old : UInt32) (h : Hart) : ControlRegisters :=
  if i.Writes then h.counted.csr.write csr (i.value h old) else h.counted.csr

/-- The effect is the one described if the control registers are. Where the old value goes
nowhere, any will do in its place. -/
theorem effect_modifies {i : CsrAssembly} {old old' : UInt32} {csr : ControlRegisters} {h : Hart}
    (hold : i.rd ≠ 0 → old' = old)
    (hread : ∀ r : CoreCsr, csr.read r =
      if r.number = i.number ∧ r ∈ CoreCsr.writable then i.value h old else h.counted.csr.read r)
    (hcounters : csr.cycle = h.csr.cycle + 1 ∧ csr.timer = h.csr.timer ∧
      csr.timerMatch = h.csr.timerMatch) :
    i.Modifies old h (i.effect old' csr h) := by
  have hcsr : (i.effect old' csr h).csr = csr := by
    rw [effect, Hart.setRegister_eq]
  refine ⟨?_, ?_, ?_, ?_, ?_⟩
  · rw [effect, Hart.setRegister_eq]
  · intro hrd
    rw [← hold hrd]
    exact Hart.register_setRegister _ hrd old'
  · exact fun r hr => Hart.storage_setRegister _ (fun heq => heq ▸ hr heq.symm) old'
  · rw [hcsr]
    exact hread
  · rw [hcsr]
    exact hcounters

/-- An instruction on a register of the hart. A plain write need not know the old value. -/
theorem effect_core {i : CsrAssembly} {csr : CoreCsr} (hnumber : csr.number = i.number) (h : Hart)
    {old : UInt32} (hold : i.Reads → old = h.counted.csr.read csr) :
    i.Modifies (h.counted.csr.read csr) h (i.effect old (i.controls csr old h) h) := by
  have hvalue : i.value h old = i.value h (h.counted.csr.read csr) := by
    by_cases hop : i.op = .write
    · simp only [value, hop]
    · rw [hold (.inl hop)]
  have hsame (r : CoreCsr) : r.number = i.number ↔ r = csr :=
    ⟨fun heq => CoreCsr.number_inj (heq.trans hnumber.symm), fun heq => heq ▸ hnumber⟩
  refine effect_modifies (fun hrd => hold (.inr (Fin.val_ne_zero_iff.mpr hrd))) (fun r => ?_) ?_
  · simp only [controls, hsame]
    split
    · rw [ControlRegisters.read_write, hvalue]
      by_cases hr : r = csr
      · rw [hr]
      · rw [if_neg (fun h => hr h.1), if_neg (fun h => hr h.1)]
    · -- without a write the new value is the old one
      rw [value_of_not_writes ‹_›]
      split
      · rename_i hr
        rw [hr.1]
      · rfl
  · unfold controls
    split
    · exact ControlRegisters.write_counters _ _ _
    · exact ⟨rfl, rfl, rfl⟩

/-- An instruction on a register of the bus. -/
theorem effect_bus {i : CsrAssembly} (hnumber : ∀ csr : CoreCsr, csr.number ≠ i.number) (h : Hart)
    (old : UInt32) : i.Modifies old h (i.effect old h.counted.csr h) := by
  refine effect_modifies (fun _ => rfl) (fun r => ?_) ⟨rfl, rfl, rfl⟩
  rw [if_neg fun hr => hnumber r hr.1]

end Isa.CsrAssembly

/-! ## Execution -/

namespace Exec

open Isa

variable {σ : Type}

theorem callBus_ok {α : Type} {call : EStateM BusFault σ α} {bus bus' : σ} {a : α}
    (h : call bus = .ok a bus') (cause : Trap) (hart : Hart) :
    callBus call cause ⟨hart, bus⟩ = .ok a ⟨hart, bus'⟩ := by
  simp only [callBus, h]

variable [Bus σ] {i : CsrAssembly} {h : Hart}

theorem isMachineCsr_csr (i : CsrAssembly) :
    isMachineCsr i.csr = true ↔ i.number.extractLsb 9 8 = 3 := by
  have hnat : ((i.csr >>> 8) &&& 3).toNat = (i.number.extractLsb 9 8).toNat := by
    rw [toNat_and_ones (k := 2) rfl, toNat_shiftRight (by decide), toNat_extractLsb,
      CsrAssembly.csr, UInt32.toNat_ofNat', show (8 : UInt32).toNat = 8 from rfl]
    omega
  rw [isMachineCsr, beq_iff_eq, ← UInt32.toNat_inj, hnat, ← BitVec.toNat_inj]
  rfl

/-- An instruction that the mode permits, in its two parts. -/
theorem accessCsr_apply (word : UInt32) (hmode : i.Permitted h) (bus : σ) :
    accessCsr word (some i.op) i.rd i.source i.csr ⟨h.counted, bus⟩ =
      ((if i.Reads then readCsr word i.csr else pure 0) >>=
        modifyCsr word (some i.op) i.rd i.source i.csr (i.operand h)) ⟨h.counted, bus⟩ := by
  have hpermitted : ¬ (decide (h.counted.privilege = .user) && isMachineCsr i.csr) = true := by
    rw [Bool.and_eq_true, decide_eq_true_iff, isMachineCsr_csr]
    exact fun hdenied => hmode hdenied.1 hdenied.2
  have hreads : (decide (some i.op ≠ some .write) || decide (i.rd.val ≠ 0)) = true ↔ i.Reads := by
    rw [Bool.or_eq_true, decide_eq_true_iff, decide_eq_true_iff]
    exact or_congr (not_congr Option.some_inj) Iff.rfl
  simp only [accessCsr, getHart_bind_apply, if_neg hpermitted, hreads]
  -- the definition repeats what follows the old value in either case
  by_cases hread : i.Reads
  · rw [if_pos hread, if_pos hread]
    rfl
  · rw [if_neg hread, if_neg hread]
    rfl

/-- The second part as the assembler's instruction has it. -/
theorem modifyCsr_eq (i : CsrAssembly) (h : Hart) (word old : UInt32) :
    modifyCsr (σ := σ) word (some i.op) i.rd i.source i.csr (i.operand h) old =
      if i.Writes then do
        writeCsr word i.csr (i.value h old)
        finish i.rd old
      else finish i.rd old := by
  have hwrites : (decide (some i.op = some .write) || decide (i.source.field.val ≠ 0)) = true ↔
      i.Writes := by
    rw [Bool.or_eq_true, decide_eq_true_iff, decide_eq_true_iff]
    exact or_congr Option.some_inj Iff.rfl
  have hvalue : i.op.apply old (i.operand h) = i.value h old := by
    unfold CsrAssembly.value
    cases i.op <;> rfl
  simp only [modifyCsr, hwrites, hvalue]

/-- An access to a register of the hart. -/
theorem accessCsr_core (word : UInt32) {csr : CoreCsr} (hnumber : csr.number = i.number)
    (hmode : i.Permitted h) (bus : σ) :
    let old := if i.Reads then h.counted.csr.read csr else 0
    accessCsr word (some i.op) i.rd i.source i.csr ⟨h.counted, bus⟩ =
      .ok .next ⟨i.effect old (i.controls csr old h) h, bus⟩ := by
  intro old
  have hcsr : CoreCsr.ofNumber? i.csr = some csr := by
    rw [CsrAssembly.csr, ← hnumber, csr.ofNumber?_number]
  have hread : (if i.Reads then readCsr word i.csr else pure 0 : Exec σ UInt32) ⟨h.counted, bus⟩ =
      .ok old ⟨h.counted, bus⟩ := by
    unfold readCsr old
    rw [hcsr]
    split <;> rfl
  rw [accessCsr_apply word hmode]
  simp only [bind, EStateM.bind, hread, modifyCsr_eq, CsrAssembly.controls]
  split
  · simp only [EStateM.bind, writeCsr, CoreCsr.ofWrittenNumber?_eq, hcsr]
    rfl
  · rfl

/-- An access to a register of the bus on which the calls succeed. -/
theorem accessCsr_bus (word : UInt32) (hnumber : ∀ csr : CoreCsr, csr.number ≠ i.number)
    (hmode : i.Permitted h) {bus bus' : σ} {old : UInt32}
    (hcalls : i.transaction h bus = .ok old bus') :
    accessCsr word (some i.op) i.rd i.source i.csr ⟨h.counted, bus⟩ =
      .ok .next ⟨i.effect old h.counted.csr h, bus'⟩ := by
  have hcsr : CoreCsr.ofNumber? i.csr = none := CoreCsr.ofNumber?_eq_none hnumber
  obtain ⟨bus₁, hask, htell⟩ := CsrAssembly.ok_of_transaction hcalls
  have hreadCsr : (if i.Reads then readCsr word i.csr else pure 0 : Exec σ UInt32)
      ⟨h.counted, bus⟩ = .ok old ⟨h.counted, bus₁⟩ := by
    unfold CsrAssembly.ask at hask
    unfold readCsr
    rw [hcsr]
    split
    · rw [if_pos ‹_›] at hask
      exact callBus_ok hask _ _
    · rw [if_neg ‹_›] at hask
      cases hask
      rfl
  rw [accessCsr_apply word hmode]
  simp only [bind, EStateM.bind, hreadCsr, modifyCsr_eq]
  unfold CsrAssembly.tell at htell
  split
  · rw [if_pos ‹_›] at htell
    simp only [EStateM.bind, writeCsr, CoreCsr.ofWrittenNumber?_eq, hcsr, callBus_ok htell]
    rfl
  · rw [if_neg ‹_›] at htell
    cases htell
    rfl

/-- Control register instructions read, modify and write. An instruction that the mode permits
retires, leaves the old value in its result register, and changes the register in the way its form
says. On one of the hart's own registers it makes no call on the bus but the fetch, and those that
identify the hart or count keep their value. On a register with any other number, provided that
the bus takes the calls, it reads at most once, then writes at most once, and calls nothing else:
the read is missing only from a plain write to nowhere, the write only from the other forms with a
zero field for their operand. Nothing else changes but the program counter and the cycles. -/
theorem executeOne_modifies (i : CsrAssembly) {h : Hart} {bus : σ} {core : Core σ}
    (hfetch : fetch ⟨h, bus⟩ = .ok i.encode core) (hmode : i.Permitted h) :
    (∀ csr : CoreCsr, csr.number = i.number →
      ∃ h', i.Modifies (h.counted.csr.read csr) h h' ∧
        executeOne ⟨h, bus⟩ = .ok .next ⟨h', core.bus⟩ ∧
        executeOne (σ := Traced σ) ⟨h, bus, []⟩ =
          .ok .next ⟨h', core.bus, [⟨.read .word h.pc, none⟩]⟩) ∧
    ((∀ csr : CoreCsr, csr.number ≠ i.number) →
      ∀ old bus', i.transaction h core.bus = .ok old bus' →
        ∃ h', i.Modifies old h h' ∧
          executeOne ⟨h, bus⟩ = .ok .next ⟨h', bus'⟩ ∧
          executeOne (σ := Traced σ) ⟨h, bus, []⟩ =
            .ok .next ⟨h', bus', ⟨.read .word h.pc, none⟩ :: i.calls h old⟩) := by
  obtain ⟨hhart, htraced⟩ := fetch_traced hfetch
  obtain ⟨hart, bus₁⟩ := core
  obtain rfl : hart = h.counted := hhart
  rw [executeOne_of_decode (decode_csr_encode i) hfetch,
    executeOne_of_decode (decode_csr_encode i) htraced]
  constructor
  · intro csr hnumber
    exact ⟨_, i.effect_core hnumber h fun hreads => if_pos hreads,
      accessCsr_core i.encode hnumber hmode bus₁, accessCsr_core i.encode hnumber hmode _⟩
  · intro hnumber old bus' hcalls
    exact ⟨_, i.effect_bus hnumber h old, accessCsr_bus i.encode hnumber hmode hcalls,
      accessCsr_bus i.encode hnumber hmode (CsrAssembly.transaction_traced hcalls _)⟩

/-- `csrrw x5, mscratch, x5` swaps. `csrrsi x5, 0x140, 0` asks the bus for a value and writes
nothing. -/
theorem executeOne_modifies_swap :
    (∃ h', executeOne (σ := Rom)
        ⟨holding 5 7, ⟨(CsrAssembly.mk .write 5 (.register 5) 0x340).encode⟩⟩ =
          .ok .next ⟨h', ⟨(CsrAssembly.mk .write 5 (.register 5) 0x340).encode⟩⟩ ∧
      h'.register 5 = 0 ∧ h'.csr.read .mscratch = 7) ∧
    ∃ h', executeOne (σ := Traced Rom)
        ⟨holding 5 7, ⟨(CsrAssembly.mk .set 5 (.immediate 0) 0x140).encode⟩, []⟩ =
          .ok .next ⟨h', ⟨(CsrAssembly.mk .set 5 (.immediate 0) 0x140).encode⟩,
            [⟨.read .word ramBase, none⟩, ⟨.readCsr 0x140, none⟩]⟩ ∧
      h'.register 5 = 0 := by
  have hswap : fetch (σ := Rom)
      ⟨holding 5 7, ⟨(CsrAssembly.mk .write 5 (.register 5) 0x340).encode⟩⟩ =
        .ok (CsrAssembly.mk .write 5 (.register 5) 0x340).encode
          ⟨(holding 5 7).counted, ⟨(CsrAssembly.mk .write 5 (.register 5) 0x340).encode⟩⟩ := by rfl
  have hask : fetch (σ := Rom)
      ⟨holding 5 7, ⟨(CsrAssembly.mk .set 5 (.immediate 0) 0x140).encode⟩⟩ =
        .ok (CsrAssembly.mk .set 5 (.immediate 0) 0x140).encode
          ⟨(holding 5 7).counted, ⟨(CsrAssembly.mk .set 5 (.immediate 0) 0x140).encode⟩⟩ := by rfl
  constructor
  · obtain ⟨h', hmodifies, hok, -⟩ := (executeOne_modifies _ hswap nofun).1 .mscratch rfl
    refine ⟨h', hok, hmodifies.result (by decide), ?_⟩
    rw [hmodifies.controls]
    rfl
  · have hbus (csr : CoreCsr) : csr.number ≠ 0x140 := by cases csr <;> decide
    obtain ⟨h', hmodifies, -, hok⟩ := (executeOne_modifies _ hask nofun).2 hbus 0 _ rfl
    exact ⟨h', hok, hmodifies.result (by decide)⟩

end Exec

end RiscvMachine
