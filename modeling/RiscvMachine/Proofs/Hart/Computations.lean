import RiscvMachine.Proofs.Hart.PreciseTraps
import RiscvMachine.Proofs.Isa.Encoding

set_option autoImplicit false

/-! # Computations and jumps

What the integer instructions do to the hart, over the integers: the result (`Assembly.result?`)
and the place to which control is transferred (`Assembly.target?`). Executing the encoding of an
instruction has exactly this effect (`Exec.executeOne_computes`), and makes no call on the bus but
the fetch. Both follow from one lemma for each way of ending an instruction: with a result and the
next instruction, or with a jump.
-/

namespace RiscvMachine

namespace Isa.Assembly

/-- Where the instruction transfers control to, if it does. The target of `jalr` is made even. -/
def target? (h : Hart) : Assembly → Option UInt32
  | jal _ halves => some (UInt32.ofInt (h.pc.toNat + halves.toInt * 2))
  | jalr _ rs1 offset =>
    let sum := signed (h.register rs1) + offset.toInt
    some (UInt32.ofInt (sum - sum % 2))
  | branch test rs1 rs2 halves =>
    if test.Means (h.register rs1) (h.register rs2) then
      some (UInt32.ofInt (h.pc.toNat + halves.toInt * 2))
    else none
  | _ => none

/-- The register that receives a result, and the result. Jumps leave the address of the next
instruction; branches have no result. -/
def result? (h : Hart) : Assembly → Option (RegIndex × UInt32)
  | lui rd upper => some (rd, UInt32.ofInt (upper.toInt * 2 ^ 12))
  | auipc rd upper => some (rd, UInt32.ofInt (h.pc.toNat + upper.toInt * 2 ^ 12))
  | jal rd _ => some (rd, UInt32.ofInt (h.pc.toNat + 4))
  | jalr rd _ _ => some (rd, UInt32.ofInt (h.pc.toNat + 4))
  | branch _ _ _ _ => none
  | immediate op rd rs1 value =>
    some (rd, UInt32.ofInt (op.toAlu.value (h.register rs1) (UInt32.ofInt value.toInt)))
  | shift op rd rs1 amount =>
    some (rd, UInt32.ofInt (op.toAlu.value (h.register rs1) (UInt32.ofInt amount.toNat)))
  | register op rd rs1 rs2 =>
    some (rd, UInt32.ofInt (op.value (h.register rs1) (h.register rs2)))
  | mulDiv op rd rs1 rs2 =>
    some (rd, UInt32.ofInt (op.value (h.register rs1) (h.register rs2)))

/-- What the instruction does to the hart when it retires. -/
structure Computes (i : Assembly) (h h' : Hart) : Prop where
  /-- Nothing changes but the program counter, the registers and the cycles. -/
  rest : h' = { h with
    pc := (i.target? h).getD (UInt32.ofInt (h.pc.toNat + 4))
    registers := h'.registers
    csr := { h.csr with cycle := h.csr.cycle + 1 } }
  /-- The result is in its register, unless that is register zero. -/
  result : ∀ rd value, i.result? h = some (rd, value) → rd ≠ 0 → h'.register rd = value
  /-- The other registers, and the storage of register zero, are as they were. -/
  others : ∀ r : RegIndex, (∀ value, i.result? h = some (r, value) → r = 0) →
    h'.registers.get r = h.registers.get r

def effect (i : Assembly) (h : Hart) : Hart :=
  let written : Hart :=
    match i.result? h with
    | some (rd, value) => h.counted.setRegister rd value
    | none => h.counted
  { written with pc := (i.target? h).getD (UInt32.ofInt (h.pc.toNat + 4)) }

end Isa.Assembly

/-! ## Writing a register -/

namespace Hart

theorem register_setRegister (h : Hart) {r : RegIndex} (hr : r ≠ 0) (value : UInt32) :
    (h.setRegister r value).register r = value := by
  simp [register, setRegister, hr]

theorem storage_setRegister (h : Hart) {r r' : RegIndex} (hother : r = r' → r = 0)
    (value : UInt32) : (h.setRegister r value).registers.get r' = h.registers.get r' := by
  unfold setRegister
  split
  · rfl
  · rename_i hr
    exact Vector.getElem_set_ne r.isLt r'.isLt fun heq => hr (hother (Fin.ext heq))

theorem setRegister_eq (h : Hart) (r : RegIndex) (value : UInt32) :
    h.setRegister r value = { h with registers := (h.setRegister r value).registers } := by
  unfold setRegister
  split <;> rfl

end Hart

theorem Isa.Assembly.effect_computes (i : Isa.Assembly) (h : Hart) : i.Computes h (i.effect h) := by
  unfold effect
  cases hresult : i.result? h with
  | none =>
      refine ⟨rfl, ?_, fun _ _ => rfl⟩
      rintro rd value heq
      rw [hresult] at heq
      cases heq
  | some pair =>
      obtain ⟨rd, value⟩ := pair
      refine ⟨?_, ?_, ?_⟩
      · simp only
        rw [Hart.setRegister_eq]
        rfl
      · rintro rd' value' heq hrd
        rw [hresult] at heq
        cases heq
        exact Hart.register_setRegister h.counted hrd value
      · intro r hr
        exact Hart.storage_setRegister h.counted (fun heq => heq ▸ hr value (heq ▸ hresult)) value

/-! ## Words of the program counter -/

namespace Isa

theorem ofInt_toNat_add (w : UInt32) (z : Int) :
    UInt32.ofInt (w.toNat + z) = w + UInt32.ofInt z := by
  rw [UInt32.ofInt_add, ofInt_toNat]

/-- Clearing the lowest bit of a sum makes the sum even. -/
theorem ofInt_even (w : UInt32) (z : Int) :
    UInt32.ofInt (signed w + z - (signed w + z) % 2) = (w + UInt32.ofInt z) &&& 0xFFFFFFFE := by
  have hsum : w + UInt32.ofInt z = UInt32.ofInt (signed w + z) := by
    rw [UInt32.ofInt_add, ofInt_signed]
  apply UInt32.toNat_inj.mp
  rw [hsum, toNat_and_mask (k := 1) (by decide) (by decide), toNat_ofInt, toNat_ofInt]
  generalize signed w + z = sum
  omega

/-- A multiple of four has its lowest two bits clear. -/
theorem and_3_eq_zero_iff {w : UInt32} : w &&& 3 = 0 ↔ 4 ∣ w.toNat := by
  rw [← UInt32.toNat_inj, toNat_and_ones (k := 2) rfl]
  exact (Nat.dvd_iff_mod_eq_zero).symm

/-- Only the shift amount counts of the second operand of a shift. -/
theorem ShiftOp.value_eq (op : ShiftOp) (a : UInt32) {b b' : UInt32}
    (h : b.toNat % 32 = b'.toNat % 32) : op.toAlu.value a b = op.toAlu.value a b' := by
  cases op <;> simp only [toAlu, AluOp.value, h]

/-- The upper selector in the immediate of a constant shift does not count. -/
theorem toNat_shiftAmount (op : ShiftOp) (amount : BitVec 5) :
    (UInt32.ofInt (op.toAlu.funct7 ++ amount).toInt).toNat % 32 =
      (UInt32.ofInt amount.toNat).toNat % 32 := by
  rw [toNat_ofInt, toNat_ofInt, toInt_cases, toNat_append]
  split <;> omega

end Isa

/-! ## Execution -/

namespace Exec

variable {σ : Type}

/-- A jump that leaves a result reaches its target if that is aligned, and traps otherwise. -/
theorem jumpAndLink_apply (rd : RegIndex) (target : UInt32) (core : Core σ) :
    jumpAndLink rd target core =
      if 4 ∣ target.toNat then
        .ok .next ⟨{ core.hart.setRegister rd (core.hart.pc + 4) with pc := target }, core.bus⟩
      else .error (.trap (.instructionAddressMisaligned target)) core := by
  simp only [jumpAndLink, raise_bind, ← Isa.and_3_eq_zero_iff]
  by_cases haligned : target &&& 3 = 0
  · simp only [haligned]
    rfl
  · rw [if_neg haligned, if_pos (by simpa using haligned)]
    rfl

/-- A jump without a result, likewise. -/
theorem jump_apply (target : UInt32) (core : Core σ) :
    jump target core =
      if 4 ∣ target.toNat then .ok .next ⟨{ core.hart with pc := target }, core.bus⟩
      else .error (.trap (.instructionAddressMisaligned target)) core := by
  simp only [jump, raise_bind, ← Isa.and_3_eq_zero_iff]
  by_cases haligned : target &&& 3 = 0
  · simp only [haligned]
    rfl
  · rw [if_neg haligned, if_pos (by simpa using haligned)]
    rfl

variable {i : Isa.Assembly} {h : Hart}

/-- An instruction that ends with its result and goes on to the next one. -/
theorem finish_effect {rd : RegIndex} {value : UInt32} (hresult : i.result? h = some (rd, value))
    (hstays : i.target? h = none) (bus : σ) :
    finish rd value ⟨h.counted, bus⟩ = .ok .next ⟨i.effect h, bus⟩ := by
  rw [Isa.Assembly.effect, hresult, hstays, Option.getD_none, Isa.ofInt_toNat_add]
  rfl

/-- An instruction that ends with a jump and leaves the address of the next one. -/
theorem jumpAndLink_effect {rd : RegIndex} {target : UInt32}
    (hresult : i.result? h = some (rd, UInt32.ofInt (h.pc.toNat + 4)))
    (htarget : i.target? h = some target) (bus : σ) :
    jumpAndLink rd target ⟨h.counted, bus⟩ =
      if 4 ∣ target.toNat then .ok .next ⟨i.effect h, bus⟩
      else .error (.trap (.instructionAddressMisaligned target)) ⟨h.counted, bus⟩ := by
  rw [jumpAndLink_apply, Isa.Assembly.effect, hresult, htarget, Isa.ofInt_toNat_add]
  rfl

variable [Bus σ]

/-- What the instruction does after its fetch: it traps if control is transferred to a target
that is not aligned, and has its effect otherwise. -/
theorem execute_instruction (i : Isa.Assembly) (word : UInt32) (h : Hart) (bus : σ) :
    execute word i.instruction ⟨h.counted, bus⟩ =
      match i.target? h with
      | some target =>
        if 4 ∣ target.toNat then .ok .next ⟨i.effect h, bus⟩
        else .error (.trap (.instructionAddressMisaligned target)) ⟨h.counted, bus⟩
      | none => .ok .next ⟨i.effect h, bus⟩ := by
  cases i with
  | lui rd upper => exact finish_effect rfl rfl bus
  | auipc rd upper =>
      refine finish_effect ?_ rfl bus
      rw [Isa.Assembly.result?, Isa.ofInt_toNat_add]
      rfl
  | jal rd halves =>
      have htarget : (Isa.Assembly.jal rd halves).target? h =
          some (h.pc + UInt32.ofInt (halves.toInt * 2)) := by
        rw [Isa.Assembly.target?, Isa.ofInt_toNat_add]
      rw [htarget]
      exact jumpAndLink_effect rfl htarget bus
  | jalr rd rs1 offset =>
      have htarget : (Isa.Assembly.jalr rd rs1 offset).target? h =
          some ((h.register rs1 + UInt32.ofInt offset.toInt) &&& 0xFFFFFFFE) := by
        rw [Isa.Assembly.target?, Isa.ofInt_even]
      rw [htarget]
      exact jumpAndLink_effect rfl htarget bus
  | branch test rs1 rs2 halves =>
      -- a branch that is taken transfers control, but has no result
      change (if test.holds (h.register rs1) (h.register rs2) then
          jump (h.pc + UInt32.ofInt (halves.toInt * 2))
        else advance .next : Exec σ Flow) ⟨h.counted, bus⟩ = _
      by_cases htaken : test.Means (h.register rs1) (h.register rs2)
      · have htarget : (Isa.Assembly.branch test rs1 rs2 halves).target? h =
            some (h.pc + UInt32.ofInt (halves.toInt * 2)) := by
          rw [Isa.Assembly.target?, if_pos htaken, Isa.ofInt_toNat_add]
        rw [if_pos ((test.holds_iff _ _).mpr htaken), jump_apply, Isa.Assembly.effect, htarget]
        rfl
      · have hstays : (Isa.Assembly.branch test rs1 rs2 halves).target? h = none := by
          rw [Isa.Assembly.target?, if_neg htaken]
        rw [if_neg (mt (test.holds_iff _ _).mp htaken), Isa.Assembly.effect, hstays,
          Option.getD_none, Isa.ofInt_toNat_add]
        rfl
  | immediate op rd rs1 value =>
      refine finish_effect ?_ rfl bus
      rw [Isa.Assembly.result?, ← Isa.AluOp.apply_eq]
      rfl
  | shift op rd rs1 amount =>
      refine finish_effect ?_ rfl bus
      -- the constant stands in the place of an immediate, whose low bits are the amount
      rw [Isa.Assembly.result?, ← op.value_eq _ (Isa.toNat_shiftAmount op amount),
        ← Isa.AluOp.apply_eq]
      rfl
  | register op rd rs1 rs2 =>
      refine finish_effect ?_ rfl bus
      rw [Isa.Assembly.result?, ← Isa.AluOp.apply_eq]
      rfl
  | mulDiv op rd rs1 rs2 =>
      refine finish_effect ?_ rfl bus
      rw [Isa.Assembly.result?, ← Isa.MulDivOp.apply_eq]
      rfl

/-- An integer instruction that has been fetched does what it means over the integers, whatever
the bus is. A jump or a branch that is taken traps if its target is not a multiple of four, and
then writes no register. Otherwise nothing but the result register, the program counter and the
cycles change. Either way the fetch is the only call on the bus. -/
theorem executeOne_computes (i : Isa.Assembly) {h : Hart} {bus : σ} {core : Core σ}
    (hfetch : fetch ⟨h, bus⟩ = .ok i.encode core) :
    (∀ target, i.target? h = some target → ¬ 4 ∣ target.toNat →
      executeOne ⟨h, bus⟩ =
        .error (.trap (.instructionAddressMisaligned target))
          ⟨{ h with csr := { h.csr with cycle := h.csr.cycle + 1 } }, core.bus⟩ ∧
      executeOne (σ := Traced σ) ⟨h, bus, []⟩ =
        .error (.trap (.instructionAddressMisaligned target))
          ⟨{ h with csr := { h.csr with cycle := h.csr.cycle + 1 } }, core.bus,
            [⟨.read .word h.pc, none⟩]⟩) ∧
    ((∀ target, i.target? h = some target → 4 ∣ target.toNat) →
      ∃ h', i.Computes h h' ∧
        executeOne ⟨h, bus⟩ = .ok .next ⟨h', core.bus⟩ ∧
        executeOne (σ := Traced σ) ⟨h, bus, []⟩ =
          .ok .next ⟨h', core.bus, [⟨.read .word h.pc, none⟩]⟩) := by
  obtain ⟨hhart, htraced⟩ := fetch_traced hfetch
  obtain ⟨hart, bus'⟩ := core
  obtain rfl : hart = h.counted := hhart
  -- after the fetch nothing depends on the bus, so the traced run is the same equation
  have hdecode := Isa.decode_encode i
  rw [executeOne_of_decode hdecode hfetch, executeOne_of_decode hdecode htraced,
    execute_instruction, execute_instruction]
  constructor
  · intro target htarget hmisaligned
    rw [htarget]
    exact ⟨if_neg hmisaligned, if_neg hmisaligned⟩
  · intro haligned
    refine ⟨i.effect h, i.effect_computes h, ?_⟩
    cases htarget : i.target? h with
    | none => exact ⟨rfl, rfl⟩
    | some target =>
        have hfour := haligned target htarget
        exact ⟨if_pos hfour, if_pos hfour⟩

/-- A new hart with a value in one register. -/
def holding (r : RegIndex) (value : UInt32) : Hart :=
  (Hart.new 4096 .failFast).setRegister r value

/-- `jalr x5, -4(x5)` goes back from the address that the register held, and then leaves the
address of the next instruction in it. -/
theorem executeOne_computes_jalr :
    ∃ h', executeOne (σ := Rom) ⟨holding 5 0x80000010, ⟨(Isa.Assembly.jalr 5 5 (-4)).encode⟩⟩ =
        .ok .next ⟨h', ⟨(Isa.Assembly.jalr 5 5 (-4)).encode⟩⟩ ∧
      h'.pc = 0x8000000C ∧ h'.register 5 = 0x80000004 := by
  have hfetch : fetch (σ := Rom) ⟨holding 5 0x80000010, ⟨(Isa.Assembly.jalr 5 5 (-4)).encode⟩⟩ =
      .ok (Isa.Assembly.jalr 5 5 (-4)).encode
        ⟨(holding 5 0x80000010).counted, ⟨(Isa.Assembly.jalr 5 5 (-4)).encode⟩⟩ := by rfl
  have htarget : (Isa.Assembly.jalr 5 5 (-4)).target? (holding 5 0x80000010) =
      some 0x8000000C := by decide
  obtain ⟨h', hcomputes, hok, -⟩ := (executeOne_computes _ hfetch).2 fun target h => by
    cases htarget.symm.trans h
    decide
  refine ⟨h', hok, ?_, hcomputes.result 5 _ rfl (by decide)⟩
  rw [hcomputes.rest, htarget]
  rfl

end Exec

end RiscvMachine
