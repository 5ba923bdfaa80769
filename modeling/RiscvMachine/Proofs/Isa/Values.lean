import Mathlib
import RiscvMachine.Isa.Arithmetic

set_option autoImplicit false

/-! # Integer operations over the integers

What the register operations mean, as integers that are brought back into a word at the end
(`AluOp.value`, `MulDivOp.value`), and the comparisons of branches (`BranchTest.Means`). The
operations on words compute these (`AluOp.apply_eq`, `MulDivOp.apply_eq`, `BranchTest.holds_iff`).
-/

namespace RiscvMachine.Isa

/-- The integer that a word stands for in two's complement. -/
def signed (w : UInt32) : Int := w.toInt32.toInt

/-! ## Words and integers -/

theorem signed_eq (w : UInt32) :
    signed w = if w.toNat < 2 ^ 31 then (w.toNat : Int) else w.toNat - 2 ^ 32 := by
  have h : signed w = w.toBitVec.toInt := rfl
  rw [h, BitVec.toInt_eq_toNat_cond]
  have hlt := w.toNat_lt
  have hnat : w.toBitVec.toNat = w.toNat := rfl
  rw [hnat]
  split <;> split <;> omega

theorem toNat_ofInt (z : Int) : (UInt32.ofInt z).toNat = (z % 2 ^ 32).toNat := by
  rw [UInt32.ofInt.eq_1, UInt32.toNat_ofNat']
  omega

/-- Only the residue modulo the number of words matters. -/
theorem ofInt_eq_of_emod_eq {x y : Int} (h : x % 2 ^ 32 = y % 2 ^ 32) :
    UInt32.ofInt x = UInt32.ofInt y := by
  apply UInt32.toNat_inj.mp
  rw [toNat_ofInt, toNat_ofInt, h]

theorem ofInt_bmod (z : Int) : UInt32.ofInt (z.bmod (2 ^ 32)) = UInt32.ofInt z := by
  apply ofInt_eq_of_emod_eq
  exact Int.bmod_emod

@[simp] theorem ofInt_toNat (w : UInt32) : UInt32.ofInt w.toNat = w := by
  apply UInt32.toNat_inj.mp
  rw [toNat_ofInt]
  have := w.toNat_lt
  omega

@[simp] theorem ofInt_signed (w : UInt32) : UInt32.ofInt (signed w) = w := by
  conv_rhs => rw [← ofInt_toNat w]
  apply ofInt_eq_of_emod_eq
  rw [signed_eq]
  split <;> omega

theorem signed_inj {a b : UInt32} : signed a = signed b ↔ a = b :=
  ⟨fun h => by rw [← ofInt_signed a, h, ofInt_signed], fun h => h ▸ rfl⟩

/-- A signed word of the machine is determined by its integer. -/
theorem toUInt32_eq_ofInt (x : Int32) : x.toUInt32 = UInt32.ofInt x.toInt := by
  have h : signed x.toUInt32 = x.toInt := by rw [signed, Int32.toInt32_toUInt32]
  rw [← h, ofInt_signed]

theorem signed_zero_iff {w : UInt32} : signed w = 0 ↔ w = 0 :=
  signed_inj (b := 0)

/-- The shift amount that a word gives. -/
theorem toNat_and_31 (w : UInt32) : (w &&& 0x1F).toNat = w.toNat % 32 := by
  rw [UInt32.toNat_and]
  exact Nat.and_two_pow_sub_one_eq_mod w.toNat 5

/-- Shifting right with copies of the sign is division rounding down. -/
theorem shiftRightSigned_eq (w : UInt32) {n : UInt32} (hn : n.toNat < 32) :
    shiftRightSigned w n = UInt32.ofInt (signed w / 2 ^ n.toNat) := by
  have hamount : (n.toInt32.toBitVec.smod 32).toNat = n.toNat := by
    have hmsb : n.toBitVec.msb = false := by
      rw [BitVec.msb_eq_decide]
      exact decide_eq_false (by change ¬ 2 ^ 31 ≤ n.toNat; omega)
    change (n.toBitVec.smod 32).toNat = n.toNat
    rw [BitVec.toNat_smod, hmsb]
    change n.toNat % 32 = n.toNat
    omega
  rw [shiftRightSigned, toUInt32_eq_ofInt]
  congr 1
  change (w.toInt32 >>> n.toInt32).toBitVec.toInt = _
  rw [Int32.toBitVec_shiftRight, BitVec.toInt_sshiftRight', hamount, Int.shiftRight_eq_div_pow]
  rfl

/-- Widening a word with zeros keeps its number. -/
theorem toInt_toInt64_toUInt64 (w : UInt32) : w.toUInt64.toInt64.toInt = w.toNat := by
  have hlt := w.toNat_lt
  have hnat : w.toUInt64.toBitVec.toNat = w.toNat := UInt32.toNat_toUInt64 w
  change w.toUInt64.toBitVec.toInt = w.toNat
  rw [BitVec.toInt_eq_toNat_of_lt (by omega), hnat]

/-- The upper half of a product counts it in units of `2 ^ 32`, rounding down. -/
theorem upperHalf_eq {x : Int64} {product : Int} (h : x.toInt = product.bmod (2 ^ 64)) :
    upperHalf x = UInt32.ofInt (product / 2 ^ 32) := by
  have hword : x.toUInt64.toNat = (product % 2 ^ 64).toNat := by
    have hmod := congrArg (· % (2 ^ 64 : Int)) h
    have hint : x.toInt = x.toUInt64.toBitVec.toInt := rfl
    have hlt := x.toUInt64.toNat_lt
    have hnat : x.toUInt64.toBitVec.toNat = x.toUInt64.toNat := rfl
    simp only [hint, BitVec.toInt_eq_toNat_bmod, hnat] at hmod
    rw [show ((2 : Int) ^ 64) = ((2 ^ 64 : Nat) : Int) by norm_num, Int.bmod_emod,
      Int.bmod_emod] at hmod
    omega
  apply UInt32.toNat_inj.mp
  rw [upperHalf, UInt64.toNat_toUInt32, UInt64.toNat_shiftRight, hword, toNat_ofInt,
    show (32 : UInt64).toNat % 64 = 32 from rfl, Nat.shiftRight_eq_div_pow]
  omega

/-! ## Register operations -/

/-- The value of an integer operation, before it is cut to a word. Shift amounts count modulo
the width of a word; the arithmetic shift rounds down. -/
def AluOp.value (op : AluOp) (a b : UInt32) : Int :=
  match op with
  | .add => signed a + signed b
  | .sub => signed a - signed b
  | .sll => a.toNat * 2 ^ (b.toNat % 32)
  | .slt => if signed a < signed b then 1 else 0
  | .sltu => if a.toNat < b.toNat then 1 else 0
  | .xor => (a.toNat ^^^ b.toNat : Nat)
  | .srl => (a.toNat / 2 ^ (b.toNat % 32) : Nat)
  | .sra => signed a / 2 ^ (b.toNat % 32)
  | .or => (a.toNat ||| b.toNat : Nat)
  | .and => (a.toNat &&& b.toNat : Nat)

theorem flag_eq_ofInt {b : Bool} {p : Prop} [Decidable p] (h : b = true ↔ p) :
    flag b = UInt32.ofInt (if p then 1 else 0) := by
  by_cases hp : p
  · rw [if_pos hp, h.mpr hp]
    rfl
  · rw [if_neg hp, Bool.eq_false_iff.mpr (mt h.mp hp)]
    rfl

theorem signedLess_iff {a b : UInt32} : signedLess a b = true ↔ signed a < signed b := by
  simp [signedLess, signed, Int32.lt_iff_toInt_lt]

/-- Words with the same number are equal. -/
theorem eq_ofInt_of_toNat {w : UInt32} {n : Nat} (h : w.toNat = n) : w = UInt32.ofInt n := by
  rw [← h, ofInt_toNat]

theorem AluOp.apply_eq (op : AluOp) (a b : UInt32) :
    op.apply a b = UInt32.ofInt (op.value a b) := by
  have hamount : (b &&& 0x1F).toNat < 32 := by
    rw [toNat_and_31]
    exact Nat.mod_lt _ (by decide)
  cases op with
  | add => simp only [apply, value, UInt32.ofInt_add, ofInt_signed]
  | sub =>
      simp only [apply, value, sub_eq_add_neg, UInt32.ofInt_add, UInt32.ofInt_neg, ofInt_signed]
  | sll =>
      apply UInt32.toNat_inj.mp
      simp only [apply, value]
      rw [UInt32.toNat_shiftLeft, Nat.mod_eq_of_lt hamount, toNat_and_31, Nat.shiftLeft_eq,
        toNat_ofInt]
      norm_cast
  | slt => exact flag_eq_ofInt signedLess_iff
  | sltu =>
      apply flag_eq_ofInt
      rw [decide_eq_true_iff, UInt32.lt_iff_toNat_lt]
  | xor => exact eq_ofInt_of_toNat (UInt32.toNat_xor a b)
  | srl =>
      apply eq_ofInt_of_toNat
      rw [apply, UInt32.toNat_shiftRight, Nat.mod_eq_of_lt hamount, toNat_and_31,
        Nat.shiftRight_eq_div_pow]
  | sra =>
      rw [apply, shiftRightSigned_eq a hamount, toNat_and_31]
      rfl
  | or => exact eq_ofInt_of_toNat (UInt32.toNat_or a b)
  | and => exact eq_ofInt_of_toNat (UInt32.toNat_and a b)

/-- The value of a multiplication or division, before it is cut to a word. Quotients round
towards zero, and the remainder has the sign of the dividend. Division by zero and the
overflowing division have results of their own. -/
def MulDivOp.value (op : MulDivOp) (a b : UInt32) : Int :=
  match op with
  | .mul => signed a * signed b
  | .mulh => signed a * signed b / 2 ^ 32
  | .mulhsu => signed a * b.toNat / 2 ^ 32
  | .mulhu => (a.toNat * b.toNat / 2 ^ 32 : Nat)
  | .div =>
    if signed b = 0 then -1
    else if signed a = -2 ^ 31 ∧ signed b = -1 then -2 ^ 31
    else (signed a).tdiv (signed b)
  | .divu => if b.toNat = 0 then 2 ^ 32 - 1 else (a.toNat / b.toNat : Nat)
  | .rem =>
    if signed b = 0 then signed a
    else if signed a = -2 ^ 31 ∧ signed b = -1 then 0
    else (signed a).tmod (signed b)
  | .remu => if b.toNat = 0 then a.toNat else (a.toNat % b.toNat : Nat)

theorem MulDivOp.apply_eq (op : MulDivOp) (a b : UInt32) :
    op.apply a b = UInt32.ofInt (op.value a b) := by
  have hzero : b = 0 ↔ b.toNat = 0 := UInt32.toNat_inj.symm
  cases op with
  | mul => simp only [apply, value, UInt32.ofInt_mul, ofInt_signed]
  | mulh =>
      apply upperHalf_eq
      rw [Int64.toInt_mul]
      simp only [signedWide, Int32.toInt_toInt64, signed]
  | mulhsu =>
      apply upperHalf_eq
      rw [Int64.toInt_mul, toInt_toInt64_toUInt64]
      simp only [signedWide, Int32.toInt_toInt64, signed]
  | mulhu =>
      apply UInt32.toNat_inj.mp
      simp only [apply, value]
      rw [UInt64.toNat_toUInt32, UInt64.toNat_shiftRight, UInt64.toNat_mul, UInt32.toNat_toUInt64,
        UInt32.toNat_toUInt64, show (32 : UInt64).toNat % 64 = 32 from rfl,
        Nat.shiftRight_eq_div_pow, toNat_ofInt]
      -- that this is a product does not matter any more
      generalize a.toNat * b.toNat = product
      omega
  | div =>
      simp only [apply, value, signed_zero_iff]
      -- division by zero has a quotient of its own, and so has -2^31 by -1
      split
      · rfl
      rw [toUInt32_eq_ofInt, Int32.toInt_div, ofInt_bmod]
      change UInt32.ofInt ((signed a).tdiv (signed b)) = _
      split
      · next hover => rw [hover.1, hover.2]; rfl
      · rfl
  | divu =>
      simp only [apply, value, hzero]
      split
      · rfl
      · exact eq_ofInt_of_toNat (UInt32.toNat_div a b)
  | rem =>
      simp only [apply, value, signed_zero_iff]
      split
      · exact (ofInt_signed a).symm
      rw [toUInt32_eq_ofInt, Int32.toInt_mod]
      change UInt32.ofInt ((signed a).tmod (signed b)) = _
      split
      · next hover => rw [hover.1, hover.2]; rfl
      · rfl
  | remu =>
      simp only [apply, value, hzero]
      split
      · exact (ofInt_toNat a).symm
      · exact eq_ofInt_of_toNat (UInt32.toNat_mod a b)

/-! ## Comparisons -/

def BranchTest.Means (test : BranchTest) (a b : UInt32) : Prop :=
  match test with
  | .eq => a = b
  | .ne => a ≠ b
  | .lt => signed a < signed b
  | .ge => signed b ≤ signed a
  | .ltu => a.toNat < b.toNat
  | .geu => b.toNat ≤ a.toNat

theorem BranchTest.holds_iff (test : BranchTest) (a b : UInt32) :
    test.holds a b = true ↔ test.Means a b := by
  cases test with
  | eq => exact beq_iff_eq
  | ne => exact bne_iff_ne
  | lt => exact signedLess_iff
  | ge =>
      rw [holds, Bool.not_eq_true', Bool.eq_false_iff, Ne, signedLess_iff, not_lt]
      rfl
  | ltu =>
      rw [holds, decide_eq_true_iff, UInt32.lt_iff_toNat_lt]
      rfl
  | geu =>
      rw [holds, Bool.not_eq_true', decide_eq_false_iff_not, UInt32.lt_iff_toNat_lt, not_lt]
      rfl

instance (test : BranchTest) (a b : UInt32) : Decidable (test.Means a b) :=
  decidable_of_iff _ (test.holds_iff a b)

end RiscvMachine.Isa
