import RiscvMachine.Proofs.Alignment
import RiscvMachine.Proofs.Isa.Values

set_option autoImplicit false

/-! # Encoding

The integer instructions as an assembler takes them (`Assembly`), with immediates of exactly the
size that fits, and their words (`Assembly.encode`). Decoding gives back the instruction with each
immediate as the integer it stands for (`decode_encode`).

A word is cut into its upper twenty bits, a five-bit field and the opcode (`word`); the formats
differ in what they put there. All of them give up their fields by arithmetic on the number of
the word.
-/

namespace RiscvMachine.Isa

/-! ## Instructions in assembly -/

/-- The operations that take an immediate of twelve bits. -/
inductive ImmediateOp
  | add
  | slt
  | sltu
  | xor
  | or
  | and
  deriving DecidableEq, Repr

def ImmediateOp.toAlu : ImmediateOp → AluOp
  | .add => .add
  | .slt => .slt
  | .sltu => .sltu
  | .xor => .xor
  | .or => .or
  | .and => .and

inductive ShiftOp
  | sll
  | srl
  | sra
  deriving DecidableEq, Repr

def ShiftOp.toAlu : ShiftOp → AluOp
  | .sll => .sll
  | .srl => .srl
  | .sra => .sra

/-- The instructions that compute or transfer control. The offsets of branches and of `jal`
count units of two bytes. -/
inductive Assembly
  | lui (rd : RegIndex) (upper : BitVec 20)
  | auipc (rd : RegIndex) (upper : BitVec 20)
  | jal (rd : RegIndex) (halves : BitVec 20)
  | jalr (rd rs1 : RegIndex) (offset : BitVec 12)
  | branch (test : BranchTest) (rs1 rs2 : RegIndex) (halves : BitVec 12)
  | immediate (op : ImmediateOp) (rd rs1 : RegIndex) (value : BitVec 12)
  | shift (op : ShiftOp) (rd rs1 : RegIndex) (amount : BitVec 5)
  | register (op : AluOp) (rd rs1 rs2 : RegIndex)
  | mulDiv (op : MulDivOp) (rd rs1 rs2 : RegIndex)
  deriving DecidableEq, Repr

/-! ## Selectors -/

def AluOp.funct3 : AluOp → BitVec 3
  | .add | .sub => 0
  | .sll => 1
  | .slt => 2
  | .sltu => 3
  | .xor => 4
  | .srl | .sra => 5
  | .or => 6
  | .and => 7

def AluOp.funct7 : AluOp → BitVec 7
  | .sub | .sra => 0x20
  | _ => 0

def MulDivOp.funct3 : MulDivOp → BitVec 3
  | .mul => 0
  | .mulh => 1
  | .mulhsu => 2
  | .mulhu => 3
  | .div => 4
  | .divu => 5
  | .rem => 6
  | .remu => 7

def BranchTest.funct3 : BranchTest → BitVec 3
  | .eq => 0
  | .ne => 1
  | .lt => 4
  | .ge => 5
  | .ltu => 6
  | .geu => 7

/-! ## Formats -/

def field (r : RegIndex) : BitVec 5 := BitVec.ofFin r

/-- What all formats have in common. -/
def word (upper : BitVec 20) (dest : BitVec 5) (opcode : BitVec 7) : UInt32 :=
  ⟨upper ++ dest ++ opcode⟩

def registerFormat (funct7 : BitVec 7) (second first : BitVec 5) (funct3 : BitVec 3)
    (rd : RegIndex) (opcode : BitVec 7) : UInt32 :=
  word (funct7 ++ second ++ first ++ funct3) (field rd) opcode

/-- The word of an instruction with an immediate of twelve bits. -/
def immediateFormat (value : BitVec 12) (rs1 : RegIndex) (funct3 : BitVec 3) (rd : RegIndex)
    (opcode : BitVec 7) : UInt32 :=
  word (value ++ field rs1 ++ funct3) (field rd) opcode

/-- The word of a branch. The bits of the offset stand where those of other immediates do, but
for bit 11, which stands in place of the lowest. -/
def branchFormat (offset : BitVec 13) (rs2 rs1 : RegIndex) (funct3 : BitVec 3)
    (opcode : BitVec 7) : UInt32 :=
  word (offset.extractLsb 12 12 ++ offset.extractLsb 10 5 ++ field rs2 ++ field rs1 ++ funct3)
    (offset.extractLsb 4 1 ++ offset.extractLsb 11 11) opcode

def jumpFormat (offset : BitVec 21) (rd : RegIndex) (opcode : BitVec 7) : UInt32 :=
  word (offset.extractLsb 20 20 ++ offset.extractLsb 10 1 ++ offset.extractLsb 11 11 ++
    offset.extractLsb 19 12) (field rd) opcode

namespace Assembly

/-- The standard encoding. The offset of a branch or a jump has its lowest bit clear, which is
not encoded. -/
def encode : Assembly → UInt32
  | lui rd upper => word upper (field rd) 0b0110111
  | auipc rd upper => word upper (field rd) 0b0010111
  | jal rd halves => jumpFormat (halves ++ 0#1) rd 0b1101111
  | jalr rd rs1 offset => immediateFormat offset rs1 0 rd 0b1100111
  | branch test rs1 rs2 halves => branchFormat (halves ++ 0#1) rs2 rs1 test.funct3 0b1100011
  | immediate op rd rs1 value => immediateFormat value rs1 op.toAlu.funct3 rd 0b0010011
  | shift op rd rs1 amount =>
    registerFormat op.toAlu.funct7 amount (field rs1) op.toAlu.funct3 rd 0b0010011
  | register op rd rs1 rs2 =>
    registerFormat op.funct7 (field rs2) (field rs1) op.funct3 rd 0b0110011
  | mulDiv op rd rs1 rs2 =>
    registerFormat 0b0000001 (field rs2) (field rs1) op.funct3 rd 0b0110011

/-- `bne x5, x6` eight bytes back. -/
example : (branch .ne 5 6 (-4)).encode = 0xFE629CE3 := by decide

/-- The instruction as it is executed. Immediates are signed; those of `lui` and `auipc` count
units of 4096. A constant shift keeps its upper selector in the immediate. -/
def instruction : Assembly → Instruction
  | lui rd upper => .lui rd (UInt32.ofInt (upper.toInt * 2 ^ 12))
  | auipc rd upper => .auipc rd (UInt32.ofInt (upper.toInt * 2 ^ 12))
  | jal rd halves => .jal rd (UInt32.ofInt (halves.toInt * 2))
  | jalr rd rs1 offset => .jalr rd rs1 (UInt32.ofInt offset.toInt)
  | branch test rs1 rs2 halves => .branch test rs1 rs2 (UInt32.ofInt (halves.toInt * 2))
  | immediate op rd rs1 value => .aluImm op.toAlu rd rs1 (UInt32.ofInt value.toInt)
  | shift op rd rs1 amount =>
    .aluImm op.toAlu rd rs1 (UInt32.ofInt (op.toAlu.funct7 ++ amount).toInt)
  | register op rd rs1 rs2 => .alu op rd rs1 rs2
  | mulDiv op rd rs1 rs2 => .mulDiv op rd rs1 rs2

end Assembly

/-! ## Fields of a word, by arithmetic -/

/-- Appending puts the second part into the low places. -/
theorem toNat_append {m n : Nat} (x : BitVec m) (y : BitVec n) :
    (x ++ y).toNat = x.toNat * 2 ^ n + y.toNat := by
  rw [BitVec.toNat_append, ← Nat.shiftLeft_add_eq_or_of_lt y.isLt, Nat.shiftLeft_eq]

theorem toNat_word (upper : BitVec 20) (dest : BitVec 5) (opcode : BitVec 7) :
    (word upper dest opcode).toNat =
      upper.toNat * 2 ^ 12 + dest.toNat * 2 ^ 7 + opcode.toNat := by
  change (upper ++ dest ++ opcode).toNat = _
  rw [toNat_append, toNat_append]
  omega

theorem toNat_shiftRight {w n : UInt32} (hn : n.toNat < 32) :
    (w >>> n).toNat = w.toNat / 2 ^ n.toNat := by
  rw [UInt32.toNat_shiftRight, Nat.mod_eq_of_lt hn, Nat.shiftRight_eq_div_pow]

/-- Masking with ones in the low places takes the remainder. -/
theorem toNat_and_ones {mask : UInt32} {k : Nat} (hmask : mask.toNat = 2 ^ k - 1) (w : UInt32) :
    (w &&& mask).toNat = w.toNat % 2 ^ k := by
  rw [UInt32.toNat_and, hmask, Nat.and_two_pow_sub_one_eq_mod]

theorem toNat_bits {low width : UInt32} {k : Nat} (hlow : low.toNat < 32)
    (hmask : (((1 : UInt32) <<< width) - 1).toNat = 2 ^ k - 1) (w : UInt32) :
    (bits w low width).toNat = w.toNat / 2 ^ low.toNat % 2 ^ k := by
  rw [bits, toNat_and_ones hmask, toNat_shiftRight hlow]

theorem val_registerField {low : UInt32} (hlow : low.toNat < 32) (w : UInt32) :
    (registerField w low).val = w.toNat / 2 ^ low.toNat % 32 := by
  change (w >>> low).toNat % 32 = _
  rw [toNat_shiftRight hlow]

@[simp] theorem toNat_field (r : RegIndex) : (field r).toNat = r.val := rfl

section

variable (d : BitVec 5) (o : BitVec 7)

theorem opcode_word (u : BitVec 20) : word u d o &&& 0x7F = UInt32.ofNat o.toNat := by
  apply UInt32.toNat_inj.mp
  rw [toNat_and_ones (k := 7) rfl, toNat_word, UInt32.toNat_ofNat']
  omega

theorem rd_word (u : BitVec 20) (r : RegIndex) : rd (word u (field r) o) = r := by
  apply Fin.ext
  rw [rd, val_registerField (by decide), toNat_word, show (7 : UInt32).toNat = 7 from rfl]
  rw [toNat_field]
  omega

theorem funct3_word (u : BitVec 17) (f : BitVec 3) :
    funct3 (word (u ++ f) d o) = UInt32.ofNat f.toNat := by
  apply UInt32.toNat_inj.mp
  rw [funct3, toNat_bits (k := 3) (by decide) (by decide), toNat_word, toNat_append,
    UInt32.toNat_ofNat', show (12 : UInt32).toNat = 12 from rfl]
  omega

theorem rs1_word (u : BitVec 12) (r : RegIndex) (f : BitVec 3) :
    rs1 (word (u ++ field r ++ f) d o) = r := by
  apply Fin.ext
  rw [rs1, val_registerField (by decide), toNat_word, toNat_append, toNat_append, toNat_field,
    show (15 : UInt32).toNat = 15 from rfl]
  omega

theorem rs2_word (u : BitVec 7) (r : RegIndex) (x : BitVec 5) (f : BitVec 3) :
    rs2 (word (u ++ field r ++ x ++ f) d o) = r := by
  apply Fin.ext
  rw [rs2, val_registerField (by decide), toNat_word, toNat_append, toNat_append, toNat_append,
    toNat_field, show (20 : UInt32).toNat = 20 from rfl]
  omega

theorem funct7_word (u : BitVec 7) (y x : BitVec 5) (f : BitVec 3) :
    funct7 (word (u ++ y ++ x ++ f) d o) = UInt32.ofNat u.toNat := by
  apply UInt32.toNat_inj.mp
  rw [funct7, toNat_shiftRight (by decide), toNat_word, toNat_append, toNat_append, toNat_append,
    UInt32.toNat_ofNat', show (25 : UInt32).toNat = 25 from rfl]
  omega

/-! ### Immediates -/

/-- Or-ing a number below `2 ^ k` to a multiple of `2 ^ k` adds it. -/
theorem toNat_or_of_dvd {a b : UInt32} (k : Nat) (ha : 2 ^ k ∣ a.toNat) (hb : b.toNat < 2 ^ k) :
    (a ||| b).toNat = a.toNat + b.toNat := by
  obtain ⟨n, hn⟩ := ha
  rw [UInt32.toNat_or, hn, Nat.two_pow_add_eq_or_of_lt hb]

/-- A field of the word, moved to another place. -/
theorem toNat_bits_shiftLeft {low width n : UInt32} {k : Nat} (hlow : low.toNat < 32)
    (hmask : (((1 : UInt32) <<< width) - 1).toNat = 2 ^ k - 1) (hn : n.toNat < 32)
    (hfits : k + n.toNat ≤ 32) (w : UInt32) :
    (bits w low width <<< n).toNat = w.toNat / 2 ^ low.toNat % 2 ^ k * 2 ^ n.toNat := by
  rw [UInt32.toNat_shiftLeft, Nat.mod_eq_of_lt hn, Nat.shiftLeft_eq, toNat_bits hlow hmask]
  apply Nat.mod_eq_of_lt
  calc w.toNat / 2 ^ low.toNat % 2 ^ k * 2 ^ n.toNat
      < 2 ^ k * 2 ^ n.toNat :=
        Nat.mul_lt_mul_of_pos_right (Nat.mod_lt _ (Nat.two_pow_pos k)) (Nat.two_pow_pos _)
    _ ≤ 2 ^ 32 := by
        rw [← pow_add]
        exact Nat.pow_le_pow_right (by decide) hfits

/-- The sign bit in its place. -/
theorem signed_and_sign (w : UInt32) :
    signed (w &&& 0x80000000) = if w.toNat < 2 ^ 31 then 0 else -2 ^ 31 := by
  have hlt := w.toNat_lt
  rw [signed_eq, toNat_and_mask (k := 31) (by decide) (by decide) w]
  split <;> split <;> omega

theorem toInt_cases {n : Nat} (x : BitVec n) :
    x.toInt = if 2 * x.toNat < 2 ^ n then (x.toNat : Int) else x.toNat - (2 ^ n : Nat) :=
  BitVec.toInt_eq_toNat_cond x

theorem immI_word (value : BitVec 12) (x : BitVec 5) (f : BitVec 3) :
    immI (word (value ++ x ++ f) d o) = UInt32.ofInt value.toInt := by
  rw [immI, shiftRightSigned_eq _ (by decide), signed_eq, toNat_word, toNat_append, toNat_append,
    toInt_cases, show (20 : UInt32).toNat = 20 from rfl]
  congr 1
  split <;> split <;> omega

theorem immU_word (upper : BitVec 20) :
    immU (word upper d o) = UInt32.ofInt (upper.toInt * 2 ^ 12) := by
  apply UInt32.toNat_inj.mp
  rw [immU, toNat_and_mask (k := 12) (by decide) (by decide), toNat_word, toNat_ofInt,
    toInt_cases]
  split <;> omega

theorem toNat_extractLsb {n : Nat} (x : BitVec n) (high low : Nat) :
    (x.extractLsb high low).toNat = x.toNat / 2 ^ low % 2 ^ (high - low + 1) := by
  rw [BitVec.extractLsb_toNat, Nat.shiftRight_eq_div_pow]

/-- The immediate of a branch, from the places of its bits. -/
theorem toNat_immB (w : UInt32) :
    (immB w).toNat = (if w.toNat < 2 ^ 31 then 0 else 2 ^ 32 - 2 ^ 12) +
      w.toNat / 2 ^ 7 % 2 ^ 1 * 2 ^ 11 + w.toNat / 2 ^ 25 % 2 ^ 6 * 2 ^ 5 +
      w.toNat / 2 ^ 8 % 2 ^ 4 * 2 ^ 1 := by
  have hsign : (shiftRightSigned (w &&& 0x80000000) 19).toNat =
      if w.toNat < 2 ^ 31 then 0 else 2 ^ 32 - 2 ^ 12 := by
    rw [shiftRightSigned_eq _ (by decide), toNat_ofInt, signed_and_sign]
    split <;> rfl
  have h11 : (bits w 7 1 <<< 11).toNat = w.toNat / 2 ^ 7 % 2 ^ 1 * 2 ^ 11 :=
    toNat_bits_shiftLeft (by decide) (by decide) (by decide) (by decide) w
  have h5 : (bits w 25 6 <<< 5).toNat = w.toNat / 2 ^ 25 % 2 ^ 6 * 2 ^ 5 :=
    toNat_bits_shiftLeft (by decide) (by decide) (by decide) (by decide) w
  have h1 : (bits w 8 4 <<< 1).toNat = w.toNat / 2 ^ 8 % 2 ^ 4 * 2 ^ 1 :=
    toNat_bits_shiftLeft (by decide) (by decide) (by decide) (by decide) w
  -- each part lies below the places of those before it
  have hfirst := toNat_or_of_dvd 12 (a := shiftRightSigned (w &&& 0x80000000) 19)
    (b := bits w 7 1 <<< 11) (by rw [hsign]; split <;> decide) (by rw [h11]; omega)
  have hsecond := toNat_or_of_dvd 11 (b := bits w 25 6 <<< 5)
    (by rw [hfirst, hsign, h11]; split <;> omega) (by rw [h5]; omega)
  rw [immB, toNat_or_of_dvd 5 (b := bits w 8 4 <<< 1)
    (by rw [hsecond, hfirst, hsign, h11, h5]; split <;> omega) (by rw [h1]; omega),
    hsecond, hfirst, hsign, h11, h5, h1]

/-- The immediate of a jump, from the places of its bits. -/
theorem toNat_immJ (w : UInt32) :
    (immJ w).toNat = (if w.toNat < 2 ^ 31 then 0 else 2 ^ 32 - 2 ^ 20) +
      w.toNat / 2 ^ 12 % 2 ^ 8 * 2 ^ 12 + w.toNat / 2 ^ 20 % 2 ^ 1 * 2 ^ 11 +
      w.toNat / 2 ^ 21 % 2 ^ 10 * 2 ^ 1 := by
  have hsign : (shiftRightSigned (w &&& 0x80000000) 11).toNat =
      if w.toNat < 2 ^ 31 then 0 else 2 ^ 32 - 2 ^ 20 := by
    rw [shiftRightSigned_eq _ (by decide), toNat_ofInt, signed_and_sign]
    split <;> rfl
  have h12 : (w &&& (0xFF000 : UInt32)).toNat = w.toNat / 2 ^ 12 % 2 ^ 8 * 2 ^ 12 := by
    rw [show (0xFF000 : UInt32) = 0xFFFFF000 &&& 0xFFFFF from rfl, ← UInt32.and_assoc,
      toNat_and_ones (k := 20) rfl, toNat_and_mask (k := 12) (by decide) (by decide)]
    omega
  have h11 : (bits w 20 1 <<< 11).toNat = w.toNat / 2 ^ 20 % 2 ^ 1 * 2 ^ 11 :=
    toNat_bits_shiftLeft (by decide) (by decide) (by decide) (by decide) w
  have h1 : (bits w 21 10 <<< 1).toNat = w.toNat / 2 ^ 21 % 2 ^ 10 * 2 ^ 1 :=
    toNat_bits_shiftLeft (by decide) (by decide) (by decide) (by decide) w
  -- the parts do not come in the order of their places: the sign and the upper byte go first
  have hfirst := toNat_or_of_dvd 20 (a := shiftRightSigned (w &&& 0x80000000) 11)
    (b := w &&& (0xFF000 : UInt32)) (by rw [hsign]; split <;> decide) (by rw [h12]; omega)
  have hsecond := toNat_or_of_dvd 12 (b := bits w 20 1 <<< 11)
    (by rw [hfirst, hsign, h12]; split <;> omega) (by rw [h11]; omega)
  rw [immJ, toNat_or_of_dvd 11 (b := bits w 21 10 <<< 1)
    (by rw [hsecond, hfirst, hsign, h12, h11]; split <;> omega) (by rw [h1]; omega),
    hsecond, hfirst, hsign, h12, h11, h1]

/-- The immediate of a branch, from the parts of the word that hold it. -/
theorem toNat_immB_word (sign : BitVec 1) (high : BitVec 6) (y x : BitVec 5) (f : BitVec 3)
    (low : BitVec 4) (second : BitVec 1) :
    (immB (word (sign ++ high ++ y ++ x ++ f) (low ++ second) o)).toNat =
      (if sign.toNat = 0 then 0 else 2 ^ 32 - 2 ^ 12) + second.toNat * 2 ^ 11 +
        high.toNat * 2 ^ 5 + low.toNat * 2 := by
  have hword : (word (sign ++ high ++ y ++ x ++ f) (low ++ second) o).toNat =
      sign.toNat * 2 ^ 31 + high.toNat * 2 ^ 25 + y.toNat * 2 ^ 20 + x.toNat * 2 ^ 15 +
        f.toNat * 2 ^ 12 + low.toNat * 2 ^ 8 + second.toNat * 2 ^ 7 + o.toNat := by
    simp only [toNat_word, toNat_append]
    omega
  rw [toNat_immB, hword]
  split <;> split <;> omega

/-- The immediate of a jump, from the parts of the word that hold it. -/
theorem toNat_immJ_word (sign : BitVec 1) (low : BitVec 10) (second : BitVec 1)
    (high : BitVec 8) :
    (immJ (word (sign ++ low ++ second ++ high) d o)).toNat =
      (if sign.toNat = 0 then 0 else 2 ^ 32 - 2 ^ 20) + high.toNat * 2 ^ 12 +
        second.toNat * 2 ^ 11 + low.toNat * 2 := by
  have hword : (word (sign ++ low ++ second ++ high) d o).toNat =
      sign.toNat * 2 ^ 31 + low.toNat * 2 ^ 21 + second.toNat * 2 ^ 20 + high.toNat * 2 ^ 12 +
        d.toNat * 2 ^ 7 + o.toNat := by
    simp only [toNat_word, toNat_append]
    omega
  rw [toNat_immJ, hword]
  split <;> split <;> omega

end

theorem immB_branchFormat (halves : BitVec 12) (rs2 rs1 : RegIndex) (f : BitVec 3)
    (o : BitVec 7) :
    immB (branchFormat (halves ++ 0#1) rs2 rs1 f o) = UInt32.ofInt (halves.toInt * 2) := by
  apply UInt32.toNat_inj.mp
  have hoffset : (halves ++ 0#1).toNat = halves.toNat * 2 := toNat_append halves 0#1
  rw [branchFormat, toNat_immB_word, toNat_ofInt, toInt_cases]
  simp only [toNat_extractLsb, hoffset]
  split <;> split <;> omega

theorem immJ_jumpFormat (halves : BitVec 20) (rd : RegIndex) (o : BitVec 7) :
    immJ (jumpFormat (halves ++ 0#1) rd o) = UInt32.ofInt (halves.toInt * 2) := by
  apply UInt32.toNat_inj.mp
  have hoffset : (halves ++ 0#1).toNat = halves.toNat * 2 := toNat_append halves 0#1
  rw [jumpFormat, toNat_immJ_word, toNat_ofInt, toInt_cases]
  simp only [toNat_extractLsb, hoffset]
  split <;> split <;> omega

/-! ## Decoding -/

theorem BranchTest.ofFunct3?_funct3 (test : BranchTest) :
    ofFunct3? (UInt32.ofNat test.funct3.toNat) = some test := by
  cases test <;> rfl

theorem AluOp.ofImmediateForm?_immediate (op : ImmediateOp) (funct7 : UInt32) :
    ofImmediateForm? (UInt32.ofNat op.toAlu.funct3.toNat) funct7 = some op.toAlu := by
  cases op <;> rfl

theorem AluOp.ofImmediateForm?_shift (op : ShiftOp) :
    ofImmediateForm? (UInt32.ofNat op.toAlu.funct3.toNat) (UInt32.ofNat op.toAlu.funct7.toNat) =
      some op.toAlu := by
  cases op <;> rfl

theorem AluOp.ofRegisterForm?_funct (op : AluOp) :
    UInt32.ofNat op.funct7.toNat ≠ 1 ∧
      ofRegisterForm? (UInt32.ofNat op.funct3.toNat) (UInt32.ofNat op.funct7.toNat) = some op := by
  cases op <;> exact ⟨by decide, rfl⟩

theorem MulDivOp.ofFunct3_funct3 (op : MulDivOp) :
    ofFunct3 (UInt32.ofNat op.funct3.toNat) = op := by
  cases op <;> rfl

/-- Decoding undoes encoding: every operand comes back, and every immediate as the integer that it
stands for. -/
theorem decode_encode (i : Assembly) : decode i.encode = some i.instruction := by
  -- once the opcode is known, `change` names the fields that decoding reads
  cases i with
  | lui dest upper =>
      rw [Assembly.encode, Assembly.instruction, decode, opcode_word]
      change some (Instruction.lui (rd _) (immU _)) = _
      rw [rd_word, immU_word]
  | auipc dest upper =>
      rw [Assembly.encode, Assembly.instruction, decode, opcode_word]
      change some (Instruction.auipc (rd _) (immU _)) = _
      rw [rd_word, immU_word]
  | jal dest halves =>
      rw [Assembly.encode, Assembly.instruction, ← immJ_jumpFormat halves dest 0b1101111,
        jumpFormat, decode, opcode_word]
      change some (Instruction.jal (rd _) (immJ _)) = _
      rw [rd_word]
  | jalr dest first offset =>
      rw [Assembly.encode, Assembly.instruction, immediateFormat, decode, opcode_word]
      change some (Instruction.jalr (rd _) (rs1 _) (immI _)) = _
      rw [rd_word, rs1_word, immI_word]
  | branch test first second halves =>
      rw [Assembly.encode, Assembly.instruction,
        ← immB_branchFormat halves second first test.funct3 0b1100011, branchFormat, decode,
        opcode_word]
      change (BranchTest.ofFunct3? (funct3 _)).map _ = _
      rw [funct3_word, BranchTest.ofFunct3?_funct3, rs1_word, rs2_word]
      rfl
  | immediate op dest first value =>
      rw [Assembly.encode, Assembly.instruction, immediateFormat, decode, opcode_word]
      change (AluOp.ofImmediateForm? (funct3 _) (funct7 _)).map _ = _
      rw [funct3_word, AluOp.ofImmediateForm?_immediate, rd_word, rs1_word, immI_word]
      rfl
  | shift op dest first amount =>
      rw [Assembly.encode, Assembly.instruction, registerFormat, decode, opcode_word]
      change (AluOp.ofImmediateForm? (funct3 _) (funct7 _)).map _ = _
      rw [funct3_word, funct7_word, AluOp.ofImmediateForm?_shift, rd_word, rs1_word, immI_word]
      rfl
  | register op dest first second =>
      obtain ⟨hfunct7, hform⟩ := AluOp.ofRegisterForm?_funct op
      rw [Assembly.encode, Assembly.instruction, registerFormat, decode, opcode_word]
      change (if funct7 _ = 1 then _ else _) = _
      rw [funct7_word, if_neg hfunct7, funct3_word, hform, rd_word, rs1_word, rs2_word]
      rfl
  | mulDiv op dest first second =>
      rw [Assembly.encode, Assembly.instruction, registerFormat, decode, opcode_word]
      change (if funct7 _ = 1 then _ else _) = _
      rw [funct7_word, if_pos (by rfl), funct3_word,
        MulDivOp.ofFunct3_funct3, rd_word, rs1_word, rs2_word]

end RiscvMachine.Isa
