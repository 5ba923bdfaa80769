import RiscvMachine.Proofs.Isa.Encoding

set_option autoImplicit false

/-! # Loads, stores and atomic operations

The instructions that access memory as an assembler takes them (`MemoryAssembly`), their words
(`MemoryAssembly.encode`), and what they mean: the number that a load makes of the bytes it finds
(`LoadKind.value`), and the number that an atomic operation leaves behind (`AmoOp.value`), over the
integers. Decoding gives back the instruction (`decode_memory_encode`), and the operations on words
compute these numbers (`LoadKind.extend_eq`, `AmoOp.apply_eq`).
-/

namespace RiscvMachine.Isa

/-! ## Instructions in assembly -/

/-- The instructions that access memory. Atomic ones carry their two ordering bits, which make no
difference here. -/
inductive MemoryAssembly
  | load (kind : LoadKind) (rd rs1 : RegIndex) (offset : BitVec 12)
  | store (width : Width) (rs1 rs2 : RegIndex) (offset : BitVec 12)
  | loadReserved (rd rs1 : RegIndex) (ordering : BitVec 2)
  | storeConditional (rd rs1 rs2 : RegIndex) (ordering : BitVec 2)
  | amo (op : AmoOp) (rd rs1 rs2 : RegIndex) (ordering : BitVec 2)
  deriving DecidableEq, Repr

/-! ## Selectors -/

def LoadKind.funct3 : LoadKind → BitVec 3
  | .byte => 0
  | .half => 1
  | .word => 2
  | .byteUnsigned => 4
  | .halfUnsigned => 5

def storeFunct3 : Width → BitVec 3
  | .byte => 0
  | .half => 1
  | .word => 2

def AmoOp.funct5 : AmoOp → BitVec 5
  | .add => 0b00000
  | .swap => 0b00001
  | .xor => 0b00100
  | .or => 0b01000
  | .and => 0b01100
  | .min => 0b10000
  | .max => 0b10100
  | .minu => 0b11000
  | .maxu => 0b11100

/-! ## Formats -/

/-- The word of a store. The upper part of the offset stands where other formats have their upper
selector, and the lower part in place of a destination. -/
def storeFormat (offset : BitVec 12) (rs2 rs1 : RegIndex) (funct3 : BitVec 3)
    (opcode : BitVec 7) : UInt32 :=
  word (offset.extractLsb 11 5 ++ field rs2 ++ field rs1 ++ funct3) (offset.extractLsb 4 0) opcode

/-- The word of an atomic operation, all of which act on words. -/
def atomicFormat (funct5 : BitVec 5) (ordering : BitVec 2) (rs2 rs1 rd : RegIndex) : UInt32 :=
  registerFormat (funct5 ++ ordering) (field rs2) (field rs1) 2 rd 0b0101111

namespace MemoryAssembly

def encode : MemoryAssembly → UInt32
  | load kind rd rs1 offset => immediateFormat offset rs1 kind.funct3 rd 0b0000011
  | store width rs1 rs2 offset => storeFormat offset rs2 rs1 (storeFunct3 width) 0b0100011
  | loadReserved rd rs1 ordering => atomicFormat 0b00010 ordering (0 : BitVec 5).toFin rs1 rd
  | storeConditional rd rs1 rs2 ordering => atomicFormat 0b00011 ordering rs2 rs1 rd
  | amo op rd rs1 rs2 ordering => atomicFormat op.funct5 ordering rs2 rs1 rd

/-- `sh x6, -2(x5)`. -/
example : (store .half 5 6 (-2)).encode = 0xFE629F23 := by decide

def instruction : MemoryAssembly → Instruction
  | load kind rd rs1 offset => .load (some kind) rd rs1 (UInt32.ofInt offset.toInt)
  | store width rs1 rs2 offset => .store (some width) rs1 rs2 (UInt32.ofInt offset.toInt)
  | loadReserved rd rs1 _ => .loadReserved rd rs1
  | storeConditional rd rs1 rs2 _ => .storeConditional rd rs1 rs2
  | amo op rd rs1 rs2 _ => .amo (some op) rd rs1 rs2

def base : MemoryAssembly → RegIndex
  | load _ _ rs1 _ => rs1
  | store _ rs1 _ _ => rs1
  | loadReserved _ rs1 _ => rs1
  | storeConditional _ rs1 _ _ => rs1
  | amo _ _ rs1 _ _ => rs1

def offset : MemoryAssembly → Int
  | load _ _ _ offset => offset.toInt
  | store _ _ _ offset => offset.toInt
  | _ => 0

def width : MemoryAssembly → Width
  | load kind _ _ _ => kind.width
  | store width _ _ _ => width
  | _ => .word

end MemoryAssembly

/-! ## Decoding -/

theorem LoadKind.ofFunct3?_funct3 (kind : LoadKind) :
    ofFunct3? (UInt32.ofNat kind.funct3.toNat) = some kind := by
  cases kind <;> rfl

theorem storeWidth?_funct3 (width : Width) :
    storeWidth? (UInt32.ofNat (storeFunct3 width).toNat) = some width := by
  cases width <;> rfl

theorem funct5_word (u : BitVec 5) (v : BitVec 2) (y x : BitVec 5) (f : BitVec 3) (d : BitVec 5)
    (o : BitVec 7) :
    funct5 (word (u ++ v ++ y ++ x ++ f) d o) = UInt32.ofNat u.toNat := by
  apply UInt32.toNat_inj.mp
  rw [funct5, toNat_shiftRight (by decide), toNat_word, toNat_append, toNat_append, toNat_append,
    toNat_append, UInt32.toNat_ofNat', show (27 : UInt32).toNat = 27 from rfl]
  omega

/-- The immediate of a store, from the parts of the word that hold it. -/
theorem toNat_immS_word (high : BitVec 7) (y x : BitVec 5) (f : BitVec 3) (low : BitVec 5)
    (o : BitVec 7) :
    (immS (word (high ++ y ++ x ++ f) low o)).toNat =
      ((if high.toNat < 2 ^ 6 then 0 else 2 ^ 27 - 2 ^ 7) + high.toNat) * 2 ^ 5 + low.toNat := by
  have hword : (word (high ++ y ++ x ++ f) low o).toNat =
      high.toNat * 2 ^ 25 + y.toNat * 2 ^ 20 + x.toNat * 2 ^ 15 + f.toNat * 2 ^ 12 +
        low.toNat * 2 ^ 7 + o.toNat := by
    simp only [toNat_word, toNat_append]
    omega
  have hmasked : (word (high ++ y ++ x ++ f) low o &&& 0xFE000000).toNat =
      high.toNat * 2 ^ 25 := by
    rw [toNat_and_mask (k := 25) (by decide) (by decide), hword]
    omega
  -- the sign is that of the upper part
  have hsigned : signed (word (high ++ y ++ x ++ f) low o &&& 0xFE000000) =
      (if high.toNat < 2 ^ 6 then (high.toNat : Int) else high.toNat - 2 ^ 7) * 2 ^ 25 := by
    rw [signed_eq, hmasked]
    split <;> split <;> omega
  have hshift (z : Int) : z * 2 ^ 25 / 2 ^ 20 = z * 2 ^ 5 := by omega
  have hhigh : (shiftRightSigned (word (high ++ y ++ x ++ f) low o &&& 0xFE000000) 20).toNat =
      ((if high.toNat < 2 ^ 6 then 0 else 2 ^ 27 - 2 ^ 7) + high.toNat) * 2 ^ 5 := by
    rw [shiftRightSigned_eq _ (by decide), show (20 : UInt32).toNat = 20 from rfl, hsigned,
      hshift, toNat_ofInt]
    split <;> omega
  have hlow : (bits (word (high ++ y ++ x ++ f) low o) 7 5).toNat = low.toNat := by
    rw [toNat_bits (k := 5) (by decide) (by decide), hword, show (7 : UInt32).toNat = 7 from rfl]
    omega
  rw [immS, toNat_or_of_dvd 5 (hhigh ▸ Nat.dvd_mul_left _ _) (hlow ▸ low.isLt), hhigh, hlow]

theorem immS_storeFormat (offset : BitVec 12) (rs2 rs1 : RegIndex) (f : BitVec 3)
    (o : BitVec 7) : immS (storeFormat offset rs2 rs1 f o) = UInt32.ofInt offset.toInt := by
  apply UInt32.toNat_inj.mp
  rw [storeFormat, toNat_immS_word, toNat_ofInt, toInt_cases]
  simp only [toNat_extractLsb]
  split <;> split <;> omega

/-- A word of the atomic extension, by its upper selector. -/
theorem decode_atomicFormat (funct5 : BitVec 5) (ordering : BitVec 2)
    (second first dest : RegIndex) :
    decode (atomicFormat funct5 ordering second first dest) =
      match UInt32.ofNat funct5.toNat with
      | 0b00010 => some (.loadReserved dest first)
      | 0b00011 => some (.storeConditional dest first second)
      | operation => some (.amo (AmoOp.ofFunct5? operation) dest first second) := by
  rw [atomicFormat, registerFormat, decode, opcode_word]
  change decodeAtomic _ = _
  rewrite [decodeAtomic, funct3_word, if_pos (by rfl), funct5_word, rd_word, rs1_word, rs2_word]
  rfl

/-- Decoding undoes encoding. -/
theorem decode_memory_encode (i : MemoryAssembly) : decode i.encode = some i.instruction := by
  cases i with
  | load kind dest first offset =>
      rw [MemoryAssembly.encode, MemoryAssembly.instruction, immediateFormat, decode, opcode_word]
      change some (Instruction.load (LoadKind.ofFunct3? (funct3 _)) (rd _) (rs1 _) (immI _)) = _
      rw [funct3_word, LoadKind.ofFunct3?_funct3, rd_word, rs1_word, immI_word]
  | store width first second offset =>
      rw [MemoryAssembly.encode, MemoryAssembly.instruction,
        ← immS_storeFormat offset second first (storeFunct3 width) 0b0100011, storeFormat, decode,
        opcode_word]
      change some (Instruction.store (storeWidth? (funct3 _)) (rs1 _) (rs2 _) (immS _)) = _
      rw [funct3_word, storeWidth?_funct3, rs1_word, rs2_word]
  | loadReserved dest first ordering => exact decode_atomicFormat _ _ _ _ _
  | storeConditional dest first second ordering => exact decode_atomicFormat _ _ _ _ _
  | amo op dest first second ordering =>
      rw [MemoryAssembly.encode, decode_atomicFormat, MemoryAssembly.instruction]
      cases op <;> rfl

/-- A word with nothing above its lowest byte, as a device might answer it, accesses memory at
address zero or one if at all. -/
theorem offset_of_encode_lt {i : MemoryAssembly} (h : i.encode.toNat < 256) :
    i.base = 0 ∧ 0 ≤ i.offset ∧ i.offset ≤ 1 := by
  have hatomic (u : BitVec 5) (v : BitVec 2) (second first dest : RegIndex) :
      ¬ (atomicFormat u v second first dest).toNat < 256 := by
    rw [atomicFormat, registerFormat, toNat_word, toNat_append,
      show (2 : BitVec 3).toNat = 2 from rfl]
    omega
  cases i with
  | load kind dest first offset =>
      simp only [MemoryAssembly.encode, immediateFormat, toNat_word, toNat_append,
        toNat_field] at h
      have hoffset : offset.toInt = 0 := by
        rw [toInt_cases]
        split <;> omega
      refine ⟨Fin.ext ?_, hoffset.ge, hoffset.le.trans (by decide)⟩
      change first.val = 0
      omega
  | store width first second offset =>
      simp only [MemoryAssembly.encode, storeFormat, toNat_word, toNat_append, toNat_field,
        toNat_extractLsb] at h
      have hoffset : offset.toInt = offset.toNat := by
        rw [toInt_cases]
        split <;> omega
      refine ⟨Fin.ext ?_, ?_, ?_⟩
      · change first.val = 0
        omega
      · change 0 ≤ offset.toInt
        omega
      · change offset.toInt ≤ 1
        omega
  | loadReserved dest first ordering => exact absurd h (hatomic _ _ _ _ _)
  | storeConditional dest first second ordering => exact absurd h (hatomic _ _ _ _ _)
  | amo op dest first second ordering => exact absurd h (hatomic _ _ _ _ _)

/-! ## Numbers in memory -/

/-- The integer that `n` bytes stand for in two's complement, from their number. -/
def signedIn (n number : Nat) : Int :=
  if 2 * number < 256 ^ n then number else number - 256 ^ n

/-- What a load makes of the number that it finds: one that is narrower than a word is extended
with its sign, or with zeros. -/
def LoadKind.value (kind : LoadKind) (number : Nat) : Int :=
  match kind with
  | .byte => signedIn 1 number
  | .half => signedIn 2 number
  | .word => number
  | .byteUnsigned => number
  | .halfUnsigned => number

/-- What an atomic operation leaves in place of the old word, before it is cut to a word. -/
def AmoOp.value (op : AmoOp) (old operand : UInt32) : Int :=
  match op with
  | .swap => operand.toNat
  | .add => old.toNat + operand.toNat
  | .xor => (old.toNat ^^^ operand.toNat : Nat)
  | .and => (old.toNat &&& operand.toNat : Nat)
  | .or => (old.toNat ||| operand.toNat : Nat)
  | .min => Min.min (signed old) (signed operand)
  | .max => Max.max (signed old) (signed operand)
  | .minu => (Min.min old.toNat operand.toNat : Nat)
  | .maxu => (Max.max old.toNat operand.toNat : Nat)

theorem signedIn_byte {number : Nat} (h : number < 256) :
    (UInt32.ofNat number).toUInt8.toInt8.toInt = signedIn 1 number := by
  have hnat : (UInt32.ofNat number).toUInt8.toInt8.toBitVec.toNat = number := by
    change (UInt32.ofNat number).toUInt8.toNat = number
    rw [UInt32.toNat_toUInt8, UInt32.toNat_ofNat']
    omega
  change (UInt32.ofNat number).toUInt8.toInt8.toBitVec.toInt = _
  rw [BitVec.toInt_eq_toNat_cond, hnat, signedIn]
  split <;> split <;> omega

theorem signedIn_half {number : Nat} (h : number < 65536) :
    (UInt32.ofNat number).toUInt16.toInt16.toInt = signedIn 2 number := by
  have hnat : (UInt32.ofNat number).toUInt16.toInt16.toBitVec.toNat = number := by
    change (UInt32.ofNat number).toUInt16.toNat = number
    rw [UInt32.toNat_toUInt16, UInt32.toNat_ofNat']
    omega
  change (UInt32.ofNat number).toUInt16.toInt16.toBitVec.toInt = _
  rw [BitVec.toInt_eq_toNat_cond, hnat, signedIn]
  split <;> split <;> omega

theorem ofNat_eq_ofInt (number : Nat) : UInt32.ofNat number = UInt32.ofInt number := by
  apply UInt32.toNat_inj.mp
  rw [UInt32.toNat_ofNat', toNat_ofInt]
  omega

/-- A load extends what it finds as its kind tells. -/
theorem LoadKind.extend_eq (kind : LoadKind) {number : Nat}
    (h : number < 256 ^ kind.width.bytes) :
    kind.extend (UInt32.ofNat number) = UInt32.ofInt (kind.value number) := by
  cases kind with
  | byte => rw [extend, toUInt32_eq_ofInt, Int8.toInt_toInt32, signedIn_byte h, value]
  | half => rw [extend, toUInt32_eq_ofInt, Int16.toInt_toInt32, signedIn_half h, value]
  | word => exact ofNat_eq_ofInt number
  | byteUnsigned =>
      apply eq_ofInt_of_toNat
      have hlt : number < 256 := h
      rw [extend, UInt8.toNat_toUInt32, UInt32.toNat_toUInt8, UInt32.toNat_ofNat']
      omega
  | halfUnsigned =>
      apply eq_ofInt_of_toNat
      have hlt : number < 65536 := h
      rw [extend, UInt16.toNat_toUInt32, UInt32.toNat_toUInt16, UInt32.toNat_ofNat']
      omega

/-- Whichever word is chosen stands for the chosen number. -/
theorem ofInt_min_signed (a b : UInt32) :
    UInt32.ofInt (min (signed a) (signed b)) = if signedLess b a then b else a := by
  by_cases h : signed b < signed a
  · rw [if_pos (signedLess_iff.mpr h), min_eq_right h.le, ofInt_signed]
  · rw [if_neg (mt signedLess_iff.mp h), min_eq_left (not_lt.mp h), ofInt_signed]

theorem ofInt_max_signed (a b : UInt32) :
    UInt32.ofInt (max (signed a) (signed b)) = if signedLess a b then b else a := by
  by_cases h : signed a < signed b
  · rw [if_pos (signedLess_iff.mpr h), max_eq_right h.le, ofInt_signed]
  · rw [if_neg (mt signedLess_iff.mp h), max_eq_left (not_lt.mp h), ofInt_signed]

theorem ofInt_min_toNat (a b : UInt32) :
    UInt32.ofInt (min a.toNat b.toNat : Nat) = if b < a then b else a := by
  by_cases h : b < a
  · rw [if_pos h, min_eq_right (UInt32.lt_iff_toNat_lt.mp h).le, ofInt_toNat]
  · rw [if_neg h, min_eq_left (not_lt.mp (mt UInt32.lt_iff_toNat_lt.mpr h)), ofInt_toNat]

theorem ofInt_max_toNat (a b : UInt32) :
    UInt32.ofInt (max a.toNat b.toNat : Nat) = if a < b then b else a := by
  by_cases h : a < b
  · rw [if_pos h, max_eq_right (UInt32.lt_iff_toNat_lt.mp h).le, ofInt_toNat]
  · rw [if_neg h, max_eq_left (not_lt.mp (mt UInt32.lt_iff_toNat_lt.mpr h)), ofInt_toNat]

/-- An atomic operation leaves its value, cut to a word. -/
theorem AmoOp.apply_eq (op : AmoOp) (old operand : UInt32) :
    op.apply old operand = UInt32.ofInt (op.value old operand) := by
  cases op with
  | swap => exact (ofInt_toNat operand).symm
  | add => simp only [apply, value, UInt32.ofInt_add, ofInt_toNat]
  | xor => exact eq_ofInt_of_toNat (UInt32.toNat_xor old operand)
  | and => exact eq_ofInt_of_toNat (UInt32.toNat_and old operand)
  | or => exact eq_ofInt_of_toNat (UInt32.toNat_or old operand)
  | min => exact (ofInt_min_signed old operand).symm
  | max => exact (ofInt_max_signed old operand).symm
  | minu => exact (ofInt_min_toNat old operand).symm
  | maxu => exact (ofInt_max_toNat old operand).symm

end RiscvMachine.Isa
