import RiscvMachine.Cache.Basic
import RiscvMachine.Proofs.Panic

set_option autoImplicit false

/-! # Addresses, blocks and lines

The shifts and masks with which the cache cuts an address, as arithmetic on natural numbers: where
both sizes are powers of two, a position in a line is less than 32 bits long and the bytes of all
lines can be counted (`CacheGeometry.Valid`), the block is the quotient by the line size, the
position in the line is the remainder, and the line is the block modulo the number of lines. No
step of the reckoning gives up there (`Valid.blockOf_eq`, `Valid.baseOf_eq`, `Valid.offsetOf_eq`).
Where a line has more than 2^31 bytes, cutting an address gives up (`blockOf_eq_error`).
-/

namespace RiscvMachine

/-- The test for a single bit finds the powers of two. -/
theorem isPowerOfTwo_iff (n : UInt64) : isPowerOfTwo n = true ↔ n.toNat.isPowerOfTwo := by
  have hsub (hne : n.toNat ≠ 0) : (n &&& (n - 1)).toNat = n.toNat &&& (n.toNat - 1) := by
    have hone : 1 ≤ n := UInt64.le_iff_toNat_le.mpr (Nat.pos_of_ne_zero hne)
    rw [UInt64.toNat_and, UInt64.toNat_sub_of_le n 1 hone]
    rfl
  rw [← Nat.ne_zero_and_sub_one_eq_zero_iff_isPowerOfTwo, isPowerOfTwo, Bool.and_eq_true,
    bne_iff_ne, beq_iff_eq]
  constructor
  · rintro ⟨hne, hand⟩
    have hpos : n.toNat ≠ 0 := fun h => hne (UInt64.toNat_inj.mp h)
    refine ⟨hpos, ?_⟩
    rw [← hsub hpos, hand]
    rfl
  · rintro ⟨hpos, hand⟩
    refine ⟨?_, UInt64.toNat_inj.mp ((hsub hpos).trans hand)⟩
    rintro rfl
    exact hpos rfl

namespace CacheGeometry

/-- Sizes for which every address computation of the cache is exact. -/
structure Valid (g : CacheGeometry) : Prop where
  lineSize_isPowerOfTwo : g.lineSize.toNat.isPowerOfTwo
  four_le_lineSize : 4 ≤ g.lineSize.toNat
  lineSize_le : g.lineSize.toNat ≤ 2 ^ 31
  lineCount_isPowerOfTwo : g.lineCount.toNat.isPowerOfTwo
  /-- The bytes of all lines are counted in 64 bits. -/
  total_lt : g.lineSize.toNat * g.lineCount.toNat < 2 ^ 64

/-- The block of an address, if it is cut by a shift that has a value. -/
def block (g : CacheGeometry) (addr : UInt32) : UInt32 := addr >>> g.lineShift

/-- The first address of a block, if the shift has a value. -/
def base (g : CacheGeometry) (block : UInt32) : UInt32 := block <<< g.lineShift

variable {g : CacheGeometry}

theorem Valid.lineSize_pos (h : g.Valid) : 0 < g.lineSize.toNat :=
  Nat.lt_of_lt_of_le (by decide) h.four_le_lineSize

theorem Valid.lineCount_pos (h : g.Valid) : 0 < g.lineCount.toNat := by
  obtain ⟨m, hm⟩ := h.lineCount_isPowerOfTwo
  rw [hm]
  exact Nat.two_pow_pos m

/-- The number of address bits within a line is the logarithm of the line size, and less than 32
just if the line has at most 2^31 bytes. -/
theorem lineShift_eq (h : g.lineSize.toNat.isPowerOfTwo) :
    g.lineSize.toNat = 2 ^ g.lineShift.toNat ∧
      (g.lineShift.toNat < 32 ↔ g.lineSize.toNat ≤ 2 ^ 31) := by
  obtain ⟨k, hk⟩ := h
  have hlt : k < 64 := by
    have hbound := g.lineSize.toNat_lt
    rw [hk] at hbound
    exact (Nat.pow_lt_pow_iff_right (by decide)).mp hbound
  have hshift : g.lineShift.toNat = k := by
    rw [lineShift, hk, Nat.log2_two_pow, UInt32.toNat_ofNat_of_lt']
    exact Nat.lt_trans hlt (by decide)
  rw [hshift, hk, Nat.pow_le_pow_iff_right (by decide)]
  exact ⟨rfl, by omega⟩

/-- The line size is two to the power of the number of address bits within a line. -/
theorem Valid.lineSize_eq (h : g.Valid) :
    g.lineSize.toNat = 2 ^ g.lineShift.toNat ∧ g.lineShift.toNat < 32 := by
  obtain ⟨hsize, hshift⟩ := lineShift_eq h.lineSize_isPowerOfTwo
  exact ⟨hsize, hshift.mpr h.lineSize_le⟩

/-! ## Cutting an address -/

theorem Valid.blockOf_eq (h : g.Valid) (addr : UInt32) : g.blockOf addr = .ok (g.block addr) :=
  if_pos (UInt32.lt_iff_toNat_lt.mpr h.lineSize_eq.2)

theorem Valid.baseOf_eq (h : g.Valid) (block : UInt32) : g.baseOf block = .ok (g.base block) :=
  if_pos (UInt32.lt_iff_toNat_lt.mpr h.lineSize_eq.2)

/-- Lines of more than 2^31 bytes leave no bits of an address for the block. -/
theorem blockOf_eq_error (h : g.lineSize.toNat.isPowerOfTwo) (hwide : 2 ^ 31 < g.lineSize.toNat)
    (addr : UInt32) : g.blockOf addr = .error .shiftRight := by
  have hshift := (lineShift_eq h).2
  apply if_neg
  rw [UInt32.lt_iff_toNat_lt]
  exact fun hlt => absurd (hshift.mp hlt) (Nat.not_le.mpr hwide)

/-- The block of an address is its quotient by the line size. -/
theorem block_toNat (h : g.Valid) (addr : UInt32) :
    (g.block addr).toNat = addr.toNat / g.lineSize.toNat := by
  obtain ⟨hsize, hshift⟩ := h.lineSize_eq
  calc (g.block addr).toNat
      = addr.toNat >>> (g.lineShift.toNat % 32) := UInt32.toNat_shiftRight _ _
    _ = addr.toNat / 2 ^ g.lineShift.toNat := by
        rw [Nat.mod_eq_of_lt hshift, Nat.shiftRight_eq_div_pow]
    _ = addr.toNat / g.lineSize.toNat := by rw [hsize]

/-- A block starts at its number times the line size. -/
theorem base_toNat (h : g.Valid) {block : UInt32}
    (hblock : block.toNat * g.lineSize.toNat < 2 ^ 32) :
    (g.base block).toNat = block.toNat * g.lineSize.toNat := by
  obtain ⟨hsize, hshift⟩ := h.lineSize_eq
  calc (g.base block).toNat
      = block.toNat <<< (g.lineShift.toNat % 32) % 2 ^ 32 := UInt32.toNat_shiftLeft _ _
    _ = block.toNat * g.lineSize.toNat % 2 ^ 32 := by
        rw [Nat.mod_eq_of_lt hshift, Nat.shiftLeft_eq, hsize]
    _ = block.toNat * g.lineSize.toNat := Nat.mod_eq_of_lt hblock

/-- The position of an address in its line is its remainder by the line size. -/
theorem within_toNat (h : g.Valid) (addr : UInt32) :
    g.within addr = addr.toNat % g.lineSize.toNat := by
  obtain ⟨hsize, -⟩ := h.lineSize_eq
  have hpos := h.lineSize_pos
  have hmask : (g.lineSize - 1).toNat = g.lineSize.toNat - 1 := by
    rw [UInt64.toNat_sub_of_le]
    · rfl
    · exact hpos
  calc g.within addr
      = addr.toNat &&& (g.lineSize.toNat - 1) := by
        rw [within, UInt64.toNat_and, hmask, UInt32.toNat_toUInt64]
    _ = addr.toNat % g.lineSize.toNat := by rw [hsize, Nat.and_two_pow_sub_one_eq_mod]

/-- A block goes to the line of its number modulo the number of lines. -/
theorem index_toNat (h : g.Valid) (block : UInt32) :
    g.index block = block.toNat % g.lineCount.toNat := by
  obtain ⟨m, hm⟩ := h.lineCount_isPowerOfTwo
  have hmask : g.indexMask.toNat = (2 ^ m - 1) % 2 ^ 32 := by
    rw [indexMask, UInt64.toNat_toUInt32, UInt64.toNat_sub_of_le]
    · rw [hm]
      rfl
    · exact h.lineCount_pos
  rw [index, UInt32.toNat_and, hmask, hm]
  -- beyond 2 ^ 32 lines the mask keeps the whole block number
  rcases Nat.lt_or_ge m 33 with hsmall | hlarge
  · have hle : 2 ^ m ≤ 2 ^ 32 := Nat.pow_le_pow_right (by decide) (by omega)
    rw [Nat.mod_eq_of_lt (by have := Nat.two_pow_pos m; omega), Nat.and_two_pow_sub_one_eq_mod]
  · have hblock : block.toNat < 2 ^ m :=
      Nat.lt_of_lt_of_le block.toNat_lt (Nat.pow_le_pow_right (by decide) (by omega))
    have hones : (2 ^ m - 1) % 2 ^ 32 = 2 ^ 32 - 1 := by
      obtain ⟨d, rfl⟩ := Nat.exists_eq_add_of_le hlarge
      have hpos := Nat.two_pow_pos (1 + d)
      rw [show 33 + d = 32 + (1 + d) by omega, Nat.pow_add]
      generalize 2 ^ (1 + d) = lines at hpos ⊢
      omega
    rw [hones, Nat.and_two_pow_sub_one_eq_mod, Nat.mod_eq_of_lt hblock,
      Nat.mod_eq_of_lt block.toNat_lt]

theorem Valid.index_lt (h : g.Valid) (block : UInt32) : g.index block < g.lineCount.toNat := by
  rw [index_toNat h]
  exact Nat.mod_lt _ h.lineCount_pos

theorem Valid.within_lt (h : g.Valid) (addr : UInt32) : g.within addr < g.lineSize.toNat := by
  rw [within_toNat h]
  exact Nat.mod_lt _ h.lineSize_pos

/-! ## The place of an access among the bytes of all lines -/

/-- Where an address in a resident block stands among the bytes of all lines. -/
def start (g : CacheGeometry) (addr : UInt32) : UInt64 :=
  UInt64.ofNat (g.index (g.block addr) * g.lineSize.toNat + g.within addr)

/-- An address in a resident block stands among the bytes of the lines. -/
theorem Valid.start_spec (h : g.Valid) (addr : UInt32) :
    (g.start addr).toNat = g.index (g.block addr) * g.lineSize.toNat + g.within addr ∧
      (g.start addr).toNat < g.lineCount.toNat * g.lineSize.toNat := by
  have hle : (g.index (g.block addr) + 1) * g.lineSize.toNat ≤
      g.lineCount.toNat * g.lineSize.toNat :=
    Nat.mul_le_mul_right _ (h.index_lt _)
  rw [Nat.succ_mul] at hle
  have hwithin := h.within_lt addr
  have htotal := h.total_lt
  rw [Nat.mul_comm] at htotal
  have hstart : (g.start addr).toNat =
      g.index (g.block addr) * g.lineSize.toNat + g.within addr :=
    UInt64.toNat_ofNat_of_lt (by change _ < 2 ^ 64; omega)
  exact ⟨hstart, by omega⟩

/-- The place of an address is reckoned exactly. -/
theorem Valid.offsetOf_eq (h : g.Valid) (addr : UInt32) :
    g.offsetOf (g.index (g.block addr)) (g.within addr) = .ok (g.start addr) := by
  obtain ⟨hstart, hlt⟩ := h.start_spec addr
  have htotal := h.total_lt
  rw [Nat.mul_comm] at htotal
  have hline : (UInt64.ofNat (g.index (g.block addr) * g.lineSize.toNat)).toNat =
      g.index (g.block addr) * g.lineSize.toNat :=
    UInt64.toNat_ofNat_of_lt (by change _ < 2 ^ 64; omega)
  rw [offsetOf, Checked.multiply_of_lt (by omega)]
  simp only [bind, Except.bind, hline]
  exact Checked.add_of_lt (by omega)

/-- The place of an address leads back to its line. -/
theorem Valid.start_div (h : g.Valid) (addr : UInt32) :
    (g.start addr / g.lineSize).toNat = g.index (g.block addr) := by
  rw [UInt64.toNat_div, (h.start_spec addr).1, Nat.mul_comm, Nat.mul_add_div h.lineSize_pos,
    Nat.div_eq_of_lt (h.within_lt addr), Nat.add_zero]

/-- The place of an address leads back to its position in the line. -/
theorem Valid.start_mod (h : g.Valid) (addr : UInt32) :
    (g.start addr % g.lineSize).toNat = g.within addr := by
  rw [UInt64.toNat_mod, (h.start_spec addr).1, Nat.mul_comm, Nat.mul_add_mod,
    Nat.mod_eq_of_lt (h.within_lt addr)]

end CacheGeometry

end RiscvMachine
