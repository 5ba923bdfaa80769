import Mathlib
import RiscvMachine.Bytes.Width

set_option autoImplicit false

/-! # Alignment

An access is aligned if its address is a multiple of its size. Sizes divide the word, so an
aligned access lies in one word, the one at its address with the lowest two bits cleared
(`Width.word_of_mem`).
-/

namespace RiscvMachine

/-- Clearing the lowest `k` bits rounds down to a multiple of `2 ^ k`. -/
theorem toNat_and_mask {k : Nat} (hk : k ≤ 32) {mask : UInt32}
    (hmask : mask.toNat = (2 ^ (32 - k) - 1) <<< k) (x : UInt32) :
    (x &&& mask).toNat = x.toNat / 2 ^ k * 2 ^ k := by
  have hround : x.toNat / 2 ^ k * 2 ^ k = (x.toNat >>> k) <<< k := by
    rw [Nat.shiftRight_eq_div_pow, Nat.shiftLeft_eq]
  rw [UInt32.toNat_and, hmask, hround]
  apply Nat.eq_of_testBit_eq
  intro i
  rw [Nat.testBit_and, Nat.testBit_shiftLeft, Nat.testBit_shiftLeft, Nat.testBit_shiftRight,
    Nat.testBit_two_pow_sub_one]
  by_cases hlow : k ≤ i
  · by_cases hhigh : i < 32
    · simp [hlow, show i - k < 32 - k by omega, show k + (i - k) = i by omega]
    · have hbig : x.toNat < 2 ^ i :=
        x.toNat_lt.trans_le (Nat.pow_le_pow_right (by decide) (Nat.le_of_not_lt hhigh))
      simp [show k + (i - k) = i by omega, Nat.testBit_lt_two_pow hbig]
  · simp [hlow]

namespace Width

theorem aligned_byte (addr : UInt32) : Width.byte.aligned addr := by
  simp [aligned, bytes]

/-- An aligned address is a multiple of the access. -/
theorem bytes_dvd_of_aligned {width : Width} {addr : UInt32} (h : width.aligned addr) :
    width.bytes ∣ addr.toNat := by
  have hmask : (addr &&& (UInt32.ofNat width.bytes - 1)).toNat = 0 := by
    rw [beq_iff_eq.mp h]
    rfl
  rw [UInt32.toNat_and] at hmask
  cases width with
  | byte => exact Nat.one_dvd _
  | half =>
      apply Nat.dvd_of_mod_eq_zero
      exact (Nat.and_two_pow_sub_one_eq_mod addr.toNat 1).symm.trans hmask
  | word =>
      apply Nat.dvd_of_mod_eq_zero
      exact (Nat.and_two_pow_sub_one_eq_mod addr.toNat 2).symm.trans hmask

theorem bytes_dvd_four (width : Width) : width.bytes ∣ 4 := by
  cases width <;> decide

/-- The address of the word in which a byte lies. -/
theorem toNat_word (addr : UInt32) : (addr &&& 0xFFFFFFFC).toNat = addr.toNat / 4 * 4 :=
  toNat_and_mask (k := 2) (by decide) (by decide) addr

/-- An aligned access to a byte of an aligned word lies in this word. -/
theorem word_of_mem {width : Width} {addr word : UInt32} (haligned : width.aligned addr)
    (hword : Width.word.aligned word) {i : Nat} (hi : i < 4) (hfrom : addr.toNat ≤ word.toNat + i)
    (hto : word.toNat + i < addr.toNat + width.bytes) : addr &&& 0xFFFFFFFC = word := by
  apply UInt32.toNat_inj.mp
  rw [toNat_word]
  obtain ⟨n, hn⟩ := bytes_dvd_of_aligned haligned
  obtain ⟨k, hk⟩ := bytes_dvd_of_aligned hword
  cases width <;> simp only [bytes] at hn hk hto <;> omega

theorem and_eq_of_aligned {addr : UInt32} (h : Width.word.aligned addr) :
    addr &&& 0xFFFFFFFC = addr :=
  word_of_mem h h (show 0 < 4 by decide) le_rfl (by simp [bytes])

end Width

end RiscvMachine
