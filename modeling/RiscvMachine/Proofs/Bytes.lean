import Mathlib
import RiscvMachine.Bytes.Endian
import RiscvMachine.Bytes.Width

set_option autoImplicit false

/-! # Byte sequences, seen byte by byte

Every operation of `Bytes/Basic.lean` is described by the size of its result and by the byte
that the result has at each index (`byteAt`). Two byte arrays of one size with the same bytes
are equal (`ext_byteAt`), so these lemmas are all that later proofs use.
-/

namespace RiscvMachine.Bytes

theorem byteAt_of_lt {bytes : ByteArray} {i : Nat} (h : i < bytes.size) :
    byteAt bytes i = bytes[i] := by
  rw [byteAt, dif_pos h]

theorem byteAt_of_size_le {bytes : ByteArray} {i : Nat} (h : bytes.size ≤ i) :
    byteAt bytes i = 0 := by
  rw [byteAt, dif_neg (Nat.not_lt.mpr h)]

/-- Byte arrays of one size are equal if their bytes are. -/
theorem ext_byteAt {a b : ByteArray} (hsize : a.size = b.size)
    (h : ∀ i < a.size, byteAt a i = byteAt b i) : a = b := by
  apply ByteArray.ext
  apply Array.ext hsize
  intro i ha hb
  have := h i ha
  rwa [byteAt_of_lt ha, byteAt_of_lt hb] at this

@[simp] theorem byteAt_empty (i : Nat) : byteAt ByteArray.empty i = 0 :=
  byteAt_of_size_le (by simp)

theorem byteAt_append (a b : ByteArray) (i : Nat) :
    byteAt (a ++ b) i = if i < a.size then byteAt a i else byteAt b (i - a.size) := by
  by_cases ha : i < a.size
  · rw [if_pos ha, byteAt_of_lt ha, byteAt_of_lt (by rw [ByteArray.size_append]; omega)]
    exact ByteArray.getElem_append_left ha
  · rw [if_neg ha]
    by_cases hb : i - a.size < b.size
    · rw [byteAt_of_lt hb, byteAt_of_lt (by rw [ByteArray.size_append]; omega)]
      exact ByteArray.getElem_append_right (Nat.le_of_not_lt ha)
    · rw [byteAt_of_size_le (Nat.le_of_not_lt hb),
        byteAt_of_size_le (by rw [ByteArray.size_append]; omega)]

theorem push_eq_append (bytes : ByteArray) (b : UInt8) :
    bytes.push b = bytes ++ [b].toByteArray := by
  apply ByteArray.ext
  simp

/-- A stretch of a byte array; behind its end every byte is zero. -/
theorem byteAt_extract (bytes : ByteArray) (i j k : Nat) :
    byteAt (bytes.extract i j) k = if i + k < j then byteAt bytes (i + k) else 0 := by
  by_cases h : k < (bytes.extract i j).size
  · rw [byteAt_of_lt h, ByteArray.getElem_extract]
    rw [ByteArray.size_extract] at h
    rw [if_pos (by omega), byteAt_of_lt]
  · rw [byteAt_of_size_le (Nat.le_of_not_lt h)]
    rw [ByteArray.size_extract] at h
    split
    · rw [byteAt_of_size_le (by omega)]
    · rfl

/-! ## Zeros and padding -/

/-- The array holds `n` zeros and nothing else. -/
def Blank (n : Nat) (bytes : ByteArray) : Prop :=
  bytes.size = n ∧ ∀ i, byteAt bytes i = 0

theorem Blank.append {m n : Nat} {a b : ByteArray} (ha : Blank m a) (hb : Blank n b) :
    Blank (m + n) (a ++ b) := by
  refine ⟨by rw [ByteArray.size_append, ha.1, hb.1], fun i => ?_⟩
  rw [byteAt_append]
  split
  · exact ha.2 i
  · exact hb.2 _

theorem Blank.appendCopies {m n : Nat} {block : ByteArray} (hblock : Blank m block) (k : Nat)
    {bytes : ByteArray} (hbytes : Blank n bytes) :
    Blank (n + k * m) (appendCopies block k bytes) := by
  induction k generalizing n bytes with
  | zero => rwa [Nat.zero_mul]
  | succ k ih =>
      rw [Nat.succ_mul, Nat.add_comm _ m, ← Nat.add_assoc]
      exact ih (hbytes.append hblock)

theorem blank_empty : Blank 0 ByteArray.empty := ⟨rfl, byteAt_empty⟩

theorem blank_one : Blank 1 ⟨#[0]⟩ := by
  refine ⟨rfl, fun i => ?_⟩
  unfold byteAt
  split
  · rename_i hi
    obtain rfl : i = 0 := Nat.lt_one_iff.mp hi
    rfl
  · rfl

theorem blank_zeroBlock : Blank zeroBlockSize zeroBlock := by
  have h := blank_one.appendCopies zeroBlockSize blank_empty
  rwa [Nat.zero_add, Nat.mul_one] at h

theorem blank_zeros (n : Nat) : Blank n (zeros n) := by
  have hblocks := blank_zeroBlock.appendCopies (n / zeroBlockSize) blank_empty
  have h := blank_one.appendCopies (n % zeroBlockSize) hblocks
  rwa [Nat.zero_add, Nat.mul_one, Nat.div_add_mod'] at h

@[simp] theorem size_zeros (n : Nat) : (zeros n).size = n :=
  (blank_zeros n).1

@[simp] theorem byteAt_zeros (n i : Nat) : byteAt (zeros n) i = 0 :=
  (blank_zeros n).2 i

@[simp] theorem size_padTo (bytes : ByteArray) (n : Nat) :
    (padTo bytes n).size = max bytes.size n := by
  unfold padTo
  split
  · rw [ByteArray.size_append, size_zeros]
    omega
  · omega

/-- Padding adds only zeros, which the view shows anyway. -/
@[simp] theorem byteAt_padTo (bytes : ByteArray) (n i : Nat) :
    byteAt (padTo bytes n) i = byteAt bytes i := by
  unfold padTo
  split
  · rw [byteAt_append]
    split
    · rfl
    · rw [byteAt_zeros, byteAt_of_size_le (by omega)]
  · rfl

/-! ## Stretches -/

@[simp] theorem size_slice (bytes : ByteArray) (i n : Nat) : (slice bytes i n).size = n := by
  rw [slice, size_padTo, ByteArray.size_extract]
  omega

theorem byteAt_slice (bytes : ByteArray) (i n k : Nat) :
    byteAt (slice bytes i n) k = if k < n then byteAt bytes (i + k) else 0 := by
  rw [slice, byteAt_padTo, byteAt_extract]
  simp only [Nat.add_lt_add_iff_left]

/-- The first bytes of a slice are a shorter slice. -/
theorem extract_slice (bytes : ByteArray) (i n m : Nat) :
    (slice bytes i n).extract 0 m = slice bytes i (min m n) := by
  apply ext_byteAt
  · rw [ByteArray.size_extract, size_slice, size_slice, Nat.sub_zero]
  · intro k hk
    rw [ByteArray.size_extract, size_slice, Nat.sub_zero] at hk
    rw [byteAt_extract, byteAt_slice, byteAt_slice, if_pos (by omega), if_pos (by omega),
      if_pos hk, Nat.zero_add]

theorem overlay_eq_append (bytes : ByteArray) (i : Nat) (data : ByteArray) :
    overlay bytes i data = (padTo bytes i).extract 0 i ++ data ++
      (padTo bytes i).extract (i + data.size) (padTo bytes i).size := by
  rw [overlay, ByteArray.copySlice_eq_append]
  simp

@[simp] theorem size_overlay (bytes : ByteArray) (i : Nat) (data : ByteArray) :
    (overlay bytes i data).size = max bytes.size (i + data.size) := by
  rw [overlay_eq_append]
  simp only [ByteArray.size_append, ByteArray.size_extract, size_padTo]
  omega

/-- The new bytes stand where they were put, and all others are as they were. -/
theorem byteAt_overlay (bytes : ByteArray) (i : Nat) (data : ByteArray) (k : Nat) :
    byteAt (overlay bytes i data) k =
      if i ≤ k ∧ k < i + data.size then byteAt data (k - i) else byteAt bytes k := by
  have hhead : ((padTo bytes i).extract 0 i).size = i := by
    rw [ByteArray.size_extract, size_padTo]
    omega
  rw [overlay_eq_append, byteAt_append, byteAt_append, ByteArray.size_append, hhead]
  -- in front of the data, in it, and behind it
  by_cases hlow : k < i
  · rw [if_pos (by omega), if_pos hlow, if_neg (by omega), byteAt_extract, if_pos (by omega),
      byteAt_padTo, Nat.zero_add]
  · by_cases hmid : k < i + data.size
    · rw [if_pos hmid, if_neg hlow, if_pos ⟨by omega, hmid⟩]
    · have hk : i + data.size + (k - (i + data.size)) = k := by omega
      rw [if_neg hmid, if_neg (by omega), byteAt_extract, hk, byteAt_padTo]
      split
      · rfl
      · rename_i hpast
        rw [size_padTo] at hpast
        rw [byteAt_of_size_le (by omega)]

/-! ## Numbers -/

@[simp] theorem length_littleEndianList (n v : Nat) : (littleEndianList n v).length = n := by
  induction n generalizing v with
  | zero => rfl
  | succ n ih => rw [littleEndianList, List.length_cons, ih]

@[simp] theorem size_littleEndian (n v : Nat) : (littleEndian n v).size = n := by
  rw [littleEndian, List.size_toByteArray, length_littleEndianList]

@[simp] theorem size_bigEndian (n v : Nat) : (bigEndian n v).size = n := by
  rw [bigEndian, List.size_toByteArray, List.length_reverse, length_littleEndianList]

/-- A number depends only on the bytes that spell it. -/
theorem littleEndianAt_congr {a b : ByteArray} {i j n : Nat}
    (h : ∀ k < n, byteAt a (i + k) = byteAt b (j + k)) :
    littleEndianAt a i n = littleEndianAt b j n := by
  induction n generalizing i j with
  | zero => rfl
  | succ n ih =>
      have hhead : byteAt a i = byteAt b j := h 0 (Nat.succ_pos n)
      have htail : littleEndianAt a (i + 1) n = littleEndianAt b (j + 1) n := by
        apply ih
        intro k hk
        have := h (k + 1) (Nat.succ_lt_succ hk)
        rwa [← Nat.add_assoc, ← Nat.add_assoc, Nat.add_right_comm i, Nat.add_right_comm j] at this
      rw [littleEndianAt, littleEndianAt, hhead, htail]

/-- A number of one byte is that byte. -/
theorem littleEndianAt_one (bytes : ByteArray) (i : Nat) :
    UInt32.ofNat (littleEndianAt bytes i 1) = (byteAt bytes i).toUInt32 := by
  show UInt32.ofNat ((byteAt bytes i).toNat + 256 * 0) = _
  rw [Nat.mul_zero, Nat.add_zero, UInt32.ofNat_uInt8ToNat]

theorem getElem_littleEndianList {n i v : Nat} (h : i < (littleEndianList n v).length) :
    (littleEndianList n v)[i] = UInt8.ofNat (v / 256 ^ i) := by
  induction n generalizing i v with
  | zero => cases h
  | succ n ih =>
      cases i with
      | zero => simp [littleEndianList]
      | succ i =>
          simp only [littleEndianList, List.getElem_cons_succ]
          rw [ih, Nat.div_div_eq_div_mul, Nat.pow_succ']

/-- The digits of a number. -/
theorem byteAt_littleEndian {n i : Nat} (h : i < n) (v : Nat) :
    byteAt (littleEndian n v) i = UInt8.ofNat (v / 256 ^ i) := by
  have hsize : i < (littleEndian n v).size := by rwa [size_littleEndian]
  rw [byteAt_of_lt hsize]
  exact List.getElem_toByteArray.trans (getElem_littleEndianList _)

theorem littleEndianAt_of_digits {bytes : ByteArray} {i n v : Nat}
    (h : ∀ k < n, byteAt bytes (i + k) = UInt8.ofNat (v / 256 ^ k)) :
    littleEndianAt bytes i n = v % 256 ^ n := by
  induction n generalizing i v with
  | zero => simp [littleEndianAt, Nat.mod_one]
  | succ n ih =>
      have hhead : (byteAt bytes i).toNat = v % 256 := by
        have hzero := h 0 (Nat.succ_pos n)
        rw [Nat.add_zero, Nat.pow_zero, Nat.div_one] at hzero
        rw [hzero, UInt8.toNat_ofNat']
      have htail : littleEndianAt bytes (i + 1) n = v / 256 % 256 ^ n := by
        apply ih
        intro k hk
        have hnext := h (k + 1) (Nat.succ_lt_succ hk)
        rwa [Nat.pow_succ', ← Nat.div_div_eq_div_mul, ← Nat.add_assoc, Nat.add_right_comm] at hnext
      rw [littleEndianAt, hhead, htail, Nat.pow_succ', Nat.mod_mul]

/-- A word that has been put in place is read back. -/
theorem littleEndianAt_overlay (bytes : ByteArray) (i : Nat) (value : UInt32) :
    UInt32.ofNat (littleEndianAt (overlay bytes i (littleEndian 4 value.toNat)) i 4) = value := by
  have hdigits : littleEndianAt (overlay bytes i (littleEndian 4 value.toNat)) i 4 =
      value.toNat % 256 ^ 4 := by
    apply littleEndianAt_of_digits
    intro k hk
    rw [byteAt_overlay, size_littleEndian, if_pos (by omega), Nat.add_sub_cancel_left,
      byteAt_littleEndian hk]
  have hlt : value.toNat < 256 ^ 4 := value.toNat_lt
  rw [hdigits, Nat.mod_eq_of_lt hlt, UInt32.ofNat_toNat]

/-- The digits of a number, from the other end. -/
theorem byteAt_bigEndian {n i : Nat} (h : i < n) (v : Nat) :
    byteAt (bigEndian n v) i = UInt8.ofNat (v / 256 ^ (n - 1 - i)) := by
  have hsize : i < (bigEndian n v).size := by rwa [size_bigEndian]
  rw [byteAt_of_lt hsize]
  refine List.getElem_toByteArray.trans ?_
  rw [List.getElem_reverse, getElem_littleEndianList, length_littleEndianList]

theorem bigEndianAt_of_digits {bytes : ByteArray} {i n v : Nat}
    (h : ∀ k < n, byteAt bytes (i + k) = UInt8.ofNat (v / 256 ^ (n - 1 - k))) :
    bigEndianAt bytes i n = v % 256 ^ n := by
  induction n generalizing v with
  | zero => simp [bigEndianAt, Nat.mod_one]
  | succ n ih =>
      have hlast : (byteAt bytes (i + n)).toNat = v % 256 := by
        rw [h n (Nat.lt_succ_self n), Nat.add_sub_cancel, Nat.sub_self, Nat.pow_zero, Nat.div_one,
          UInt8.toNat_ofNat']
      have hfront : bigEndianAt bytes i n = v / 256 % 256 ^ n := by
        apply ih
        intro k hk
        rw [h k (Nat.lt_succ_of_lt hk), Nat.div_div_eq_div_mul, ← Nat.pow_succ']
        congr 3
        omega
      rw [bigEndianAt, hfront, hlast, Nat.pow_succ', Nat.mod_mul, Nat.add_comm]

/-- So is one with its most significant byte first. -/
theorem bigEndianAt_overlay (bytes : ByteArray) (i : Nat) (value : UInt32) :
    UInt32.ofNat (bigEndianAt (overlay bytes i (bigEndian 4 value.toNat)) i 4) = value := by
  have hdigits : bigEndianAt (overlay bytes i (bigEndian 4 value.toNat)) i 4 =
      value.toNat % 256 ^ 4 := by
    apply bigEndianAt_of_digits
    intro k hk
    rw [byteAt_overlay, size_bigEndian, if_pos (by omega), Nat.add_sub_cancel_left,
      byteAt_bigEndian hk]
  have hlt : value.toNat < 256 ^ 4 := value.toNat_lt
  rw [hdigits, Nat.mod_eq_of_lt hlt, UInt32.ofNat_toNat]

/-! ## Texts -/

theorem fromUTF8?_toUTF8 (s : String) : String.fromUTF8? s.toUTF8 = some s := by
  rw [String.toUTF8_eq_toByteArray, String.fromUTF8?, dif_pos s.isValidUTF8]
  rfl

end RiscvMachine.Bytes
