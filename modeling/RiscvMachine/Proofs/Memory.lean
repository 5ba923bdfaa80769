import RiscvMachine.Proofs.Bytes

set_option autoImplicit false

/-! # Flat memory

A flat memory has a byte at each address. It is what the backing store, the cache and the RAM of
the machine are compared with: each of them is described by the memory that it shows and by what
its operations do to that memory (`read`, `write`).
-/

namespace RiscvMachine

/-! ## Addresses cut into parts of one size -/

/-- An address of a range that lies in one part. -/
theorem div_mod_add {addr size length i : Nat} (hrange : addr % size + length ≤ size)
    (hi : i < length) :
    (addr + i) / size = addr / size ∧ (addr + i) % size = addr % size + i := by
  have hlt : addr % size + i < size := by omega
  have hsplit : addr + i = addr % size + i + size * (addr / size) := by
    have := Nat.div_add_mod addr size
    omega
  have hpos : 0 < size := by omega
  rw [hsplit, Nat.add_mul_div_left _ _ hpos, Nat.add_mul_mod_self_left, Nat.div_eq_of_lt hlt,
    Nat.mod_eq_of_lt hlt]
  exact ⟨Nat.zero_add _, rfl⟩

/-- All addresses of a range that lies in one part are in that part. -/
theorem div_eq_of_mem {addr size length a : Nat} (hrange : addr % size + length ≤ size)
    (ha : addr ≤ a ∧ a < addr + length) : a / size = addr / size := by
  have hoffset := (div_mod_add hrange (show a - addr < length by omega)).1
  rwa [show addr + (a - addr) = a by omega] at hoffset

/-! ## Memories -/

/-- A byte for each address. -/
def Memory : Type := Nat → UInt8

namespace Memory

/-- The `n` bytes from `addr` on. -/
def read (m : Memory) (addr n : Nat) : ByteArray :=
  (List.ofFn fun i : Fin n => m (addr + i)).toByteArray

/-- The memory with `data` in place from `addr` on. -/
def write (m : Memory) (addr : Nat) (data : ByteArray) : Memory := fun a =>
  if addr ≤ a ∧ a < addr + data.size then Bytes.byteAt data (a - addr) else m a

@[simp] theorem size_read (m : Memory) (addr n : Nat) : (m.read addr n).size = n := by
  simp [read]

theorem byteAt_read (m : Memory) (addr : Nat) {n i : Nat} (h : i < n) :
    Bytes.byteAt (m.read addr n) i = m (addr + i) := by
  rw [Bytes.byteAt_of_lt (by simpa using h)]
  simp [read]

/-- A byte array that shows the bytes of a memory is what is read there. -/
theorem eq_read {m : Memory} {addr : Nat} {bytes : ByteArray}
    (h : ∀ i < bytes.size, Bytes.byteAt bytes i = m (addr + i)) :
    bytes = m.read addr bytes.size := by
  apply Bytes.ext_byteAt (by simp)
  intro i hi
  rw [h i hi, byteAt_read m addr hi]

theorem read_congr {m m' : Memory} {addr addr' n : Nat}
    (h : ∀ i < n, m (addr + i) = m' (addr' + i)) : m.read addr n = m'.read addr' n := by
  apply Bytes.ext_byteAt (by simp)
  intro i hi
  rw [size_read] at hi
  rw [byteAt_read m addr hi, byteAt_read m' addr' hi, h i hi]

@[simp] theorem read_zero (m : Memory) (addr : Nat) : m.read addr 0 = ByteArray.empty := by
  simp [read]

/-- Reading on behind what has been read. -/
theorem read_add (m : Memory) (addr n k : Nat) :
    m.read addr (n + k) = m.read addr n ++ m.read (addr + n) k := by
  apply Bytes.ext_byteAt (by simp)
  intro i hi
  rw [size_read] at hi
  rw [byteAt_read m addr hi, Bytes.byteAt_append, size_read]
  split
  · rename_i hin
    rw [byteAt_read m addr hin]
  · rw [byteAt_read m (addr + n) (by omega)]
    congr 1
    omega

theorem write_of_mem {m : Memory} {addr : Nat} {data : ByteArray} {a : Nat}
    (h : addr ≤ a ∧ a < addr + data.size) :
    m.write addr data a = Bytes.byteAt data (a - addr) :=
  if_pos h

theorem write_of_not_mem {m : Memory} {addr : Nat} {data : ByteArray} {a : Nat}
    (h : a < addr ∨ addr + data.size ≤ a) : m.write addr data a = m a :=
  if_neg (by omega)

@[simp] theorem write_empty (m : Memory) (addr : Nat) : m.write addr ByteArray.empty = m := by
  funext a
  exact write_of_not_mem (by simp; omega)

/-- Writing in two parts, one behind the other. -/
theorem write_append (m : Memory) (addr : Nat) (a b : ByteArray) :
    m.write addr (a ++ b) = (m.write addr a).write (addr + a.size) b := by
  funext x
  simp only [write, ByteArray.size_append, Bytes.byteAt_append]
  -- the second part lies on top of the first
  by_cases hb : addr + a.size ≤ x ∧ x < addr + a.size + b.size
  · rw [if_pos (by omega), if_neg (by omega), if_pos hb]
    congr 1
    omega
  · rw [if_neg hb]
    by_cases ha : addr ≤ x ∧ x < addr + a.size
    · rw [if_pos (by omega), if_pos (by omega), if_pos ha]
    · rw [if_neg (by omega), if_neg ha]

/-- A written stretch of `data`, cut in two. -/
theorem write_extract_add (m : Memory) (addr : Nat) (data : ByteArray) {i n k : Nat}
    (h : i + n + k ≤ data.size) :
    m.write addr (data.extract i (i + (n + k))) =
      (m.write addr (data.extract i (i + n))).write (addr + n)
        (data.extract (i + n) (i + n + k)) := by
  have hsplit : data.extract i (i + (n + k))
      = data.extract i (i + n) ++ data.extract (i + n) (i + n + k) := by
    rw [← Nat.add_assoc]
    exact ByteArray.extract_eq_extract_append_extract (i + n) (by omega) (by omega)
  have hsize : (data.extract i (i + n)).size = n := by
    rw [ByteArray.size_extract]
    omega
  calc m.write addr (data.extract i (i + (n + k)))
      = m.write addr (data.extract i (i + n) ++ data.extract (i + n) (i + n + k)) := by rw [hsplit]
    _ = (m.write addr (data.extract i (i + n))).write (addr + (data.extract i (i + n)).size)
          (data.extract (i + n) (i + n + k)) := write_append _ _ _ _
    _ = _ := by rw [hsize]

/-- A byte array keeps showing the byte of a memory when both are written. -/
theorem write_eq_byteAt_overlay {m : Memory} {bytes : ByteArray} {a : Nat}
    (h : m a = Bytes.byteAt bytes a) (addr : Nat) (data : ByteArray) :
    m.write addr data a = Bytes.byteAt (Bytes.overlay bytes addr data) a := by
  rw [Bytes.byteAt_overlay, write, h]

end Memory

end RiscvMachine
