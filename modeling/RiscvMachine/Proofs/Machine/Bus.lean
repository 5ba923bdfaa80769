import RiscvMachine.Proofs.Alignment
import RiscvMachine.Proofs.Cache.Flush
import RiscvMachine.Proofs.Hart.Simulation
import RiscvMachine.Proofs.Machine.Flat

set_option autoImplicit false

/-! # The bus over flat RAM

A coherent cache that shows the bytes of an array (`Cache.Mirrors`) answers aligned accesses from
that array, and keeps in step with it when it is written. Every call of the bus comes down to
such accesses, the debug channel's walk along a string included, so a platform over reliable
units answers as the flat platform does (`Platform.busSimulation`).
-/

namespace RiscvMachine

/-! ## Alignment -/

/-- An access divides a line. -/
theorem CacheGeometry.Valid.bytes_dvd_lineSize {g : CacheGeometry} (h : g.Valid) (width : Width) :
    width.bytes ∣ g.lineSize.toNat := by
  obtain ⟨k, hk⟩ := h.lineSize_isPowerOfTwo
  have hle : 2 ^ 2 ≤ 2 ^ k := by
    rw [← hk]
    exact h.four_le_lineSize
  have htwo : 2 ≤ k := (Nat.pow_le_pow_iff_right (by decide)).mp hle
  rw [hk]
  exact width.bytes_dvd_four.trans (Nat.pow_dvd_pow 2 htwo)

/-- An aligned access does not leave its line. -/
theorem CacheGeometry.Valid.admits {g : CacheGeometry} (h : g.Valid) {width : Width}
    {capacity : Nat} {addr : UInt32} (halign : width.bytes ∣ addr.toNat)
    (hrange : addr.toNat + width.bytes ≤ capacity) : g.Admits capacity addr width.bytes := by
  refine ⟨?_, hrange⟩
  have hline := h.bytes_dvd_lineSize width
  have hlt := Nat.mod_lt addr.toNat h.lineSize_pos
  -- both are multiples of the access, so there is room for one more
  obtain ⟨i, hi⟩ := (Nat.dvd_mod_iff hline).mpr halign
  obtain ⟨n, hn⟩ := hline
  rw [hi, hn] at hlt
  calc addr.toNat % g.lineSize.toNat + width.bytes
      = width.bytes * (i + 1) := by rw [hi, Nat.mul_succ]
    _ ≤ width.bytes * n := Nat.mul_le_mul_left _ (Nat.lt_of_mul_lt_mul_left hlt)
    _ = g.lineSize.toNat := hn.symm

/-- RAM starts at a multiple of every access, so offsets are aligned as addresses are. -/
theorem Platform.ramOffset?_eq_some {ramSize addr offset : UInt32} {width : Width}
    (h : ramOffset? ramSize addr width = some offset) (halign : width.aligned addr) :
    width.bytes ∣ offset.toNat ∧ offset.toNat + width.bytes ≤ ramSize.toNat := by
  unfold ramOffset? at h
  split at h
  · rename_i hin
    rw [Bool.and_eq_true, decide_eq_true_iff, decide_eq_true_iff] at hin
    cases h
    refine ⟨?_, hin.2⟩
    rw [UInt32.toNat_sub_of_le _ _ hin.1]
    have hbase : width.bytes ∣ ramBase.toNat := width.bytes_dvd_four.trans (by decide)
    exact Nat.dvd_sub (Width.bytes_dvd_of_aligned halign) hbase
  · cases h

/-- RAM lies above the devices. -/
theorem Platform.not_isDevice {ramSize addr offset : UInt32} {width : Width}
    (h : ramOffset? ramSize addr width = some offset) : ¬ isDevice addr := by
  unfold ramOffset? at h
  split at h
  · rename_i hin
    rw [Bool.and_eq_true, decide_eq_true_iff, decide_eq_true_iff] at hin
    have hbase : 2147483648 ≤ addr.toNat := UInt32.le_iff_toNat_le.mp hin.1
    rw [isDevice, Bool.and_eq_true, decide_eq_true_iff, decide_eq_true_iff,
      UInt32.lt_iff_toNat_lt]
    rintro ⟨-, hlt⟩
    have hend : deviceEnd.toNat = 301989888 := rfl
    omega
  · cases h

/-- The address of a place in RAM. -/
theorem Platform.toNat_ramOffset? {ramSize addr offset : UInt32} {width : Width}
    (h : ramOffset? ramSize addr width = some offset) :
    addr.toNat = ramBase.toNat + offset.toNat := by
  unfold ramOffset? at h
  split at h
  · rename_i hin
    rw [Bool.and_eq_true, decide_eq_true_iff, decide_eq_true_iff] at hin
    cases h
    have hbase := UInt32.le_iff_toNat_le.mp hin.1
    rw [UInt32.toNat_sub_of_le _ _ hin.1]
    omega
  · cases h

namespace FlatPlatform

variable {p : FlatPlatform} {width : Width} {addr offset : UInt32}

theorem read_ram (h : Platform.ramOffset? p.ramSize addr width = some offset) :
    Bus.read width addr p =
      .ok (UInt32.ofNat (Bytes.littleEndianAt p.ram offset.toNat width.bytes)) p := by
  show FlatPlatform.read width addr p = _
  unfold FlatPlatform.read
  rw [if_neg (Platform.not_isDevice h), h]

theorem write_ram (value : UInt32) (h : Platform.ramOffset? p.ramSize addr width = some offset) :
    Bus.write width addr value p =
      let bytes := Bytes.littleEndian width.bytes value.toNat
      .ok () { p with ram := Bytes.overlay p.ram offset.toNat bytes } := by
  show FlatPlatform.write width addr value p = _
  unfold FlatPlatform.write
  rw [if_neg (Platform.not_isDevice h), h]

/-- At an address in RAM the hart sees the byte of flat RAM. -/
theorem byteSeen_ram (hle : p.ramSize ≤ maxRamSize) {a : Nat} (ha : a < p.ramSize.toNat) :
    Bus.byteSeen p (ramBase + UInt32.ofNat a) = some (Bytes.byteAt p.ram a).toUInt32 := by
  have hsize : p.ramSize.toNat ≤ 2147483648 := UInt32.le_iff_toNat_le.mp hle
  have hoffset : (UInt32.ofNat a).toNat = a :=
    UInt32.toNat_ofNat_of_lt' (ha.trans p.ramSize.toNat_lt)
  have haddr : (ramBase + UInt32.ofNat a).toNat = 2147483648 + a := by
    rw [UInt32.toNat_add, hoffset]
    show (2147483648 + a) % 4294967296 = _
    omega
  have hsub : ramBase + UInt32.ofNat a - ramBase = UInt32.ofNat a := by
    rw [UInt32.add_comm, UInt32.add_sub_cancel]
  have hram : Platform.ramOffset? p.ramSize (ramBase + UInt32.ofNat a) .byte
      = some (UInt32.ofNat a) := by
    have hbase : ramBase ≤ ramBase + UInt32.ofNat a := by
      rw [UInt32.le_iff_toNat_le, haddr]
      exact Nat.le_add_right _ _
    rw [Platform.ramOffset?, hsub, hoffset, if_pos]
    rw [Bool.and_eq_true, decide_eq_true_iff, decide_eq_true_iff]
    exact ⟨hbase, ha⟩
  rw [Bus.byteSeen, read_ram hram]
  simp only [hoffset, Width.bytes, Bytes.littleEndianAt_one]

end FlatPlatform

/-! ## A cache that shows the bytes of an array -/

namespace Cache

variable {υ : Type} [StorageUnit υ] [ReliableUnit υ]

/-- A coherent cache that shows the bytes of `ram` from address zero on. -/
structure Mirrors (c : Cache υ) (ram : ByteArray) : Prop where
  coherent : c.Coherent
  size_le : ram.size ≤ c.store.size
  byte : ∀ a < ram.size, c.contents a = Bytes.byteAt ram a

namespace Mirrors

variable {c : Cache υ} {ram : ByteArray}

/-- An aligned read answers the number in the array. -/
theorem readNumber (h : c.Mirrors ram) {width : Width} {addr : UInt32}
    (halign : width.bytes ∣ addr.toNat) (hrange : addr.toNat + width.bytes ≤ ram.size) :
    ∃ c', Cache.readNumber width addr c =
      .ok (UInt32.ofNat (Bytes.littleEndianAt ram addr.toNat width.bytes)) c' ∧ c'.Mirrors ram := by
  have hadmits := h.coherent.geometry.admits halign (hrange.trans h.size_le)
  obtain ⟨c', hread, hfollows, hcoherent, hcontents⟩ := read_succeeds h.coherent hadmits
  refine ⟨c', ?_, hcoherent, ?_, ?_⟩
  · have hnumber : Bytes.littleEndianAt (c.contents.read addr.toNat width.bytes) 0 width.bytes
        = Bytes.littleEndianAt ram addr.toNat width.bytes := by
      apply Bytes.littleEndianAt_congr
      intro i hi
      rw [Nat.zero_add, Memory.byteAt_read _ _ hi, h.byte _ (by omega)]
    simp only [Cache.readNumber, bind, EStateM.bind, hread, hnumber]
    rfl
  · rw [hfollows.size]
    exact h.size_le
  · intro a ha
    rw [hcontents a (ha.trans_le h.size_le), h.byte a ha]

/-- An aligned write does to the cache what it does to the array. -/
theorem writeNumber (h : c.Mirrors ram) {width : Width} {addr : UInt32} (value : UInt32)
    (halign : width.bytes ∣ addr.toNat) (hrange : addr.toNat + width.bytes ≤ ram.size) :
    ∃ c', Cache.writeNumber width addr value c = .ok () c' ∧
      c'.Mirrors (Bytes.overlay ram addr.toNat (Bytes.littleEndian width.bytes value.toNat)) := by
  have hadmits := h.coherent.geometry.admits halign (hrange.trans h.size_le)
  rw [← Bytes.size_littleEndian width.bytes value.toNat] at hadmits
  obtain ⟨c', hwrite, hfollows, hcoherent, hcontents⟩ := write_succeeds h.coherent hadmits
  have hsize : (Bytes.overlay ram addr.toNat
      (Bytes.littleEndian width.bytes value.toNat)).size = ram.size := by
    rw [Bytes.size_overlay, Bytes.size_littleEndian]
    omega
  refine ⟨c', hwrite, hcoherent, ?_, ?_⟩
  · rw [hsize, hfollows.size]
    exact h.size_le
  · intro a ha
    rw [hsize] at ha
    rw [hcontents a (ha.trans_le h.size_le)]
    exact Memory.write_eq_byteAt_overlay (h.byte a ha) _ _

/-- Flushing does not show. -/
theorem flush (h : c.Mirrors ram) : ∃ c', Cache.flush c = .ok () c' ∧ c'.Mirrors ram := by
  obtain ⟨c', hflush, hkeeps⟩ := flush_succeeds h.coherent.toWellFormed
  refine ⟨c', hflush, hkeeps.coherent h.coherent, ?_, ?_⟩
  · rw [hkeeps.size]
    exact h.size_le
  · intro a ha
    rw [hkeeps.contents, h.byte a ha]

end Mirrors

end Cache

/-! ## The debug channel -/

theorem FlatPlatform.stringAt_of_size_le {ram : ByteArray} {i : Nat} (h : ram.size ≤ i) :
    stringAt ram i = ByteArray.empty := by
  rw [stringAt, List.drop_eq_nil_of_le h]
  rfl

/-- A string starts with its first byte, unless that is zero. -/
theorem FlatPlatform.stringAt_of_lt {ram : ByteArray} {i : Nat} (h : i < ram.size) :
    stringAt ram i =
      if Bytes.byteAt ram i = 0 then ByteArray.empty
      else [Bytes.byteAt ram i].toByteArray ++ stringAt ram (i + 1) := by
  have hlt : i < ram.data.toList.length := h
  have hbyte : ram.data.toList[i] = Bytes.byteAt ram i := (Bytes.byteAt_of_lt h).symm
  rw [stringAt, List.drop_eq_getElem_cons hlt, List.takeWhile_cons, hbyte]
  by_cases hzero : Bytes.byteAt ram i = 0
  · rw [if_pos hzero, hzero]
    rfl
  · rw [if_neg hzero, if_pos (bne_iff_ne.mpr hzero), stringAt, ← List.toByteArray_append]
    rfl

namespace DebugChannel

variable {υ : Type} [StorageUnit υ] [ReliableUnit υ]

/-- Printing a string walks along the bytes of RAM. -/
theorem printString_mirrors {c : Cache υ} {ram : ByteArray} (h : c.Mirrors ram)
    (hsize : ram.size < 2 ^ 32) (output : ByteArray) {n : Nat} {offset : UInt32}
    (hn : n = ram.size - offset.toNat) :
    ∃ c', printString n offset (c, output) =
      .ok () (c', output ++ FlatPlatform.stringAt ram offset.toNat) ∧ c'.Mirrors ram := by
  induction n generalizing c output offset with
  | zero =>
      have hpast : ram.size ≤ offset.toNat := by omega
      refine ⟨c, ?_, h⟩
      rw [FlatPlatform.stringAt_of_size_le hpast, ByteArray.append_empty]
      rfl
  | succ n ih =>
      have hlt : offset.toNat < ram.size := by omega
      have halign : Width.byte.bytes ∣ offset.toNat := Nat.one_dvd _
      -- reading a byte may move blocks, but the cache goes on showing RAM
      obtain ⟨c₁, hread, h₁⟩ := h.readNumber halign hlt
      have hnext : (offset + 1).toNat = offset.toNat + 1 := by
        rw [UInt32.toNat_add, UInt32.toNat_one]
        omega
      rw [Width.bytes, Bytes.littleEndianAt_one] at hread
      rw [FlatPlatform.stringAt_of_lt hlt]
      simp only [printString, hread]
      by_cases hzero : Bytes.byteAt ram offset.toNat = 0
      · refine ⟨c₁, ?_, h₁⟩
        rw [if_pos hzero, hzero, ByteArray.append_empty]
        rfl
      · have hvalue : (Bytes.byteAt ram offset.toNat).toUInt32 ≠ 0 := by
          intro hvalue
          apply hzero
          rw [← UInt8.toUInt8_toUInt32 (Bytes.byteAt ram offset.toNat), hvalue]
          rfl
        obtain ⟨c₂, hrest, h₂⟩ := ih h₁ (output.push (Bytes.byteAt ram offset.toNat))
          (show n = ram.size - (offset + 1).toNat by omega)
        refine ⟨c₂, ?_, h₂⟩
        rw [if_neg hzero, if_neg hvalue, UInt8.toUInt8_toUInt32, hrest, hnext,
          Bytes.push_eq_append, ByteArray.append_assoc]

/-- A register of the channel prints what it prints from flat RAM. -/
theorem write_mirrors {c : Cache υ} {ram : ByteArray} (h : c.Mirrors ram) {ramSize : UInt32}
    (hsize : ram.size = ramSize.toNat) (output : ByteArray) (number value : UInt32) :
    ∃ c', write ramSize number value (c, output) =
      .ok () (c', output ++ FlatPlatform.printed ram number value) ∧ c'.Mirrors ram := by
  unfold write FlatPlatform.printed
  by_cases hsigned : number = 0x136
  · simp only [if_pos hsigned]
    exact ⟨c, rfl, h⟩
  by_cases hhex : number = 0x137
  · simp only [if_neg hsigned, if_pos hhex]
    exact ⟨c, rfl, h⟩
  by_cases hstring : number = 0x138
  · simp only [if_neg hsigned, if_neg hhex, if_pos hstring]
    refine printString_mirrors h ?_ output ?_
    · rw [hsize]
      exact ramSize.toNat_lt
    · rw [hsize]
  by_cases hbyte : number = 0x139
  · simp only [if_neg hsigned, if_neg hhex, if_neg hstring, if_pos hbyte]
    exact ⟨c, rfl, h⟩
  · simp only [if_neg hsigned, if_neg hhex, if_neg hstring, if_neg hbyte, ByteArray.append_empty]
    exact ⟨c, rfl, h⟩

end DebugChannel

/-! ## The platform -/

/-- A platform whose cache shows the bytes of flat RAM and whose console is the same. -/
structure Platform.Shows {υ : Type} [StorageUnit υ] [ReliableUnit υ] (p : Platform υ)
    (flat : FlatPlatform) : Prop where
  cache : p.cache.Mirrors flat.ram
  size : flat.ram.size = flat.ramSize.toNat
  console : p.console = flat.console
  ramSize : p.ramSize = flat.ramSize

namespace Platform

variable {υ : Type} [StorageUnit υ] [ReliableUnit υ]

/-- The only fault of a bus over reliable units. -/
def Unmapped (fault : BusFault) : Prop := fault = .unmapped

theorem onConsole_simulates {α : Type} (request : StateM GuestConsole α) :
    Simulates Unmapped Shows (onConsole (υ := υ) request) (FlatPlatform.onConsole request) := by
  rintro ⟨cache, console, ramSize⟩ ⟨ram, _, _⟩ ⟨hcache, hsize, rfl, rfl⟩
  exact ⟨rfl, hcache, hsize, rfl, rfl⟩

theorem read_simulates {width : Width} {addr : UInt32} (halign : width.aligned addr) :
    Simulates Unmapped (Shows (υ := υ)) (read width addr) (FlatPlatform.read width addr) := by
  intro p flat h
  have hconsole := onConsole_simulates (υ := υ) (readDevice width addr) p flat h
  obtain ⟨cache, console, ramSize⟩ := p
  obtain ⟨ram, _, _⟩ := flat
  obtain ⟨hcache, hsize, rfl, rfl⟩ := h
  unfold read FlatPlatform.read
  by_cases hdevice : isDevice addr
  · rw [if_pos hdevice, if_pos hdevice]
    exact hconsole
  · rw [if_neg hdevice, if_neg hdevice]
    simp only [bind, EStateM.bind, get, getThe, MonadStateOf.get, EStateM.get]
    cases hoffset : ramOffset? ramSize addr width with
    | none => exact ⟨rfl, rfl, hcache, hsize, rfl, rfl⟩
    | some offset =>
        obtain ⟨hdvd, hin⟩ := ramOffset?_eq_some hoffset halign
        obtain ⟨cache', hread, hcache'⟩ := hcache.readNumber hdvd (hin.trans_eq hsize.symm)
        simp only [onCache, hread]
        exact ⟨rfl, hcache', hsize, rfl, rfl⟩

theorem write_simulates {width : Width} {addr : UInt32} (value : UInt32)
    (halign : width.aligned addr) :
    Simulates Unmapped (Shows (υ := υ)) (write width addr value)
      (FlatPlatform.write width addr value) := by
  intro p flat h
  have hconsole := onConsole_simulates (υ := υ)
    (fun console => ((), writeDevice addr (width.truncate value) console)) p flat h
  obtain ⟨cache, console, ramSize⟩ := p
  obtain ⟨ram, _, _⟩ := flat
  obtain ⟨hcache, hsize, rfl, rfl⟩ := h
  unfold write FlatPlatform.write
  by_cases hdevice : isDevice addr
  · rw [if_pos hdevice, if_pos hdevice]
    exact hconsole
  · rw [if_neg hdevice, if_neg hdevice]
    simp only [bind, EStateM.bind, get, getThe, MonadStateOf.get, EStateM.get]
    cases hoffset : ramOffset? ramSize addr width with
    | none => exact ⟨rfl, rfl, hcache, hsize, rfl, rfl⟩
    | some offset =>
        obtain ⟨hdvd, hin⟩ := ramOffset?_eq_some hoffset halign
        obtain ⟨cache', hwrite, hcache'⟩ :=
          hcache.writeNumber value hdvd (hin.trans_eq hsize.symm)
        simp only [onCache, hwrite]
        refine ⟨rfl, hcache', ?_, rfl, rfl⟩
        show (Bytes.overlay ram offset.toNat _).size = ramSize.toNat
        rw [Bytes.size_overlay, Bytes.size_littleEndian,
          Nat.max_eq_left (hin.trans_eq hsize.symm)]
        exact hsize

theorem writeCsr_simulates (number value : UInt32) :
    Simulates Unmapped (Shows (υ := υ)) (writeCsr number value)
      (FlatPlatform.writeCsr number value) := by
  rintro ⟨cache, ⟨keys, output⟩, ramSize⟩ ⟨ram, _, _⟩ ⟨hcache, hsize, rfl, rfl⟩
  obtain ⟨cache', hwrite, hcache'⟩ :=
    DebugChannel.write_mirrors hcache hsize output number value
  simp only [writeCsr, hwrite]
  exact ⟨rfl, hcache', hsize, rfl, rfl⟩

/-- A platform over reliable units answers its bus as the flat platform does. -/
theorem busSimulation : BusSimulation Unmapped (Shows (υ := υ)) where
  read := read_simulates
  write := write_simulates
  readCsr number := onConsole_simulates (DebugChannel.read number)
  writeCsr := writeCsr_simulates

end Platform

end RiscvMachine
