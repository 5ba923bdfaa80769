import RiscvMachine.Proofs.Hart.Computations
import RiscvMachine.Proofs.Hart.Reservation
import RiscvMachine.Proofs.Isa.MemoryInstructions
import RiscvMachine.Proofs.Machine.Atomicity

set_option autoImplicit false

/-! # Memory instructions over flat RAM

What loads, stores and atomic operations do to the hart (`MemoryAssembly.effect`) and to the bytes
of RAM (`MemoryAssembly.storedByte?`), given the number that the addressed bytes hold before. Over
flat RAM each of them does just this when its address is aligned and lies in RAM
(`FlatPlatform.execute_memory`): there is one lemma for each function of the hart that makes the
access, and nothing in them depends on which registers are the same.

A platform that shows flat RAM answers as that does, so the same holds of it, of all that the hart
can see of its memory (`Platform.Shows.executeOne_accesses`).
-/

namespace RiscvMachine

/-- The number that the hart would read from the bytes from an address on, least significant byte
first. Where nothing answers there is a zero. -/
def Bus.numberSeen {σ : Type} [Bus σ] (bus : σ) (addr : UInt32) : Nat → Nat
  | 0 => 0
  | n + 1 => ((Bus.byteSeen bus addr).getD 0).toNat + 256 * numberSeen bus (addr + 1) n

/-! ## Bytes of numbers -/

theorem Bytes.littleEndianAt_lt (bytes : ByteArray) (i n : Nat) :
    littleEndianAt bytes i n < 256 ^ n := by
  induction n generalizing i with
  | zero => exact Nat.one_pos
  | succ n ih =>
      have hrest := ih (i + 1)
      have hbyte := (byteAt bytes i).toNat_lt
      rw [littleEndianAt, Nat.pow_succ]
      omega

theorem Bytes.littleEndianList_mod (n v : Nat) :
    littleEndianList n (v % 256 ^ n) = littleEndianList n v := by
  induction n generalizing v with
  | zero => rfl
  | succ n ih =>
      have hhead : UInt8.ofNat (v % 256 ^ (n + 1)) = UInt8.ofNat v := by
        apply UInt8.toNat_inj.mp
        rw [UInt8.toNat_ofNat', UInt8.toNat_ofNat', Nat.mod_mod_of_dvd]
        exact Dvd.intro_left (256 ^ n) rfl
      have htail : v % 256 ^ (n + 1) / 256 = v / 256 % 256 ^ n := by
        rw [Nat.pow_succ', Nat.mod_mul_right_div_self]
      rw [littleEndianList, littleEndianList, hhead, htail, ih]

theorem Bytes.littleEndian_mod (n v : Nat) : littleEndian n (v % 256 ^ n) = littleEndian n v := by
  rw [littleEndian, littleEndian, littleEndianList_mod]

theorem Width.toNat_truncate (width : Width) (value : UInt32) :
    (width.truncate value).toNat = value.toNat % 256 ^ width.bytes := by
  cases width with
  | byte => exact UInt32.toNat_toUInt8 value
  | half => exact UInt32.toNat_toUInt16 value
  | word => exact (Nat.mod_eq_of_lt value.toNat_lt).symm

/-! ## What the instructions mean -/

namespace Isa.MemoryAssembly

def address (i : MemoryAssembly) (h : Hart) : UInt32 :=
  UInt32.ofInt ((h.register i.base).toNat + i.offset)

/-- The register that receives a result, and the result, if the addressed bytes hold the number
`old`. A conditional store answers whether it has been refused. -/
def result? (h : Hart) (old : Nat) : MemoryAssembly → Option (RegIndex × UInt32)
  | load kind rd _ _ => some (rd, UInt32.ofInt (kind.value old))
  | store _ _ _ _ => none
  | loadReserved rd _ _ => some (rd, UInt32.ofNat old)
  | storeConditional rd rs1 _ _ =>
    some (rd, if h.reservation = some (h.register rs1) then 0 else 1)
  | amo _ rd _ _ _ => some (rd, UInt32.ofNat old)

/-- The word whose low bytes are left at the address, if anything is stored. -/
def stored? (h : Hart) (old : Nat) : MemoryAssembly → Option UInt32
  | load _ _ _ _ => none
  | store _ _ rs2 _ => some (h.register rs2)
  | loadReserved _ _ _ => none
  | storeConditional _ rs1 rs2 _ =>
    if h.reservation = some (h.register rs1) then some (h.register rs2) else none
  | amo op _ _ rs2 _ => some (UInt32.ofInt (op.value (UInt32.ofNat old) (h.register rs2)))

/-- The byte that is stored at an address, if one is. -/
def storedByte? (i : MemoryAssembly) (h : Hart) (old : Nat) (addr : UInt32) : Option UInt8 :=
  (i.stored? h old).bind fun value =>
    let k := (addr - i.address h).toNat
    if k < i.width.bytes then some (UInt8.ofNat (value.toNat / 256 ^ k)) else none

/-- The reservation afterwards. Storing in the reserved word drops it, and a conditional store
uses it up in any case. -/
def reservation (i : MemoryAssembly) (h : Hart) : Option UInt32 :=
  match i with
  | load _ _ _ _ => h.reservation
  | loadReserved _ _ _ => some (i.address h)
  | storeConditional _ _ _ _ => none
  | store _ _ _ _ | amo _ _ _ _ _ =>
    if h.reservation = some (i.address h &&& 0xFFFFFFFC) then none else h.reservation

def effect (i : MemoryAssembly) (old : Nat) (h : Hart) : Hart :=
  let reserved : Hart := { h.counted with reservation := i.reservation h }
  match i.result? h old with
  | some (rd, value) => reserved.finished rd value
  | none => { reserved with pc := h.pc + 4 }

/-- What the instruction does when it retires, from what the hart sees of its memory before. -/
structure Accesses {υ : Type} [StorageUnit υ] (i : MemoryAssembly) (c c' : Core (Platform υ)) :
    Prop where
  /-- The hart goes on to the next instruction. Nothing else changes in it but the registers, the
  cycles and the reservation. -/
  rest : c'.hart = { c.hart with
    pc := c.hart.pc + 4
    registers := c'.hart.registers
    csr := { c.hart.csr with cycle := c.hart.csr.cycle + 1 }
    reservation := i.reservation c.hart }
  /-- The result is in its register, unless that is register zero. -/
  result : ∀ rd value,
    i.result? c.hart (Bus.numberSeen c.bus (i.address c.hart) i.width.bytes) = some (rd, value) →
      rd ≠ 0 → c'.hart.register rd = value
  /-- The other registers, and the storage of register zero, are as they were. -/
  others : ∀ r : RegIndex,
    (∀ value, i.result? c.hart (Bus.numberSeen c.bus (i.address c.hart) i.width.bytes) =
      some (r, value) → r = 0) → c'.hart.registers.get r = c.hart.registers.get r
  /-- What is stored is in its bytes, and every other byte is seen as before. -/
  memory : ∀ addr, Bus.byteSeen c'.bus addr =
    match i.storedByte? c.hart (Bus.numberSeen c.bus (i.address c.hart) i.width.bytes) addr with
    | some byte => some byte.toUInt32
    | none => Bus.byteSeen c.bus addr
  console : c'.bus.console = c.bus.console
  ramSize : c'.bus.ramSize = c.bus.ramSize

section

variable (h : Hart) (rd rs1 rs2 : RegIndex) (imm : BitVec 12) (ordering : BitVec 2)

theorem address_load (kind : LoadKind) :
    (load kind rd rs1 imm).address h = h.register rs1 + UInt32.ofInt imm.toInt :=
  ofInt_toNat_add _ _

theorem address_store (width : Width) :
    (store width rs1 rs2 imm).address h = h.register rs1 + UInt32.ofInt imm.toInt :=
  ofInt_toNat_add _ _

theorem address_loadReserved : (loadReserved rd rs1 ordering).address h = h.register rs1 :=
  (ofInt_toNat_add _ _).trans (UInt32.add_zero _)

theorem address_storeConditional :
    (storeConditional rd rs1 rs2 ordering).address h = h.register rs1 :=
  (ofInt_toNat_add _ _).trans (UInt32.add_zero _)

theorem address_amo (op : AmoOp) : (amo op rd rs1 rs2 ordering).address h = h.register rs1 :=
  (ofInt_toNat_add _ _).trans (UInt32.add_zero _)

end

theorem effect_rest (i : MemoryAssembly) (old : Nat) (h : Hart) :
    i.effect old h = { h with
      pc := h.pc + 4
      registers := (i.effect old h).registers
      csr := { h.csr with cycle := h.csr.cycle + 1 }
      reservation := i.reservation h } := by
  unfold effect
  cases i.result? h old with
  | none => rfl
  | some pair =>
      simp only [Hart.finished]
      rw [Hart.setRegister_eq]
      rfl

theorem effect_result {i : MemoryAssembly} {old : Nat} {h : Hart} {rd : RegIndex}
    {value : UInt32} (hresult : i.result? h old = some (rd, value)) (hrd : rd ≠ 0) :
    (i.effect old h).register rd = value := by
  rw [effect, hresult]
  exact Hart.register_setRegister _ hrd value

theorem effect_others {i : MemoryAssembly} {old : Nat} {h : Hart} {r : RegIndex}
    (hr : ∀ value, i.result? h old = some (r, value) → r = 0) :
    (i.effect old h).registers.get r = h.registers.get r := by
  unfold effect
  cases hresult : i.result? h old with
  | none => rfl
  | some pair =>
      obtain ⟨rd, value⟩ := pair
      exact Hart.storage_setRegister _ (fun heq => heq ▸ hr value (heq ▸ hresult)) value

end Isa.MemoryAssembly

/-! ## Places in RAM -/

/-- An address is that of a place in RAM if the whole access lies there. -/
theorem Platform.ramOffset?_eq_some_iff {ramSize addr offset : UInt32} {width : Width} :
    ramOffset? ramSize addr width = some offset ↔
      addr.toNat = ramBase.toNat + offset.toNat ∧
        offset.toNat + width.bytes ≤ ramSize.toNat := by
  constructor
  · intro h
    refine ⟨toNat_ramOffset? h, ?_⟩
    unfold ramOffset? at h
    split at h
    · rename_i hin
      rw [Bool.and_eq_true, decide_eq_true_iff, decide_eq_true_iff] at hin
      cases h
      exact hin.2
    · cases h
  · rintro ⟨haddr, hle⟩
    have hbase : ramBase ≤ addr := UInt32.le_iff_toNat_le.mpr (by omega)
    have hoffset : addr - ramBase = offset := by
      apply UInt32.toNat_inj.mp
      rw [UInt32.toNat_sub_of_le _ _ hbase]
      omega
    rw [ramOffset?, hoffset, if_pos]
    rw [Bool.and_eq_true, decide_eq_true_iff, decide_eq_true_iff]
    exact ⟨hbase, hle⟩

/-! ## Over flat RAM -/

namespace FlatPlatform

open Isa

def number (p : FlatPlatform) (offset : UInt32) (width : Width) : Nat :=
  Bytes.littleEndianAt p.ram offset.toNat width.bytes

/-- RAM with the low bytes of a value at a place. -/
def put (p : FlatPlatform) (offset : UInt32) (width : Width) (value : UInt32) : FlatPlatform :=
  { p with ram := Bytes.overlay p.ram offset.toNat (Bytes.littleEndian width.bytes value.toNat) }

section

variable {p : FlatPlatform} {h : Hart} {addr offset : UInt32} {width : Width}

theorem callBus_read (hoffset : Platform.ramOffset? p.ramSize addr width = some offset)
    (cause : Trap) :
    Exec.callBus (Bus.read width addr) cause ⟨h, p⟩ =
      .ok (UInt32.ofNat (p.number offset width)) ⟨h, p⟩ := by
  simp only [Exec.callBus, read_ram hoffset, number]

theorem callBus_write (hoffset : Platform.ramOffset? p.ramSize addr width = some offset)
    (value : UInt32) (cause : Trap) :
    Exec.callBus (Bus.write width addr value) cause ⟨h, p⟩ =
      .ok () ⟨h, p.put offset width value⟩ := by
  simp only [Exec.callBus, write_ram value hoffset, put]

/-- The registers of the hart that have addresses lie below RAM. -/
theorem ne_of_ramOffset? {ramSize fixed : UInt32}
    (hoffset : Platform.ramOffset? ramSize addr width = some offset)
    (hfixed : fixed.toNat < ramBase.toNat) : addr ≠ fixed := by
  rintro rfl
  have haddr := Platform.toNat_ramOffset? hoffset
  omega

theorem load_ram (word : UInt32) {kind : LoadKind} (haligned : kind.width.aligned addr)
    (hoffset : Platform.ramOffset? p.ramSize addr kind.width = some offset) :
    Exec.load word (some kind) addr ⟨h, p⟩ =
      .ok (kind.extend (UInt32.ofNat (p.number offset kind.width))) ⟨h, p⟩ := by
  have hlow := ne_of_ramOffset? hoffset (show timerLowAddr.toNat < ramBase.toNat by decide)
  have hhigh := ne_of_ramOffset? hoffset (show timerHighAddr.toNat < ramBase.toNat by decide)
  simp only [Exec.load, hlow, hhigh, haligned, if_false, Bool.not_true,
    Bool.false_eq_true, bind, EStateM.bind, callBus_read hoffset]
  rfl

/-- A hart that drops its reservation of a word, if it has one. -/
theorem dropReservation_apply (word : UInt32) (bus : FlatPlatform) :
    Exec.dropReservation word ⟨h, bus⟩ =
      .ok () ⟨{ h with reservation := if h.reservation = some word then none else h.reservation },
        bus⟩ := by
  simp only [Exec.dropReservation, Exec.onHart]
  split <;> rfl

theorem store_ram (word value : UInt32) (haligned : width.aligned addr)
    (hoffset : Platform.ramOffset? p.ramSize addr width = some offset) :
    Exec.store word (some width) addr value ⟨h, p⟩ =
      .ok .next ⟨{ h with
          pc := h.pc + 4
          reservation :=
            if h.reservation = some (addr &&& 0xFFFFFFFC) then none else h.reservation },
        p.put offset width (width.truncate value)⟩ := by
  have hpower := ne_of_ramOffset? hoffset (show powerAddr.toNat < ramBase.toNat by decide)
  have hlow := ne_of_ramOffset? hoffset (show timerMatchLowAddr.toNat < ramBase.toNat by decide)
  have hhigh := ne_of_ramOffset? hoffset (show timerMatchHighAddr.toNat < ramBase.toNat by decide)
  simp only [Exec.store, hpower, hlow, hhigh, haligned, if_false, Bool.not_true,
    Bool.false_eq_true, bind, EStateM.bind, dropReservation_apply, callBus_write hoffset]
  rfl

theorem loadReserved_ram (rd : RegIndex) (haligned : Width.word.aligned addr)
    (hoffset : Platform.ramOffset? p.ramSize addr .word = some offset) :
    Exec.loadReserved rd addr ⟨h, p⟩ =
      .ok .next ⟨{ h with reservation := some addr }.finished rd
        (UInt32.ofNat (p.number offset .word)), p⟩ := by
  simp only [Exec.loadReserved, haligned, if_false, Bool.not_true,
    Bool.false_eq_true, bind, EStateM.bind, callBus_read hoffset]
  rfl

theorem storeConditional_ram (rd : RegIndex) (value : UInt32)
    (haligned : Width.word.aligned addr)
    (hoffset : Platform.ramOffset? p.ramSize addr .word = some offset) :
    Exec.storeConditional rd addr value ⟨h, p⟩ =
      if h.reservation = some addr then
        .ok .next ⟨{ h with reservation := none }.finished rd 0, p.put offset .word value⟩
      else .ok .next ⟨{ h with reservation := none }.finished rd 1, p⟩ := by
  simp only [Exec.storeConditional, Exec.raise_bind, haligned, if_false, Bool.not_true,
    Bool.false_eq_true, Exec.getHart_bind_apply, Exec.onHart_bind_apply]
  by_cases hreserved : h.reservation = some addr
  · simp only [hreserved, if_true, bind, EStateM.bind, callBus_write hoffset]
    rfl
  · simp only [hreserved, if_false]
    rfl

theorem atomicUpdate_ram (word : UInt32) (op : AmoOp) (rd : RegIndex) (operand : UInt32)
    (haligned : Width.word.aligned addr)
    (hoffset : Platform.ramOffset? p.ramSize addr .word = some offset) :
    Exec.atomicUpdate word (some op) rd addr operand ⟨h, p⟩ =
      .ok .next ⟨{ h with
          reservation := if h.reservation = some addr then none else h.reservation }.finished rd
            (UInt32.ofNat (p.number offset .word)),
        p.put offset .word (op.apply (UInt32.ofNat (p.number offset .word)) operand)⟩ := by
  simp only [Exec.atomicUpdate, haligned, if_false, Bool.not_true,
    Bool.false_eq_true, bind, EStateM.bind, callBus_read hoffset, callBus_write hoffset,
    dropReservation_apply]
  rfl

end

/-! ### Whole instructions -/

def afterAccess (p : FlatPlatform) (i : MemoryAssembly) (h : Hart) (offset : UInt32) :
    FlatPlatform :=
  match i.stored? h (p.number offset i.width) with
  | some value => p.put offset i.width value
  | none => p

/-- Only the low bytes of a value are stored. -/
theorem put_truncate (p : FlatPlatform) (offset : UInt32) (width : Width) (value : UInt32) :
    p.put offset width (width.truncate value) = p.put offset width value := by
  rw [put, put, Width.toNat_truncate, Bytes.littleEndian_mod]

theorem number_lt (p : FlatPlatform) (offset : UInt32) (width : Width) :
    p.number offset width < 256 ^ width.bytes :=
  Bytes.littleEndianAt_lt _ _ _

/-- After its fetch, an instruction that accesses RAM where it may does what it means. -/
theorem execute_memory (i : MemoryAssembly) (word : UInt32) {h : Hart} {p : FlatPlatform}
    {offset : UInt32} (haligned : i.width.aligned (i.address h))
    (hoffset : Platform.ramOffset? p.ramSize (i.address h) i.width = some offset) :
    Exec.execute word i.instruction ⟨h.counted, p⟩ =
      .ok .next ⟨i.effect (p.number offset i.width) h, p.afterAccess i h offset⟩ := by
  cases i with
  | load kind rd rs1 imm =>
      rw [MemoryAssembly.address_load] at haligned hoffset
      have hload := load_ram (h := h.counted) word haligned hoffset
      rw [kind.extend_eq (p.number_lt offset kind.width)] at hload
      change EStateM.bind (Exec.load word (some kind) (h.register rs1 + UInt32.ofInt imm.toInt))
        (Exec.finish rd) ⟨h.counted, p⟩ = _
      rw [EStateM.bind, hload]
      rfl
  | store width rs1 rs2 imm =>
      have hstore := store_ram (h := h.counted) word (h.register rs2)
        (MemoryAssembly.address_store h rs1 rs2 imm width ▸ haligned)
        (MemoryAssembly.address_store h rs1 rs2 imm width ▸ hoffset)
      rw [put_truncate] at hstore
      refine hstore.trans ?_
      rw [← MemoryAssembly.address_store h rs1 rs2 imm width]
      rfl
  | loadReserved rd rs1 ordering =>
      have hload := loadReserved_ram (h := h.counted) rd haligned hoffset
      rw [MemoryAssembly.address_loadReserved] at hload
      refine hload.trans ?_
      rw [← MemoryAssembly.address_loadReserved h rd rs1 ordering]
      rfl
  | storeConditional rd rs1 rs2 ordering =>
      rw [MemoryAssembly.address_storeConditional] at haligned hoffset
      have hconditional :=
        storeConditional_ram (h := h.counted) rd (h.register rs2) haligned hoffset
      rw [Hart.reservation_counted] at hconditional
      refine hconditional.trans ?_
      -- the fetch has left the reservation as it was
      by_cases hreserved : h.reservation = some (h.register rs1)
      · rw [if_pos hreserved]
        simp only [MemoryAssembly.effect, MemoryAssembly.result?, afterAccess,
          MemoryAssembly.stored?, if_pos hreserved]
        rfl
      · rw [if_neg hreserved]
        simp only [MemoryAssembly.effect, MemoryAssembly.result?, afterAccess,
          MemoryAssembly.stored?, if_neg hreserved]
        rfl
  | amo op rd rs1 rs2 ordering =>
      rw [MemoryAssembly.address_amo] at haligned hoffset
      refine (atomicUpdate_ram word op rd (h.register rs2) haligned hoffset).trans ?_
      rw [op.apply_eq]
      -- the reservation that is dropped is that of the word itself
      simp only [MemoryAssembly.effect, MemoryAssembly.reservation, MemoryAssembly.address_amo,
        Width.and_eq_of_aligned haligned]
      rfl

theorem toNat_serialLoad_lt (offset : UInt32) (console : GuestConsole) :
    (SerialLine.load offset console).1.toNat < 256 := by
  unfold SerialLine.load
  split
  · obtain ⟨byte, hbyte⟩ : ∃ byte : UInt8, (GuestConsole.key console).1.getD 0 = byte := ⟨_, rfl⟩
    change ((GuestConsole.key console).1.getD 0).toUInt32.toNat < 256
    rw [UInt8.toNat_toUInt32]
    exact UInt8.toNat_lt _
  split
  · change (SerialLine.status console.keys).toNat < 256
    unfold SerialLine.status
    split <;> decide
  · exact Nat.zero_lt_of_lt (show 0 < 256 by decide)

/-- A device answers no more than a byte. -/
theorem toNat_readDevice_lt (width : Width) (addr : UInt32) (console : GuestConsole) :
    (Platform.readDevice width addr console).1.toNat < 256 := by
  unfold Platform.readDevice
  split
  · change (width.truncate (SerialLine.load (addr - serialBase) console).1).toNat < 256
    rw [Width.toNat_truncate]
    exact (Nat.mod_le _ _).trans_lt (toNat_serialLoad_lt _ console)
  · exact Nat.zero_lt_of_lt (show 0 < 256 by decide)

/-- A fetch from flat RAM leaves it as it is. From a device, where it may take a key, it brings no
more than a byte. -/
theorem fetch_flat {h : Hart} {p : FlatPlatform} {word : UInt32} {core : Core FlatPlatform}
    (hfetch : Exec.fetch ⟨h, p⟩ = .ok word core) : word.toNat < 256 ∨ core = ⟨h.counted, p⟩ := by
  simp only [Exec.fetch, Exec.raise_bind, Exec.getHart_bind_apply] at hfetch
  split at hfetch
  · cases hfetch
  split at hfetch
  · cases hfetch
  by_cases hdevice : Platform.isDevice h.pc
  · left
    have hread : Bus.read .word h.pc p = onConsole (Platform.readDevice .word h.pc) p :=
      if_pos hdevice
    simp only [bind, EStateM.bind, Exec.callBus, hread, onConsole] at hfetch
    cases hfetch
    exact toNat_readDevice_lt _ _ _
  · right
    cases hoffset : Platform.ramOffset? p.ramSize h.pc .word with
    | none =>
        have hread : Bus.read .word h.pc p = .error .unmapped p := by
          change FlatPlatform.read .word h.pc p = _
          rw [FlatPlatform.read, if_neg hdevice, hoffset]
        simp only [bind, EStateM.bind, Exec.callBus, hread] at hfetch
        cases hfetch
    | some offset =>
        simp only [bind, EStateM.bind, callBus_read hoffset] at hfetch
        cases hfetch
        rfl

/-- An instruction that accesses RAM where it may, from its fetch on. -/
theorem executeOne_memory {i : MemoryAssembly} {h : Hart} {p : FlatPlatform} {offset : UInt32}
    {core : Core FlatPlatform} (hfetch : Exec.fetch ⟨h, p⟩ = .ok i.encode core)
    (haligned : i.width.aligned (i.address h))
    (hoffset : Platform.ramOffset? p.ramSize (i.address h) i.width = some offset) :
    Exec.executeOne ⟨h, p⟩ =
      .ok .next ⟨i.effect (p.number offset i.width) h, p.afterAccess i h offset⟩ := by
  have hcore : core = ⟨h.counted, p⟩ := by
    refine (fetch_flat hfetch).resolve_left fun hlt => ?_
    -- such a word addresses nothing in RAM
    obtain ⟨hbase, hnonneg, hle⟩ := offset_of_encode_lt hlt
    have haddr := Platform.toNat_ramOffset? hoffset
    have hlow : (i.address h).toNat ≤ 1 := by
      rw [MemoryAssembly.address, hbase, toNat_ofInt]
      change ((0 + i.offset) % 2 ^ 32).toNat ≤ 1
      omega
    have hram : ramBase.toNat = 2147483648 := rfl
    omega
  rw [Exec.executeOne_of_decode (decode_memory_encode i) hfetch, hcore]
  exact execute_memory i i.encode haligned hoffset

/-! ### What is seen -/

theorem byteSeen_eq (p : FlatPlatform) (addr : UInt32) :
    Bus.byteSeen p addr =
      if Platform.isDevice addr then some (Platform.readDevice .byte addr p.console).1
      else (Platform.ramOffset? p.ramSize addr .byte).map fun offset =>
        (Bytes.byteAt p.ram offset.toNat).toUInt32 := by
  have hread : Bus.read .byte addr p = FlatPlatform.read .byte addr p := rfl
  rw [Bus.byteSeen, hread, FlatPlatform.read]
  by_cases hdevice : Platform.isDevice addr
  · rw [if_pos hdevice, if_pos hdevice]
    rfl
  · rw [if_neg hdevice, if_neg hdevice]
    cases Platform.ramOffset? p.ramSize addr .byte with
    | none => rfl
    | some offset =>
        simp only [Width.bytes, Bytes.littleEndianAt_one, Option.map_some]

/-- A number in RAM is seen byte by byte. -/
theorem numberSeen_ram {p : FlatPlatform} (hle : p.ramSize ≤ maxRamSize) (n : Nat) {a : Nat}
    (ha : a + n ≤ p.ramSize.toNat) :
    Bus.numberSeen p (ramBase + UInt32.ofNat a) n = Bytes.littleEndianAt p.ram a n := by
  induction n generalizing a with
  | zero => rfl
  | succ n ih =>
      have hnext : ramBase + UInt32.ofNat a + 1 = ramBase + UInt32.ofNat (a + 1) := by
        rw [UInt32.ofNat_add, UInt32.add_assoc]
        rfl
      rw [Bus.numberSeen, Bytes.littleEndianAt, byteSeen_ram hle (by omega), hnext,
        ih (by omega), Option.getD_some, UInt8.toNat_toUInt32]

theorem numberSeen_eq {p : FlatPlatform} {addr offset : UInt32} {width : Width}
    (hle : p.ramSize ≤ maxRamSize)
    (hoffset : Platform.ramOffset? p.ramSize addr width = some offset) :
    Bus.numberSeen p addr width.bytes = p.number offset width := by
  obtain ⟨haddr, hin⟩ := Platform.ramOffset?_eq_some_iff.mp hoffset
  have hsum : addr = ramBase + UInt32.ofNat offset.toNat := by
    apply UInt32.toNat_inj.mp
    have hlt := addr.toNat_lt
    rw [UInt32.toNat_add, UInt32.ofNat_toNat]
    omega
  rw [hsum, numberSeen_ram hle _ hin, number]

/-- What has been put into RAM is seen there, and everything else as before. -/
theorem byteSeen_put {p : FlatPlatform} {addr offset : UInt32} {width : Width}
    (hle : p.ramSize ≤ maxRamSize)
    (hoffset : Platform.ramOffset? p.ramSize addr width = some offset) (value a : UInt32) :
    Bus.byteSeen (p.put offset width value) a =
      if (a - addr).toNat < width.bytes then
        some (UInt8.ofNat (value.toNat / 256 ^ (a - addr).toNat)).toUInt32
      else Bus.byteSeen p a := by
  obtain ⟨haddr, hin⟩ := Platform.ramOffset?_eq_some_iff.mp hoffset
  have hsize : p.ramSize.toNat ≤ 2147483648 := UInt32.le_iff_toNat_le.mp hle
  have hbase : ramBase.toNat = 2147483648 := rfl
  -- the distance is taken modulo 2^32, but RAM does not reach so far that it matters
  have hdistance : addr.toNat + (a - addr).toNat = a.toNat ∨
      addr.toNat + (a - addr).toNat = 2 ^ 32 + a.toNat := by
    have ha := a.toNat_lt
    have hlt := addr.toNat_lt
    rw [UInt32.toNat_sub]
    omega
  have hput : (p.put offset width value).ramSize = p.ramSize := rfl
  have hconsole : (p.put offset width value).console = p.console := rfl
  by_cases hcovers : (a - addr).toNat < width.bytes
  · have hplace : Platform.ramOffset? p.ramSize a .byte =
        some (UInt32.ofNat (offset.toNat + (a - addr).toNat)) := by
      have hlt : offset.toNat + (a - addr).toNat < 2 ^ 32 := by omega
      rw [Platform.ramOffset?_eq_some_iff, UInt32.toNat_ofNat_of_lt' hlt]
      exact ⟨by omega, show _ + 1 ≤ _ by omega⟩
    have hlt : offset.toNat + (a - addr).toNat < 2 ^ 32 := by omega
    rw [if_pos hcovers, byteSeen_eq, if_neg (Platform.not_isDevice hplace), hput, hplace,
      Option.map_some, UInt32.toNat_ofNat_of_lt' hlt, put, Bytes.byteAt_overlay,
      Bytes.size_littleEndian, if_pos (by omega), Nat.add_sub_cancel_left,
      Bytes.byteAt_littleEndian hcovers]
  · rw [if_neg hcovers, byteSeen_eq, byteSeen_eq, hput, hconsole]
    cases hplace : Platform.ramOffset? p.ramSize a .byte with
    | none => simp only [Option.map_none]
    | some place =>
        have hplace' := (Platform.ramOffset?_eq_some_iff.mp hplace).1
        have hwrap := (a - addr).toNat_lt
        have houtside : ¬ (offset.toNat ≤ place.toNat ∧
            place.toNat < offset.toNat + width.bytes) := by
          omega
        have hbyte : Bytes.byteAt (p.put offset width value).ram place.toNat =
            Bytes.byteAt p.ram place.toNat := by
          rw [put, Bytes.byteAt_overlay, Bytes.size_littleEndian, if_neg houtside]
        simp only [Option.map_some, hbyte]

/-- What is seen after an instruction. -/
theorem byteSeen_afterAccess {i : MemoryAssembly} {h : Hart} {p : FlatPlatform} {offset : UInt32}
    (hle : p.ramSize ≤ maxRamSize)
    (hoffset : Platform.ramOffset? p.ramSize (i.address h) i.width = some offset) (a : UInt32) :
    Bus.byteSeen (p.afterAccess i h offset) a =
      match i.storedByte? h (p.number offset i.width) a with
      | some byte => some byte.toUInt32
      | none => Bus.byteSeen p a := by
  unfold afterAccess MemoryAssembly.storedByte?
  cases i.stored? h (p.number offset i.width) with
  | none => rfl
  | some value =>
      simp only [Option.bind_some]
      rw [byteSeen_put hle hoffset]
      by_cases hcovers : (a - i.address h).toNat < i.width.bytes
      · simp only [if_pos hcovers]
      · simp only [if_neg hcovers]

theorem console_afterAccess (i : MemoryAssembly) (h : Hart) (p : FlatPlatform)
    (offset : UInt32) : (p.afterAccess i h offset).console = p.console := by
  unfold afterAccess
  cases i.stored? h (p.number offset i.width) <;> rfl

theorem ramSize_afterAccess (i : MemoryAssembly) (h : Hart) (p : FlatPlatform)
    (offset : UInt32) : (p.afterAccess i h offset).ramSize = p.ramSize := by
  unfold afterAccess
  cases i.stored? h (p.number offset i.width) <;> rfl

end FlatPlatform

/-! ## Over a platform that shows flat RAM -/

namespace Platform.Shows

open Isa

variable {υ : Type} [StorageUnit υ] [ReliableUnit υ] {b : Platform υ} {p : FlatPlatform}

theorem numberSeen_eq (h : b.Shows p) (addr : UInt32) (n : Nat) :
    Bus.numberSeen b addr n = Bus.numberSeen p addr n := by
  induction n generalizing addr with
  | zero => rfl
  | succ n ih => rw [Bus.numberSeen, Bus.numberSeen, busSimulation.byteSeen_eq h, ih]

/-- An instruction that accesses RAM at an aligned address does what it means. -/
theorem executeOne_accesses (hshows : b.Shows p) (hle : p.ramSize ≤ maxRamSize)
    {i : MemoryAssembly} {h : Hart} {core : Core (Platform υ)}
    (hfetch : Exec.fetch ⟨h, b⟩ = .ok i.encode core)
    (haligned : i.width.aligned (i.address h)) {offset : UInt32}
    (hoffset : ramOffset? p.ramSize (i.address h) i.width = some offset) :
    ∃ core', Exec.executeOne ⟨h, b⟩ = .ok .next core' ∧ i.Accesses ⟨h, b⟩ core' := by
  have hrelated : Exec.Related Shows (⟨h, b⟩ : Core (Platform υ)) ⟨h, p⟩ := ⟨rfl, hshows⟩
  -- over flat RAM the same word is fetched, and there it is known what it does
  have hflat : ∃ core₁, Exec.fetch ⟨h, p⟩ = .ok i.encode core₁ := by
    have hagree := Exec.fetch_simulates busSimulation ⟨h, b⟩ ⟨h, p⟩ hrelated
    rw [hfetch] at hagree
    revert hagree
    cases Exec.fetch ⟨h, p⟩ with
    | ok word core₁ =>
        rintro ⟨rfl, -⟩
        exact ⟨core₁, rfl⟩
    | error why core₁ => exact False.elim
  obtain ⟨core₁, hflat⟩ := hflat
  have hone := FlatPlatform.executeOne_memory hflat haligned hoffset
  have hagree := Exec.executeOne_simulates busSimulation ⟨h, b⟩ ⟨h, p⟩ hrelated
  rw [hone] at hagree
  revert hagree
  cases Exec.executeOne (⟨h, b⟩ : Core (Platform υ)) with
  | error why core' => exact False.elim
  | ok flow core' =>
      rintro ⟨rfl, hhart, hshows'⟩
      refine ⟨core', rfl, ?_⟩
      -- the hart cannot tell the two buses apart, before and after
      have hnumber : Bus.numberSeen b (i.address h) i.width.bytes = p.number offset i.width := by
        rw [hshows.numberSeen_eq, FlatPlatform.numberSeen_eq hle hoffset]
      obtain ⟨hart', bus'⟩ := core'
      obtain rfl : hart' = i.effect (p.number offset i.width) h := hhart
      refine ⟨i.effect_rest _ h, ?_, ?_, ?_, ?_, ?_⟩
      · intro rd value hresult hrd
        rw [hnumber] at hresult
        exact MemoryAssembly.effect_result hresult hrd
      · intro r hr
        rw [hnumber] at hr
        exact MemoryAssembly.effect_others hr
      · intro addr
        rw [hnumber, busSimulation.byteSeen_eq hshows', busSimulation.byteSeen_eq hshows]
        exact FlatPlatform.byteSeen_afterAccess hle hoffset addr
      · rw [show bus'.console = _ from hshows'.console, FlatPlatform.console_afterAccess]
        exact hshows.console.symm
      · rw [show bus'.ramSize = _ from hshows'.ramSize, FlatPlatform.ramSize_afterAccess]
        exact hshows.ramSize.symm

end Platform.Shows

end RiscvMachine
