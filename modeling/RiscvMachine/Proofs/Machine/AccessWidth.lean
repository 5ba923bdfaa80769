import RiscvMachine.Proofs.Hart.Ignores
import RiscvMachine.Proofs.Machine.MemoryAccess
import RiscvMachine.Proofs.Machine.SessionMemory

set_option autoImplicit false

/-! # Access widths

How far an access narrower than a word keeps to its width, over any bus. An access that is not
naturally aligned traps whatever its address. A narrow load leaves an extension of so many bits,
and a narrow store depends on so many bits of its register (`Exec.store_truncate`), wherever the
access goes to the bus. The registers of the hart that have addresses are served before the width
is looked at: loads from the timer bring whole words, and stores to its match register and to the
power register take whole words (`Exec.executeOne_width`).

That a register is not looked at is the equation `Exec.Ignores`, which goes along the definition of
a store.
-/

namespace RiscvMachine

/-! ## Widths of values -/

namespace Width

/-- What is carried of a value depends on its low bits. -/
theorem truncate_eq_of_mod {width : Width} {value value' : UInt32}
    (h : value.toNat % 256 ^ width.bytes = value'.toNat % 256 ^ width.bytes) :
    width.truncate value = width.truncate value' := by
  apply UInt32.toNat_inj.mp
  rw [toNat_truncate, toNat_truncate, h]

/-- Natural alignment, by division. -/
theorem aligned_iff {width : Width} {addr : UInt32} :
    width.aligned addr = true ↔ width.bytes ∣ addr.toNat :=
  ⟨bytes_dvd_of_aligned, aligned_of_dvd⟩

/-- Words at multiples of four are aligned for every access. -/
theorem aligned_of_four {addr : UInt32} (h : 4 ∣ addr.toNat) (width : Width) :
    width.aligned addr = true :=
  aligned_of_dvd ((bytes_dvd_four width).trans h)

end Width

namespace Isa

/-- The word is what a load makes of some number of its width. -/
def LoadKind.Extends (kind : LoadKind) (word : UInt32) : Prop :=
  ∃ number < 256 ^ kind.width.bytes, word = UInt32.ofInt (kind.value number)

/-- A load keeps nothing of a value but its width. -/
theorem LoadKind.extend_truncate (kind : LoadKind) (value : UInt32) :
    kind.extend (kind.width.truncate value) = kind.extend value := by
  cases kind with
  | byte | byteUnsigned =>
      simp only [extend, width, Width.truncate, UInt8.toUInt8_toUInt32]
  | half | halfUnsigned =>
      simp only [extend, width, Width.truncate, UInt16.toUInt16_toUInt32]
  | word => rfl

/-- What a load leaves is an extension, whatever the bus has answered. -/
theorem LoadKind.extends_extend (kind : LoadKind) (value : UInt32) :
    kind.Extends (kind.extend value) := by
  have hlt : value.toNat % 256 ^ kind.width.bytes < 256 ^ kind.width.bytes :=
    Nat.mod_lt _ (Nat.pow_pos (by decide))
  refine ⟨value.toNat % 256 ^ kind.width.bytes, hlt, ?_⟩
  rw [← kind.extend_eq hlt, ← Width.toNat_truncate, UInt32.ofNat_toNat, extend_truncate]

end Isa

/-! ## The match register -/

namespace ControlRegisters

theorem withTimerMatchLow_inj {c : ControlRegisters} {a b : UInt32}
    (h : (c.withTimerMatchLow a).timerMatch = (c.withTimerMatchLow b).timerMatch) : a = b := by
  have hlow (v : UInt32) : (c.withTimerMatchLow v).timerMatch.toUInt32 = v := by
    simp only [withTimerMatchLow, UInt64.toUInt32_or, UInt64.toUInt32_and,
      UInt32.toUInt32_toUInt64, show (0xFFFFFFFF00000000 : UInt64).toUInt32 = 0 from rfl,
      UInt32.and_zero, UInt32.zero_or]
  rw [← hlow a, h, hlow]

theorem withTimerMatchHigh_inj {c : ControlRegisters} {a b : UInt32}
    (h : (c.withTimerMatchHigh a).timerMatch = (c.withTimerMatchHigh b).timerMatch) : a = b := by
  have hhigh (v : UInt32) : (c.withTimerMatchHigh v).timerMatch.toNat / 2 ^ 32 = v.toNat := by
    have hv := v.toNat_lt
    have hmoved : (v.toUInt64 <<< 32).toNat = v.toNat * 2 ^ 32 := by
      rw [UInt64.toNat_shiftLeft, UInt32.toNat_toUInt64,
        show (32 : UInt64).toNat % 64 = 32 from rfl, Nat.shiftLeft_eq]
      omega
    have hkept : (c.timerMatch &&& 0xFFFFFFFF).toNat = c.timerMatch.toNat % 2 ^ 32 := by
      rw [UInt64.toNat_and]
      exact Nat.and_two_pow_sub_one_eq_mod _ 32
    have hlt : c.timerMatch.toNat % 2 ^ 32 < 2 ^ 32 := Nat.mod_lt _ (by decide)
    rw [withTimerMatchHigh, UInt64.toNat_or, hkept, hmoved, Nat.or_comm, Nat.mul_comm,
      ← Nat.two_pow_add_eq_or_of_lt hlt]
    omega
  apply UInt32.toNat_inj.mp
  rw [← hhigh a, h, hhigh]

end ControlRegisters

/-! ## Addresses of the hart's own registers -/

namespace Hart

/-- The word that the hart itself answers a load with, if the address is one of the timer's. -/
def timerWord? (h : Hart) (addr : UInt32) : Option UInt32 :=
  if addr = timerLowAddr then some (ControlRegisters.lowWord h.csr.timer)
  else if addr = timerHighAddr then some (ControlRegisters.highWord h.csr.timer)
  else none

theorem timerWord?_counted (h : Hart) (addr : UInt32) :
    h.counted.timerWord? addr = h.timerWord? addr :=
  rfl

/-- The addresses where the hart itself takes a store. -/
def storeAddresses : List UInt32 := [powerAddr, timerMatchLowAddr, timerMatchHighAddr]

theorem setRegister_zero (h : Hart) (value : UInt32) : h.setRegister 0 value = h := rfl

theorem register_setRegister_ne (h : Hart) {r r' : RegIndex} (hne : r' ≠ r) (value : UInt32) :
    (h.setRegister r value).register r' = h.register r' := by
  unfold register setRegister
  split
  · rfl
  split
  · rfl
  · exact Vector.getElem_set_ne r.isLt r'.isLt fun heq => hne (Fin.ext heq.symm)

end Hart

/-- An edit that leaves the general registers alone may come before or after writing one. -/
theorem Hart.setRegister_comm {edit : Hart → Hart}
    (hedit : ∀ (h : Hart) registers,
      edit { h with registers := registers } = { edit h with registers := registers })
    (r : RegIndex) (value : UInt32) (h : Hart) :
    edit (h.setRegister r value) = (edit h).setRegister r value := by
  have hkept : (edit h).registers = h.registers := (congrArg Hart.registers (hedit h h.registers) :)
  unfold setRegister
  split
  · rfl
  · rw [hedit, hkept]

/-- All of these addresses are multiples of four. -/
theorem ne_of_not_aligned (fixed : UInt32) {width : Width} {addr : UInt32}
    (hmisaligned : ¬ width.aligned addr = true) (hfixed : 4 ∣ fixed.toNat) : addr ≠ fixed := by
  rintro rfl
  exact hmisaligned (Width.aligned_of_four hfixed width)

/-- The exception for an access that is not aligned. Atomic operations count as stores. -/
def Isa.MemoryAssembly.misaligned (i : MemoryAssembly) (h : Hart) : Trap :=
  match i with
  | load _ _ _ _ | loadReserved _ _ _ => .loadAddressMisaligned (i.address h)
  | store _ _ _ _ | storeConditional _ _ _ _ | amo _ _ _ _ _ =>
    .storeAddressMisaligned (i.address h)

namespace Exec

open Isa

variable {σ : Type}

/-! ## Accesses that are not aligned -/

section

variable [Bus σ] {addr : UInt32} {core : Core σ}

theorem load_misaligned (word : UInt32) {kind : LoadKind}
    (h : ¬ kind.width.aligned addr = true) :
    load word (some kind) addr core = .error (.trap (.loadAddressMisaligned addr)) core := by
  have hlow := ne_of_not_aligned timerLowAddr h (by decide)
  have hhigh := ne_of_not_aligned timerHighAddr h (by decide)
  simp only [load, if_neg hlow, if_neg hhigh, h]
  rfl

theorem store_misaligned (word value : UInt32) {width : Width}
    (h : ¬ width.aligned addr = true) :
    store word (some width) addr value core =
      .error (.trap (.storeAddressMisaligned addr)) core := by
  have hpower := ne_of_not_aligned powerAddr h (by decide)
  have hlow := ne_of_not_aligned timerMatchLowAddr h (by decide)
  have hhigh := ne_of_not_aligned timerMatchHighAddr h (by decide)
  simp only [store, if_neg hpower, if_neg hlow, if_neg hhigh, h]
  rfl

/-- An access that is not aligned traps after its fetch and does nothing else. -/
theorem execute_misaligned (i : MemoryAssembly) (word : UInt32) {h : Hart} {bus : σ}
    (hmisaligned : ¬ i.width.aligned (i.address h) = true) :
    execute word i.instruction ⟨h.counted, bus⟩ =
      .error (.trap (i.misaligned h)) ⟨h.counted, bus⟩ := by
  cases i with
  | load kind rd rs1 offset =>
      rw [MemoryAssembly.misaligned, MemoryAssembly.address_load] at *
      change EStateM.bind (load word (some kind) (h.register rs1 + UInt32.ofInt offset.toInt))
        (finish rd) ⟨h.counted, bus⟩ = _
      rw [EStateM.bind, load_misaligned word hmisaligned]
  | store width rs1 rs2 offset =>
      rw [MemoryAssembly.misaligned, MemoryAssembly.address_store] at *
      exact store_misaligned word (h.register rs2) hmisaligned
  | loadReserved rd rs1 ordering =>
      rw [MemoryAssembly.misaligned, MemoryAssembly.address_loadReserved] at *
      change loadReserved rd (h.register rs1) ⟨h.counted, bus⟩ = _
      have hword : ¬ Width.word.aligned (h.register rs1) = true := hmisaligned
      simp only [loadReserved, hword]
      rfl
  | storeConditional rd rs1 rs2 ordering =>
      rw [MemoryAssembly.misaligned, MemoryAssembly.address_storeConditional] at *
      change storeConditional rd (h.register rs1) (h.register rs2) ⟨h.counted, bus⟩ = _
      have hword : ¬ Width.word.aligned (h.register rs1) = true := hmisaligned
      simp only [storeConditional, hword]
      rfl
  | amo op rd rs1 rs2 ordering =>
      rw [MemoryAssembly.misaligned, MemoryAssembly.address_amo] at *
      change atomicUpdate word (some op) rd (h.register rs1) (h.register rs2) ⟨h.counted, bus⟩ = _
      have hword : ¬ Width.word.aligned (h.register rs1) = true := hmisaligned
      simp only [atomicUpdate, hword]
      rfl

/-! ## Loads -/

/-- What a load that succeeds has found: the word of the timer if the address is one of its, and
an extension otherwise. -/
theorem load_answer {word value : UInt32} {kind : LoadKind} {core' : Core σ}
    (hok : load word (some kind) addr core = .ok value core') :
    match core.hart.timerWord? addr with
    | some timer => value = timer
    | none => kind.Extends value := by
  simp only [load, raise_bind] at hok
  unfold Hart.timerWord?
  split at hok
  · rw [if_pos ‹_›]
    cases hok
    rfl
  rw [if_neg ‹_›]
  split at hok
  · rw [if_pos ‹_›]
    cases hok
    rfl
  rw [if_neg ‹_›]
  split at hok
  · cases hok
  obtain ⟨read, core₁, -, hvalue⟩ := ok_of_bind hok
  cases hvalue
  exact kind.extends_extend read

end

/-! ## What a store looks at -/

section

variable (r : RegIndex) (v : UInt32)

theorem advance_ignores (flow : Flow) : Ignores (σ := σ) (·.setRegister r v) (advance flow) :=
  (Ignores.onHart (Hart.setRegister_comm (fun _ _ => rfl) r v)).bind fun _ => .pure flow

theorem dropReservation_ignores (addr : UInt32) :
    Ignores (σ := σ) (·.setRegister r v) (dropReservation addr) := by
  refine .onHart fun h => ?_
  rw [Hart.reservation_setRegister]
  split
  · unfold Hart.setRegister
    split <;> rfl
  · rfl

variable [Bus σ]

/-- A fetch looks at the program counter and the size of RAM only. -/
theorem fetch_ignores : Ignores (σ := σ) (·.setRegister r v) fetch := by
  simp only [fetch, raise_bind]
  refine .getHart (fun h => by rw [Hart.setRegister_eq]) fun h => ?_
  split
  · exact .raise _
  split
  · exact .raise _
  refine (Ignores.callBus _ _).bind fun word => ?_
  exact (Ignores.onHart (Hart.setRegister_comm (fun _ _ => rfl) r v)).bind fun _ => .pure word

/-- A store that has its address and its value looks at no register. -/
theorem store_ignores (word : UInt32) (width : Option Width) (addr value : UInt32) :
    Ignores (σ := σ) (·.setRegister r v) (store word width addr value) := by
  simp only [store, raise_bind]
  split
  · exact advance_ignores r v _
  split
  · exact (Ignores.onHart (Hart.setRegister_comm (fun _ _ => rfl) r v)).bind fun _ =>
      advance_ignores r v _
  split
  · exact (Ignores.onHart (Hart.setRegister_comm (fun _ _ => rfl) r v)).bind fun _ =>
      advance_ignores r v _
  cases width with
  | none => exact .raise _
  | some width =>
      simp only
      split
      · exact .raise _
      refine (dropReservation_ignores r v _).bind fun _ => ?_
      exact (Ignores.callBus _ _).bind fun _ => advance_ignores r v _

end

/-! ## What a store keeps of its value -/

section

variable [Bus σ] {addr : UInt32} {width : Width}

/-- A store that goes to the bus keeps nothing of its value but the width. -/
theorem store_truncate (word : UInt32) {value value' : UInt32} (haddr : addr ∉ Hart.storeAddresses)
    (hsame : width.truncate value = width.truncate value') :
    store (σ := σ) word (some width) addr value = store word (some width) addr value' := by
  simp only [Hart.storeAddresses, List.mem_cons, List.not_mem_nil, or_false, not_or] at haddr
  obtain ⟨hpower, hlow, hhigh⟩ := haddr
  simp only [store, if_neg hpower, if_neg hlow, if_neg hhigh, hsame]

/-- A store that the hart takes itself keeps all of its value. It answers it if it is to the power
register, and leaves it in the match register otherwise. -/
theorem store_whole (word : UInt32) {value value' : UInt32} (haddr : addr ∈ Hart.storeAddresses)
    (core : Core σ)
    (hanswer : answer? (store word (some width) addr value core) =
      answer? (store word (some width) addr value' core))
    (hmatch : (stateOf (store word (some width) addr value core)).hart.csr.timerMatch =
      (stateOf (store word (some width) addr value' core)).hart.csr.timerMatch) :
    value = value' := by
  rcases List.mem_cons.mp haddr with rfl | haddr
  · exact Flow.power.inj (Option.some.inj hanswer)
  rcases List.mem_cons.mp haddr with rfl | haddr
  · exact ControlRegisters.withTimerMatchLow_inj hmatch
  · cases List.mem_singleton.mp haddr
    exact ControlRegisters.withTimerMatchHigh_inj hmatch

/-- Some other value has the same low bits. -/
theorem exists_truncate_eq (hwidth : width ≠ .word) (value : UInt32) :
    ∃ value', width.truncate value' = width.truncate value ∧ value' ≠ value := by
  have hsum : (value + 0x80000000).toNat = (value.toNat + 2 ^ 31) % 2 ^ 32 :=
    UInt32.toNat_add value 0x80000000
  refine ⟨value + 0x80000000, Width.truncate_eq_of_mod ?_, ?_⟩
  · rw [hsum]
    cases width with
    | byte =>
        change _ % 256 = _ % 256
        omega
    | half =>
        change _ % 65536 = _ % 65536
        omega
    | word => exact absurd rfl hwidth
  · intro heq
    have hlt := value.toNat_lt
    rw [heq] at hsum
    omega

end

/-! ## Whole instructions -/

section

variable [Bus σ] {h : Hart} {bus bus₁ : σ}

/-- What a load that retires has left in its register. -/
theorem executeOne_load {kind : LoadKind} {rd rs1 : RegIndex} {offset : BitVec 12}
    (hfetch : fetch ⟨h, bus⟩ =
      .ok (MemoryAssembly.load kind rd rs1 offset).encode ⟨h.counted, bus₁⟩)
    (hrd : rd ≠ 0) {flow : Flow} {core' : Core σ} (hok : executeOne ⟨h, bus⟩ = .ok flow core') :
    kind.Extends (core'.hart.register rd) ↔
      ∀ timer, h.timerWord? ((MemoryAssembly.load kind rd rs1 offset).address h) = some timer →
        kind.Extends timer := by
  rw [executeOne_of_decode (decode_memory_encode _) hfetch] at hok
  obtain ⟨value, core₂, hload, hdone⟩ :=
    ok_of_bind (show (load _ (some kind) (h.register rs1 + UInt32.ofInt offset.toInt) >>=
      finish rd) ⟨h.counted, bus₁⟩ = .ok flow core' from hok)
  have hregister : core'.hart.register rd = value := by
    cases hdone
    exact Hart.register_setRegister core₂.hart hrd value
  have hanswer := load_answer hload
  rw [Hart.timerWord?_counted] at hanswer
  rw [hregister, MemoryAssembly.address_load]
  revert hanswer
  cases h.timerWord? (h.register rs1 + UInt32.ofInt offset.toInt) with
  | some timer =>
      rintro rfl
      simp only [Option.some.injEq, forall_eq']
  | none => exact fun hextends => ⟨fun _ _ => nofun, fun _ => hextends⟩

variable {width : Width} {rs1 rs2 : RegIndex} {offset : BitVec 12}

theorem executeOne_store
    (hfetch : fetch ⟨h, bus⟩ =
      .ok (MemoryAssembly.store width rs1 rs2 offset).encode ⟨h.counted, bus₁⟩) :
    executeOne ⟨h, bus⟩ =
      store (MemoryAssembly.store width rs1 rs2 offset).encode (some width)
        ((MemoryAssembly.store width rs1 rs2 offset).address h) (h.register rs2)
        ⟨h.counted, bus₁⟩ := by
  rw [executeOne_of_decode (decode_memory_encode _) hfetch, MemoryAssembly.address_store]
  rfl

/-- Another value in the register that a store takes its value from, but not its address. -/
theorem executeOne_store_other (hne : rs1 ≠ rs2)
    (hfetch : fetch ⟨h, bus⟩ =
      .ok (MemoryAssembly.store width rs1 rs2 offset).encode ⟨h.counted, bus₁⟩) (v : UInt32) :
    executeOne ⟨h.setRegister rs2 v, bus⟩ = amended (·.setRegister rs2 v)
      (store (MemoryAssembly.store width rs1 rs2 offset).encode (some width)
        ((MemoryAssembly.store width rs1 rs2 offset).address h) ((h.setRegister rs2 v).register rs2)
        ⟨h.counted, bus₁⟩) := by
  have hcounted : (h.setRegister rs2 v).counted = h.counted.setRegister rs2 v :=
    Hart.setRegister_comm (fun _ _ => rfl) rs2 v h
  have hfetch' : fetch ⟨h.setRegister rs2 v, bus⟩ =
      .ok (MemoryAssembly.store width rs1 rs2 offset).encode
        ⟨(h.setRegister rs2 v).counted, bus₁⟩ := by
    rw [hcounted]
    exact (fetch_ignores rs2 v ⟨h, bus⟩).trans (congrArg _ hfetch)
  have haddress : (MemoryAssembly.store width rs1 rs2 offset).address (h.setRegister rs2 v) =
      (MemoryAssembly.store width rs1 rs2 offset).address h := by
    rw [MemoryAssembly.address_store, MemoryAssembly.address_store,
      Hart.register_setRegister_ne h hne]
  rw [executeOne_store hfetch', haddress, hcounted]
  exact store_ignores rs2 v _ _ _ _ ⟨h.counted, bus₁⟩

/-- A value of the same low bits in the register of a narrow store that the hart does not take
itself. -/
theorem executeOne_store_truncate (hne : rs1 ≠ rs2)
    (hfetch : fetch ⟨h, bus⟩ =
      .ok (MemoryAssembly.store width rs1 rs2 offset).encode ⟨h.counted, bus₁⟩) {v : UInt32}
    (hv : width.truncate v = width.truncate (h.register rs2))
    (haddr : rs2 = 0 ∨
      (MemoryAssembly.store width rs1 rs2 offset).address h ∉ Hart.storeAddresses) :
    executeOne ⟨h.setRegister rs2 v, bus⟩ =
      amended (·.setRegister rs2 v) (executeOne ⟨h, bus⟩) := by
  rw [executeOne_store_other hne hfetch, executeOne_store hfetch]
  by_cases hrs2 : rs2 = 0
  · rw [hrs2, Hart.setRegister_zero]
  · rw [Hart.register_setRegister h hrs2, store_truncate _ (haddr.resolve_left hrs2) hv]

/-- Access widths, for the instructions that access memory, over any bus. An access that is not
naturally aligned traps after its fetch and does nothing else. A load that retires leaves an
extension of as many bits as it is wide, except that one from the timer leaves a whole word of it;
so what it leaves is an extension just if that word happens to be one. A narrow store with its
address in another register does the same, and makes the same calls, whatever the upper bits of
its register are, if and only if it is not to the match register or to the power register, which
take the whole register. -/
theorem executeOne_width (i : MemoryAssembly) {h : Hart} {bus : σ} {core : Core σ}
    (hfetch : fetch ⟨h, bus⟩ = .ok i.encode core) :
    (¬ i.width.bytes ∣ (i.address h).toNat →
      executeOne ⟨h, bus⟩ = .error (.trap (i.misaligned h)) ⟨h.counted, core.bus⟩ ∧
      executeOne (σ := Traced σ) ⟨h, bus, []⟩ =
        .error (.trap (i.misaligned h)) ⟨h.counted, core.bus, [⟨.read .word h.pc, none⟩]⟩) ∧
    (∀ kind rd rs1 offset, i = .load kind rd rs1 offset → rd ≠ 0 →
      ∀ flow core', executeOne ⟨h, bus⟩ = .ok flow core' →
        (kind.Extends (core'.hart.register rd) ↔
          ∀ timer, h.timerWord? (i.address h) = some timer → kind.Extends timer)) ∧
    ∀ width rs1 rs2 offset, i = .store width rs1 rs2 offset → width ≠ .word → rs1 ≠ rs2 →
      ((∀ v, width.truncate v = width.truncate (h.register rs2) →
        executeOne ⟨h.setRegister rs2 v, bus⟩ =
          amended (·.setRegister rs2 v) (executeOne ⟨h, bus⟩) ∧
        executeOne (σ := Traced σ) ⟨h.setRegister rs2 v, bus, []⟩ =
          amended (·.setRegister rs2 v) (executeOne (σ := Traced σ) ⟨h, bus, []⟩)) ↔
        rs2 = 0 ∨ i.address h ∉ Hart.storeAddresses) := by
  obtain ⟨hhart, htraced⟩ := fetch_traced hfetch
  obtain ⟨hart, bus₁⟩ := core
  obtain rfl : hart = h.counted := hhart
  refine ⟨?_, ?_, ?_⟩
  · intro hmisaligned
    have haligned := mt Width.aligned_iff.mp hmisaligned
    rw [executeOne_of_decode (decode_memory_encode i) hfetch,
      executeOne_of_decode (decode_memory_encode i) htraced]
    exact ⟨execute_misaligned i _ haligned, execute_misaligned i _ haligned⟩
  · rintro kind rd rs1 offset rfl hrd flow core' hok
    exact executeOne_load hfetch hrd hok
  · rintro width rs1 rs2 offset rfl hwidth hne
    constructor
    · intro hsame
      by_contra hkeeps
      obtain ⟨hrs2, haddr⟩ := not_or.mp hkeeps
      -- a value that differs in its upper bits only makes a difference
      obtain ⟨v, hv, hother⟩ := exists_truncate_eq hwidth (h.register rs2)
      have hone := (hsame v hv).1
      rw [executeOne_store_other hne hfetch, executeOne_store hfetch,
        Hart.register_setRegister h hrs2] at hone
      have hanswer := congrArg answer? hone
      have hmatch := congrArg (fun result => (stateOf result).hart.csr.timerMatch) hone
      simp only [answer?_amended, hart_amended, Hart.csr_setRegister] at hanswer hmatch
      exact hother (store_whole _ (not_not.mp haddr) _ hanswer hmatch)
    · intro haddr v hv
      exact ⟨executeOne_store_truncate hne hfetch hv haddr,
        executeOne_store_truncate hne htraced hv haddr⟩

end

/-- A new hart at some time, with the timer's address in a register. -/
def timed (r : RegIndex) (timer : UInt64) : Hart :=
  { holding r timerLowAddr with csr := { timer := timer } }

/-- `lbu x6, 0(x5)` from the timer brings nine bits of it. -/
theorem executeOne_width_timer :
    ∃ h', executeOne (σ := Rom)
        ⟨timed 5 0x180, ⟨(MemoryAssembly.load .byteUnsigned 6 5 0).encode⟩⟩ =
        .ok .next ⟨h', ⟨(MemoryAssembly.load .byteUnsigned 6 5 0).encode⟩⟩ ∧
      h'.register 6 = 0x180 ∧ ¬ LoadKind.byteUnsigned.Extends (h'.register 6) := by
  have hfetch : fetch (σ := Rom)
      ⟨timed 5 0x180, ⟨(MemoryAssembly.load .byteUnsigned 6 5 0).encode⟩⟩ =
      .ok (MemoryAssembly.load .byteUnsigned 6 5 0).encode
        ⟨(timed 5 0x180).counted, ⟨(MemoryAssembly.load .byteUnsigned 6 5 0).encode⟩⟩ := by rfl
  have hok : executeOne (σ := Rom)
      ⟨timed 5 0x180, ⟨(MemoryAssembly.load .byteUnsigned 6 5 0).encode⟩⟩ =
      .ok .next ⟨(timed 5 0x180).counted.finished 6 0x180,
        ⟨(MemoryAssembly.load .byteUnsigned 6 5 0).encode⟩⟩ := by rfl
  refine ⟨_, hok, rfl, ?_⟩
  rw [(executeOne_width _ hfetch).2.1 .byteUnsigned 6 5 0 rfl (by decide) _ _ hok]
  intro hextends
  obtain ⟨number, hlt, heq⟩ := hextends 0x180 rfl
  have hnat := congrArg UInt32.toNat heq
  rw [LoadKind.value, toNat_ofInt] at hnat
  have hbyte : number < 256 := hlt
  have htimer : (0x180 : UInt32).toNat = 384 := rfl
  omega

end Exec

end RiscvMachine
