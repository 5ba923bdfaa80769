import RiscvMachine.Proofs.Hart.Reservation
import RiscvMachine.Proofs.Machine.BootState
import RiscvMachine.Proofs.Machine.History

set_option autoImplicit false

/-! # Updates by reservation are atomic

A guest that reserves a word, computes, and stores conditionally must not lose an update that
came in between. Here this is stated of whole runs after a boot
(`Machine.storeConditional_atomic`): a store-conditional stores only if the word has been left
alone since the last load-reserved, and then the word holds what that load has read.

The invariant along a run (`Core.Guarded`) ties the reservation of the hart to the instructions
that have been executed and to the bytes of RAM. An instruction changes no byte of RAM that none
of its calls has written (`Core.after_shows`), so a word that is left alone stays as it is.
-/

namespace RiscvMachine

/-- The word that the hart would read at an address, if anything answers there. -/
def Bus.wordSeen {σ : Type} [Bus σ] (bus : σ) (addr : UInt32) : Option UInt32 :=
  answer? (Bus.read .word addr bus)

/-! ## What calls do to flat RAM -/

namespace FlatPlatform

/-- The request changes no byte of RAM but those that the call covers, and nothing at all if it
fails. -/
def Confined {α : Type} (call : BusCall) (request : EStateM BusFault FlatPlatform α) : Prop :=
  ∀ p, Ends
    (fun _ p' => p'.ramSize = p.ramSize ∧
      ∀ a, Bytes.byteAt p'.ram a = Bytes.byteAt p.ram a ∨ call.Covers (ramBase.toNat + a))
    (fun _ p' => p' = p) (request p)

theorem onConsole_confined {α : Type} (call : BusCall) (request : StateM GuestConsole α) :
    Confined call (onConsole request) :=
  fun _ => .ok ⟨rfl, fun _ => .inl rfl⟩

theorem read_confined (width : Width) (addr : UInt32) :
    Confined (.read width addr) (FlatPlatform.read width addr) := by
  intro p
  unfold FlatPlatform.read
  split
  · exact onConsole_confined _ _ p
  · split
    · exact .ok ⟨rfl, fun _ => .inl rfl⟩
    · exact .error rfl

theorem write_confined (width : Width) (addr value : UInt32) :
    Confined (.write width addr value) (FlatPlatform.write width addr value) := by
  intro p
  unfold FlatPlatform.write
  split
  · exact onConsole_confined _ _ p
  · split
    · rename_i offset hoffset
      refine .ok ⟨rfl, fun a => ?_⟩
      rw [Bytes.byteAt_overlay, Bytes.size_littleEndian]
      split
      · right
        have haddr := Platform.toNat_ramOffset? hoffset
        constructor <;> omega
      · exact .inl rfl
    · exact .error rfl

theorem writeCsr_confined (number value : UInt32) :
    Confined (.writeCsr number value) (FlatPlatform.writeCsr number value) :=
  fun _ => .ok ⟨rfl, fun _ => .inl rfl⟩

end FlatPlatform

namespace Platform

variable {υ : Type} [StorageUnit υ] [ReliableUnit υ]

/-- The platform shows flat RAM that differs from the earlier `p₀` in bytes only that the calls on
record have written. -/
structure Wrote (p₀ : FlatPlatform) (t : Traced (Platform υ)) (p : FlatPlatform) : Prop where
  shows : t.bus.Shows p
  ramSize : p.ramSize = p₀.ramSize
  byte (a : Nat) : Bytes.byteAt p.ram a = Bytes.byteAt p₀.ram a ∨
    ∃ event ∈ t.calls, event.Writes (ramBase.toNat + a)

theorem record_simulates {α : Type} {call : BusCall} {request : EStateM BusFault (Platform υ) α}
    {request' : EStateM BusFault FlatPlatform α} (h : Simulates Unmapped Shows request request')
    (hconfined : FlatPlatform.Confined call request') (p₀ : FlatPlatform) :
    Simulates Unmapped (Wrote p₀) (Traced.record call request) request' := by
  intro t p ht
  have hagree := h t.bus p ht.shows
  have hends := hconfined p
  -- what has been written stays on record
  have hbefore (last : BusEvent) (a : Nat) : Bytes.byteAt p.ram a = Bytes.byteAt p₀.ram a ∨
      ∃ event ∈ t.calls ++ [last], event.Writes (ramBase.toNat + a) := by
    rcases ht.byte a with hsame | ⟨earlier, hmem, hwrites⟩
    · exact .inl hsame
    · exact .inr ⟨earlier, List.mem_append_left _ hmem, hwrites⟩
  unfold Traced.record
  revert hagree hends
  cases request t.bus with
  | ok a bus =>
      cases request' p with
      | error fault p' => exact fun hagree _ => hagree.elim
      | ok b p' =>
          rintro ⟨rfl, hshows⟩ hends
          obtain ⟨hsize, hbytes⟩ := hends.of_ok
          refine ⟨rfl, hshows, hsize.trans ht.ramSize, fun i => ?_⟩
          rcases hbytes i with hsame | hcovers
          · rw [hsame]
            exact hbefore ⟨call, none⟩ i
          · exact .inr ⟨⟨call, none⟩, by simp, rfl, hcovers⟩
  | error fault bus =>
      cases request' p with
      | ok b p' => exact fun hagree _ => hagree.elim
      | error fault' p' =>
          rintro ⟨rfl, hE, hshows⟩ hends
          obtain rfl := hends.of_error
          exact ⟨rfl, hE, hshows, ht.ramSize, hbefore ⟨call, some fault⟩⟩

theorem tracedSimulation (p₀ : FlatPlatform) :
    BusSimulation Unmapped (Wrote (υ := υ) p₀) where
  read haligned := record_simulates (read_simulates haligned) (FlatPlatform.read_confined _ _) p₀
  write value haligned :=
    record_simulates (write_simulates value haligned) (FlatPlatform.write_confined _ _ value) p₀
  readCsr number :=
    record_simulates (onConsole_simulates (DebugChannel.read number))
      (FlatPlatform.onConsole_confined _ _) p₀
  writeCsr number value :=
    record_simulates (writeCsr_simulates number value) (FlatPlatform.writeCsr_confined _ _) p₀

end Platform

namespace Core

variable {υ : Type} [StorageUnit υ] [ReliableUnit υ]

/-- After an instruction the platform shows RAM in which no byte has changed but those that the
calls of the instruction have written. -/
theorem after_shows {c : Core (Platform υ)} {p : FlatPlatform} (h : c.bus.Shows p) :
    ∃ p', c.after.bus.Shows p' ∧ p'.ramSize = p.ramSize ∧
      ∀ a, Bytes.byteAt p'.ram a = Bytes.byteAt p.ram a ∨
        ∃ event ∈ c.calls, event.Writes (ramBase.toNat + a) := by
  have hstart : Platform.Wrote p c.traced.bus p := ⟨h, rfl, fun _ => .inl rfl⟩
  have hagree := Exec.executeOne_simulates (Platform.tracedSimulation p) c.traced ⟨c.hart, p⟩
    ⟨rfl, hstart⟩
  obtain ⟨-, hwrote⟩ := hagree.stateOf
  refine ⟨_, ?_, hwrote.ramSize, hwrote.byte⟩
  rw [after_eq]
  exact hwrote.shows

/-- A fetch leaves the bytes of RAM as they are. -/
theorem Fetches.shows {c c₁ : Core (Platform υ)} {instruction : Isa.Instruction}
    {p : FlatPlatform} (h : c.Fetches instruction c₁) (hshows : c.bus.Shows p) :
    ∃ p₁, c₁.bus.Shows p₁ ∧ p₁.ramSize = p.ramSize ∧
      ∀ a, Bytes.byteAt p₁.ram a = Bytes.byteAt p.ram a := by
  obtain ⟨word, hfetch, -⟩ := h
  have hstart : Platform.Wrote p c.traced.bus p := ⟨hshows, rfl, fun _ => .inl rfl⟩
  have hagree := Exec.fetch_simulates (Platform.tracedSimulation p) c.traced ⟨c.hart, p⟩
    ⟨rfl, hstart⟩
  obtain ⟨-, hwrote⟩ := hagree.stateOf
  have htraced : Exec.fetch c.traced =
      .ok word ⟨c.hart.counted, c₁.bus, [⟨.read .word c.hart.pc, none⟩]⟩ :=
    (Exec.fetch_traced hfetch).2
  rw [htraced] at hwrote
  refine ⟨_, hwrote.shows, hwrote.ramSize, fun a => (hwrote.byte a).resolve_right ?_⟩
  rintro ⟨event, hevent, -, hcovers⟩
  obtain rfl := List.mem_singleton.mp hevent
  exact hcovers

end Core

/-! ## What the hart sees of a word -/

def FlatPlatform.word (p : FlatPlatform) (offset : UInt32) : UInt32 :=
  UInt32.ofNat (Bytes.littleEndianAt p.ram offset.toNat 4)

theorem FlatPlatform.word_congr {p p' : FlatPlatform} {offset : UInt32}
    (h : ∀ i < 4, Bytes.byteAt p'.ram (offset.toNat + i) = Bytes.byteAt p.ram (offset.toNat + i)) :
    p'.word offset = p.word offset :=
  congrArg UInt32.ofNat (Bytes.littleEndianAt_congr h)

namespace Platform.Shows

variable {υ : Type} [StorageUnit υ] [ReliableUnit υ] {b : Platform υ} {p : FlatPlatform}

theorem wordSeen (h : b.Shows p) {addr offset : UInt32} (haligned : Width.word.aligned addr)
    (hoffset : ramOffset? p.ramSize addr .word = some offset) :
    Bus.wordSeen b addr = some (p.word offset) := by
  have hagree := busSimulation.read haligned b p h
  rw [FlatPlatform.read_ram hoffset] at hagree
  exact hagree.answer?_eq

theorem byteSeen (h : b.Shows p) (hle : p.ramSize ≤ maxRamSize) {a : Nat}
    (ha : a < p.ramSize.toNat) :
    Bus.byteSeen b (ramBase + UInt32.ofNat a) = some (Bytes.byteAt p.ram a).toUInt32 := by
  rw [busSimulation.byteSeen_eq h, FlatPlatform.byteSeen_ram hle ha]

/-- A word that is written to RAM is there afterwards, and the other bytes are as they were. -/
theorem writeWord (h : b.Shows p) {addr offset : UInt32} (value : UInt32)
    (haligned : Width.word.aligned addr)
    (hoffset : ramOffset? p.ramSize addr .word = some offset) :
    ∃ b' p', Bus.write .word addr value b = .ok () b' ∧ b'.Shows p' ∧ p'.ramSize = p.ramSize ∧
      p'.word offset = value ∧
      ∀ a, a < offset.toNat ∨ offset.toNat + 4 ≤ a →
        Bytes.byteAt p'.ram a = Bytes.byteAt p.ram a := by
  have hagree := busSimulation.write value haligned b p h
  rw [FlatPlatform.write_ram value hoffset] at hagree
  revert hagree
  cases Bus.write .word addr value b with
  | error fault b' => exact False.elim
  | ok _ b' =>
      rintro ⟨-, hshows⟩
      refine ⟨b', _, rfl, hshows, rfl, Bytes.littleEndianAt_overlay _ _ _, fun a ha => ?_⟩
      have hsize := Bytes.size_littleEndian Width.word.bytes value.toNat
      rw [Bytes.byteAt_overlay, if_neg]
      rw [hsize, show Width.word.bytes = 4 from rfl]
      omega

end Platform.Shows

namespace Core

variable {υ : Type} [StorageUnit υ] [ReliableUnit υ]

omit [ReliableUnit υ] in
/-- A word that an instruction leaves alone stays as it is. -/
theorem LeavesAlone.word {c : Core (Platform υ)} {p p' : FlatPlatform}
    {ramSize addr offset : UInt32} (h : c.LeavesAlone addr)
    (hbytes : ∀ a, Bytes.byteAt p'.ram a = Bytes.byteAt p.ram a ∨
      ∃ event ∈ c.calls, event.Writes (ramBase.toNat + a))
    (hoffset : Platform.ramOffset? ramSize addr .word = some offset) :
    p'.word offset = p.word offset := by
  apply FlatPlatform.word_congr
  intro i hi
  refine (hbytes (offset.toNat + i)).resolve_right ?_
  rintro ⟨event, hevent, hwrites⟩
  apply h.writes
  refine ⟨event, hevent, i, hi, ?_⟩
  rwa [Platform.toNat_ramOffset? hoffset, Nat.add_assoc]

/-- A load-reserved that retires leaves the word in RAM as it has read it. -/
theorem LoadsReserved.shows {c : Core (Platform υ)} {addr value : UInt32} {p : FlatPlatform}
    (h : c.LoadsReserved addr value) (haligned : Width.word.aligned addr)
    (hshows : c.bus.Shows p) :
    ∃ p', c.after.bus.Shows p' ∧ p'.ramSize = p.ramSize ∧
      ∀ offset, Platform.ramOffset? p.ramSize addr .word = some offset →
        p'.word offset = value := by
  cases hoffset : Platform.ramOffset? p.ramSize addr .word with
  | none =>
      obtain ⟨p', hshows', hsize', -⟩ := after_shows hshows
      exact ⟨p', hshows', hsize', nofun⟩
  | some offset =>
      obtain ⟨rd, rs1, c₁, bus, hfetch, -, hread, hone⟩ := h
      obtain ⟨p₁, hshows₁, hsize₁, -⟩ := hfetch.shows hshows
      have hagree := Platform.busSimulation.read haligned c₁.bus p₁ hshows₁
      rw [hread, FlatPlatform.read_ram (hsize₁ ▸ hoffset)] at hagree
      obtain ⟨hvalue, hshows'⟩ := hagree
      refine ⟨p₁, ?_, hsize₁, ?_⟩
      · rw [after, hone]
        exact hshows'
      · rintro _ ⟨⟩
        exact hvalue.symm

/-! ## The invariant of a run -/

/-- The last load-reserved of the states has read `value` from the word at `addr`, and none of the
instructions behind it bears upon a reservation of this word. -/
def ReservedSince {σ : Type} [Bus σ] (states : List (Core σ)) (addr value : UInt32) : Prop :=
  ∃ earlier c later, states = earlier ++ c :: later ∧ c.LoadsReserved addr value ∧
    ∀ c' ∈ later, c'.LeavesAlone addr

theorem ReservedSince.kept {σ : Type} [Bus σ] {states : List (Core σ)} {addr value : UInt32}
    (h : ReservedSince states addr value) {c : Core σ} (hc : c.LeavesAlone addr) :
    ReservedSince (states ++ [c]) addr value := by
  obtain ⟨earlier, load, later, rfl, hload, hlater⟩ := h
  refine ⟨earlier, load, later ++ [c], by simp, hload, ?_⟩
  intro c' hc'
  rcases List.mem_append.mp hc' with hc' | hc'
  · exact hlater c' hc'
  · rwa [List.mem_singleton.mp hc']

/-- The platform shows flat RAM, and what the hart has reserved is the word that the last
load-reserved of the past has read. As long as nothing bears upon it, it still holds that value. -/
def Guarded (ramSize : UInt32) (past : List (Core (Platform υ))) (c : Core (Platform υ)) : Prop :=
  ∃ p, c.bus.Shows p ∧ p.ramSize = ramSize ∧
    ∀ addr, c.hart.reservation = some addr → Width.word.aligned addr ∧
      ∃ value, ReservedSince past addr value ∧
        ∀ offset, Platform.ramOffset? ramSize addr .word = some offset → p.word offset = value

variable {ramSize : UInt32} {past : List (Core (Platform υ))} {c : Core (Platform υ)}

theorem Guarded.execute (h : Guarded ramSize past c) : Guarded ramSize (past ++ [c]) c.after := by
  obtain ⟨p, hshows, rfl, hguards⟩ := h
  have hreserves := after_reserves fun addr hreserved => (hguards addr hreserved).1
  obtain ⟨p', hshows', hsize', hbytes⟩ := after_shows hshows
  cases hreserved : c.after.hart.reservation with
  | none => exact ⟨p', hshows', hsize', by rw [hreserved]; exact nofun⟩
  | some addr =>
      rw [hreserved] at hreserves
      cases hreserves with
      | @made _ value hloads haligned =>
          obtain ⟨p₂, hshows₂, hsize₂, hword⟩ := hloads.shows haligned hshows
          refine ⟨p₂, hshows₂, hsize₂, ?_⟩
          rw [hreserved]
          rintro _ ⟨⟩
          exact ⟨haligned, value, ⟨past, c, [], rfl, hloads, List.forall_mem_nil _⟩, hword⟩
      | kept hbefore hleaves =>
          obtain ⟨haligned, value, hsince, hword⟩ := hguards addr hbefore
          refine ⟨p', hshows', hsize', ?_⟩
          rw [hreserved]
          rintro _ ⟨⟩
          refine ⟨haligned, value, hsince.kept hleaves, fun offset hoffset => ?_⟩
          rw [hleaves.word hbytes hoffset, hword offset hoffset]

theorem guarded_kept (ramSize : UInt32) : Machine.Kept (Guarded (υ := υ) ramSize) where
  execute := Guarded.execute
  turn hturn h := by
    -- neither time nor a trap touches the reservation
    cases hturn <;> exact h
  console console h := by
    obtain ⟨p, ⟨hcache, hsize, -, hramSize⟩, hp, hguards⟩ := h
    exact ⟨{ p with console := console }, ⟨hcache, hsize, rfl, hramSize⟩, hp, hguards⟩
  flush h := by
    obtain ⟨p, ⟨hcache, hsize, hconsole, hramSize⟩, hp, hguards⟩ := h
    obtain ⟨cache, hflush, hcache'⟩ := hcache.flush
    rw [hflush]
    exact ⟨p, ⟨hcache', hsize, hconsole, hramSize⟩, hp, hguards⟩

/-! ## Storing conditionally -/

/-- A store-conditional of `value` to the word at `addr` stores and answers zero. The word still
holds what the last load-reserved has read, and nothing has come between. -/
structure Stores (ramSize : UInt32) (past : List (Core (Platform υ))) (c : Core (Platform υ))
    (rd : RegIndex) (addr value : UInt32) : Prop where
  hart : c.after.hart = c.hart.afterConditional rd 0
  since : ∃ old, ReservedSince past addr old ∧ Bus.wordSeen c.bus addr = some old
  stored : Bus.wordSeen c.after.bus addr = some value
  others : ∀ a < ramSize.toNat,
    ramBase.toNat + a < addr.toNat ∨ addr.toNat + 4 ≤ ramBase.toNat + a →
    Bus.byteSeen c.after.bus (ramBase + UInt32.ofNat a) =
      Bus.byteSeen c.bus (ramBase + UInt32.ofNat a)

/-- A store-conditional leaves RAM as it is and answers one. -/
structure Declines (ramSize : UInt32) (c : Core (Platform υ)) (rd : RegIndex) : Prop where
  hart : c.after.hart = c.hart.afterConditional rd 1
  ram : ∀ a < ramSize.toNat,
    Bus.byteSeen c.after.bus (ramBase + UInt32.ofNat a) =
      Bus.byteSeen c.bus (ramBase + UInt32.ofNat a)

variable {c₁ : Core (Platform υ)} {rd rs1 rs2 : RegIndex}

/-- In RAM a store-conditional always retires. -/
theorem Guarded.storeConditional (h : Guarded ramSize past c) (hle : ramSize ≤ maxRamSize)
    (hfetch : c.Fetches (.storeConditional rd rs1 rs2) c₁)
    (haligned : Width.word.aligned (c.hart.register rs1)) {offset : UInt32}
    (hoffset : Platform.ramOffset? ramSize (c.hart.register rs1) .word = some offset) :
    Exec.executeOne c = .ok .next c.after ∧
      if c.hart.reservation = some (c.hart.register rs1) then
        c.Stores ramSize past rd (c.hart.register rs1) (c.hart.register rs2)
      else c.Declines ramSize rd := by
  obtain ⟨p, hshows, rfl, hguards⟩ := h
  obtain ⟨p₁, hshows₁, hsize₁, hbytes₁⟩ := hfetch.shows hshows
  have hoffset₁ : Platform.ramOffset? p₁.ramSize (c.hart.register rs1) .word = some offset := by
    rwa [hsize₁]
  have hle₁ : p₁.ramSize ≤ maxRamSize := by rwa [hsize₁]
  -- a reservation is guarded, so the word behind it is still the one that was read
  by_cases hreserved : c.hart.reservation = some (c.hart.register rs1)
  · have hone := hfetch.storeConditional_stores haligned hreserved
    obtain ⟨bus, p', hwrite, hshows', hsize', hstored, hothers⟩ :=
      hshows₁.writeWord (c.hart.register rs2) haligned hoffset₁
    rw [hwrite] at hone
    have hafter : c.after = ⟨c.hart.afterConditional rd 0, bus⟩ := by
      rw [after, hone, stateOf]
    obtain ⟨-, value, hsince, hword⟩ := hguards _ hreserved
    rw [if_pos hreserved]
    refine ⟨by rw [hafter, hone], ⟨by rw [hafter], ⟨value, hsince, ?_⟩, ?_, ?_⟩⟩
    · rw [hshows.wordSeen haligned hoffset, hword offset hoffset]
    · rw [hafter, hshows'.wordSeen haligned (by rwa [hsize']), hstored]
    · intro a ha houtside
      have haddr := Platform.toNat_ramOffset? hoffset
      have hsame := (hothers a (by omega)).trans (hbytes₁ a)
      rw [hafter, hshows'.byteSeen (by rwa [hsize']) (by rwa [hsize', hsize₁]),
        hshows.byteSeen hle ha, hsame]
  · have hone := hfetch.storeConditional_declines haligned hreserved
    have hafter : c.after = ⟨c.hart.afterConditional rd 1, c₁.bus⟩ := by
      rw [after, hone, stateOf]
    rw [if_neg hreserved]
    refine ⟨by rw [hafter, hone], ⟨by rw [hafter], fun a ha => ?_⟩⟩
    rw [hafter, hshows₁.byteSeen hle₁ (hsize₁ ▸ ha), hshows.byteSeen hle ha,
      hbytes₁]

end Core

/-! ## Lines that are too large -/

namespace Core

variable {υ : Type} [StorageUnit υ] {past : List (Core (Platform υ))} {c : Core (Platform υ)}

/-- The hart stands where it has been started, or where a trap has taken it from there, before lines
that are too large to be read. -/
structure Starved (_past : List (Core (Platform υ))) (c : Core (Platform υ)) : Prop where
  lineSize : c.bus.cache.geometry.lineSize.toNat.isPowerOfTwo
  wide : 2 ^ 31 < c.bus.cache.geometry.lineSize.toNat
  vacant : c.bus.cache.Vacant
  mtvec : c.hart.csr.mtvec = 0
  pc : c.hart.pc = ramBase ∨ c.hart.pc = 0

/-- Nothing is fetched, and the fetch changes nothing. -/
theorem Starved.fetch (h : Starved past c) : ∃ why, Exec.fetch c = .error why c := by
  obtain ⟨hart, bus⟩ := c
  obtain ⟨fault, hread⟩ : ∃ fault, Bus.read .word hart.pc bus = .error fault bus := by
    change ∃ fault, Platform.read .word hart.pc bus = .error fault bus
    have hram : Platform.isDevice hart.pc = false := by
      rcases h.pc with hpc | hpc
      · exact hpc ▸ rfl
      · exact hpc ▸ rfl
    simp only [Platform.read, hram, Bool.false_eq_true, if_false, bind, EStateM.bind, get, getThe,
      MonadStateOf.get, EStateM.get]
    cases Platform.ramOffset? bus.ramSize hart.pc .word with
    | none => exact ⟨_, rfl⟩
    | some offset =>
        have hcache := Cache.readNumber_wide h.lineSize h.wide .word offset
        refine ⟨.storage (.panic .shiftRight), ?_⟩
        simp only [Platform.onCache, hcache]
  simp only [Exec.fetch, Exec.raise_bind, Exec.getHart_bind_apply]
  split
  · exact ⟨_, rfl⟩
  split
  · exact ⟨_, rfl⟩
  simp only [bind, EStateM.bind, Exec.callBus, hread]
  cases fault with
  | unmapped => exact ⟨_, rfl⟩
  | storage error => exact ⟨_, rfl⟩

theorem starved_kept : Machine.Kept (Starved (υ := υ)) where
  execute {past c} h := by
    obtain ⟨why, hfetch⟩ := h.fetch
    have hone : Exec.executeOne c = .error why c := by
      simp only [Exec.executeOne_eq, bind, EStateM.bind, hfetch]
    rw [after, hone]
    exact ⟨h.lineSize, h.wide, h.vacant, h.mtvec, h.pc⟩
  turn hturn h := by
    cases hturn with
    | trap cause =>
        -- the handler of every trap starts at address zero
        refine ⟨h.lineSize, h.wide, h.vacant, h.mtvec, .inr ?_⟩
        have hmtvec := h.mtvec
        simp only [Hart.enterTrap] at hmtvec ⊢
        rw [hmtvec]
        rfl
    | _ => exact ⟨h.lineSize, h.wide, h.vacant, h.mtvec, h.pc⟩
  console console h := ⟨h.lineSize, h.wide, h.vacant, h.mtvec, h.pc⟩
  flush h := by
    rw [Cache.flush_of_vacant h.vacant]
    exact ⟨h.lineSize, h.wide, h.vacant, h.mtvec, h.pc⟩

end Core

/-- After a boot nothing is fetched through lines that are too large. -/
theorem Machine.Configured.lineSize_le_of_fetches {υ : Type} [StorageUnit υ] [ReliableUnit υ]
    {m m' : Machine υ} (hm : m.Configured) {source : InputSource} {info : BootInfo}
    (hboot : boot source m = .ok info m') {requests : List MachineRequest}
    {past later : List (Core (Platform υ))} {c c₁ : Core (Platform υ)}
    (hrun : executed requests m' = past ++ c :: later) {instruction : Isa.Instruction}
    (hfetch : c.Fetches instruction c₁) : m.config.cache.lineSize.toNat ≤ 2 ^ 31 := by
  by_contra hwide
  have hplaces := boot_places hm.store hm.ramSize_le_capacity (chunk_lt_of_boot hboot) source
  rw [hboot] at hplaces
  obtain ⟨plan, s, -, -, rfl, -⟩ := hplaces
  have hstart : Core.Starved [] (m.afterBoot plan s).core := by
    refine ⟨?_, ?_, m.cache.vacant_invalidate, rfl, .inl rfl⟩
    · change m.cache.geometry.lineSize.toNat.isPowerOfTwo
      rw [hm.geometry]
      exact hm.accepted.lineSize_isPowerOfTwo
    · change 2 ^ 31 < m.cache.geometry.lineSize.toNat
      rw [hm.geometry]
      exact Nat.lt_of_not_le hwide
  have halong := executed_along Core.starved_kept requests hstart
  rw [hrun] at halong
  obtain ⟨why, herror⟩ := halong.at.fetch
  obtain ⟨word, hok, -⟩ := hfetch
  rw [herror] at hok
  cases hok

namespace Machine

variable {υ : Type} [StorageUnit υ] [ReliableUnit υ]

/-- Storing conditionally in RAM is atomic, after a boot from any state and over every run. The
store is made just if the hart has reserved this word; then the last load-reserved that has retired
is one of this word, nothing has borne upon it since, and it still holds what that load has read.
Otherwise nothing is stored. In either case the reservation is used up. -/
theorem storeConditional_atomic {m m' : Machine υ} (hm : m.Configured)
    {source : InputSource} {info : BootInfo} (hboot : boot source m = .ok info m')
    {requests : List MachineRequest} {past later : List (Core (Platform υ))}
    {c c₁ : Core (Platform υ)} (hrun : executed requests m' = past ++ c :: later)
    {rd rs1 rs2 : RegIndex} (hfetch : c.Fetches (.storeConditional rd rs1 rs2) c₁)
    (haligned : Width.word.aligned (c.hart.register rs1)) :
    c.after.hart.reservation = none ∧
      ((Platform.ramOffset? m.config.ramSize (c.hart.register rs1) .word).isSome →
        Exec.executeOne c = .ok .next c.after ∧
        if c.hart.reservation = some (c.hart.register rs1) then
          c.Stores m.config.ramSize past rd (c.hart.register rs1) (c.hart.register rs2)
        else c.Declines m.config.ramSize rd) := by
  have hline := hm.lineSize_le_of_fetches hboot hrun hfetch
  obtain ⟨hhart, p, hshows, hsize⟩ := hm.shows_of_boot hline hboot
  have hstart : Core.Guarded m.config.ramSize [] m'.core := by
    refine ⟨p, hshows, hsize, ?_⟩
    have hnone : m'.core.hart.reservation = none := by
      rw [show m'.core.hart = _ from hhart]
      rfl
    rw [hnone]
    exact nofun
  have halong := executed_along (Core.guarded_kept m.config.ramSize) requests hstart
  rw [hrun] at halong
  have hguarded := halong.at
  rw [List.nil_append] at hguarded
  refine ⟨hfetch.storeConditional_reservation haligned, ?_⟩
  intro hram
  obtain ⟨offset, hoffset⟩ := Option.isSome_iff_exists.mp hram
  exact hguarded.storeConditional hm.accepted.ramSize_le hfetch haligned hoffset

/-- The guest takes its own address (`auipc`), reserves its first instruction and stores its
address over it, with nothing in between. -/
theorem storeConditional_atomic_reserved :
    let config : Config :=
      { ramSize := 32
        backing := { unitCount := 5, unitCapacity := 7 }
        cache := { lineSize := 4, lineCount := 2 } }
    let tree : DeviceTree := ⟨⟨#[0, 0, 0, 0, 1, 2, 3, 4]⟩, 0⟩
    let source : InputSource := .ofBytes
      ⟨#[0x97, 0x02, 0x00, 0x00, 0x2F, 0xA5, 0x02, 0x10, 0x2F, 0xA6, 0x52, 0x18]⟩
    let m : Machine Medium := new config (.empty config.cache (.ofMemory config.backing)) tree
    ∃ info m' past c later, boot source m = .ok info m' ∧
      executed [.step 3 0] m' = past ++ c :: later ∧
      Exec.executeOne c = .ok .next c.after ∧ c.after.hart.reservation = none ∧
      c.Stores 32 past 12 0x80000000 0x80000000 := by
  intro config tree source m
  have haccepted : config.Accepted :=
    ⟨by decide, by decide, by decide, by decide, by decide, by decide, ⟨2, rfl⟩, ⟨1, rfl⟩,
      by decide, by decide, by decide⟩
  have hm : m.Configured :=
    configured_new haccepted (Store.ofMemory_sound haccepted.units_lt) Array.size_replicate rfl
      (cache_of_accepted haccepted (by decide) (by decide) _) tree
  have hok : (answer? (boot source m)).isSome := by decide +kernel
  obtain ⟨info, hinfo⟩ := Option.isSome_iff_exists.mp hok
  obtain ⟨m', hboot⟩ := exists_of_answer? hinfo
  have hthird : (executed [.step 3 0] (stateOf (boot source m)))[2]?.map (fun c =>
      ((answer? (Exec.fetch c)).bind Isa.decode, c.hart.register 5, c.hart.reservation)) =
        some (some (.storeConditional 12 5 5), 0x80000000, some 0x80000000) := by
    decide +kernel
  rw [hboot, stateOf] at hthird
  obtain ⟨c, hc, heq⟩ := Option.map_eq_some_iff.mp hthird
  simp only [Prod.mk.injEq] at heq
  obtain ⟨hdecode, haddr, hreserved⟩ := heq
  obtain ⟨word, hword, hdecode⟩ := Option.bind_eq_some_iff.mp hdecode
  obtain ⟨c₁, hfetch⟩ := exists_of_answer? hword
  obtain ⟨hlt, hget⟩ := List.getElem?_eq_some_iff.mp hc
  have hpast : executed [.step 3 0] m' =
      (executed [.step 3 0] m').take 2 ++ c :: (executed [.step 3 0] m').drop 3 := by
    rw [← hget, ← List.drop_eq_getElem_cons hlt, List.take_append_drop]
  obtain ⟨hnone, hstores⟩ := storeConditional_atomic hm hboot hpast
    ⟨word, hfetch, hdecode⟩ (by rw [haddr]; decide)
  rw [haddr, if_pos hreserved] at hstores
  obtain ⟨hretires, hstores⟩ := hstores (by decide)
  exact ⟨info, m', _, c, _, hboot, hpast, hretires, hnone, hstores⟩

end Machine

end RiscvMachine
