import RiscvMachine.Proofs.Machine.MemoryAccess
import RiscvMachine.Proofs.Machine.Reboot

set_option autoImplicit false

/-! # Memory instructions on a machine

Over units that do not fail, a machine shows some flat RAM at every point of a session, also after a
boot that has failed half way (`Machine.acts_showsRam`): instructions and flushes keep to what they
show, and a boot empties the cache before it touches the store. So loads, stores and atomic
operations mean the same on every machine, whatever the state of its hart
(`Machine.memory_instructions`).
-/

namespace RiscvMachine

/-- Multiples of the access are aligned. -/
theorem Width.aligned_of_dvd {width : Width} {addr : UInt32} (h : width.bytes ∣ addr.toNat) :
    width.aligned addr := by
  rw [aligned, beq_iff_eq]
  apply UInt32.toNat_inj.mp
  rw [UInt32.toNat_and]
  cases width with
  | byte => exact Nat.and_zero _
  | half =>
      exact (Nat.and_two_pow_sub_one_eq_mod addr.toNat 1).trans (Nat.mod_eq_zero_of_dvd h)
  | word =>
      exact (Nat.and_two_pow_sub_one_eq_mod addr.toNat 2).trans (Nat.mod_eq_zero_of_dvd h)

namespace Machine

variable {υ : Type} [StorageUnit υ] [ReliableUnit υ] {m : Machine υ}

/-! ## A machine shows RAM -/

/-- The machine cannot be told through its bus from one with flat RAM of this size. -/
def ShowsRam (ramSize : UInt32) (m : Machine υ) : Prop :=
  ∃ p, m.platform.Shows p ∧ p.ramSize = ramSize

/-- A coherent cache over a store with room for RAM shows it. -/
theorem showsRam_of_coherent (hcoherent : m.cache.Coherent)
    (hroom : m.platform.ramSize.toNat ≤ m.cache.store.size) :
    m.ShowsRam m.platform.ramSize :=
  ⟨_, Platform.shows_contents hcoherent hroom, rfl⟩

theorem ShowsRam.coherent {ramSize : UInt32} (h : m.ShowsRam ramSize) : m.cache.Coherent := by
  obtain ⟨p, hshows, -⟩ := h
  exact hshows.cache.coherent

/-- Instructions, and what comes between them, leave RAM shown. -/
theorem kept_showsRam (ramSize : UInt32) :
    Kept fun (_ : List (Core (Platform υ))) c => ∃ p, c.bus.Shows p ∧ p.ramSize = ramSize where
  execute h := by
    obtain ⟨p, hshows, hsize⟩ := h
    obtain ⟨p', hshows', hsize', -⟩ := Core.after_shows hshows
    exact ⟨p', hshows', hsize'.trans hsize⟩
  turn hturn h := h
  console console h := by
    obtain ⟨p, ⟨hcache, hsize, -, hramSize⟩, hp⟩ := h
    exact ⟨{ p with console := console }, ⟨hcache, hsize, rfl, hramSize⟩, hp⟩
  flush h := by
    obtain ⟨p, ⟨hcache, hsize, hconsole, hramSize⟩, hp⟩ := h
    obtain ⟨cache, hflush, hcache'⟩ := hcache.flush
    rw [hflush]
    exact ⟨p, ⟨hcache', hsize, hconsole, hramSize⟩, hp⟩

theorem serve_showsRam {ramSize : UInt32} (h : m.ShowsRam ramSize) (request : MachineRequest) :
    (stateOf (serve request m)).ShowsRam ramSize :=
  (@serve_along _ _ _ (kept_showsRam ramSize) request [] m h).2

/-! ## Boots -/

omit [ReliableUnit υ] in
/-- What a boot does behind the emptying of the cache leaves it empty. -/
theorem bootable_vacant : Bootable fun m : Machine υ => m.cache.Vacant where
  invalidate {m} _ := m.cache.vacant_invalidate
  place offset bytes h := by
    rw [stateOf_place]
    exact h
  start _ h := h
  resetCounters h := h

omit [ReliableUnit υ] in
/-- A boot empties the cache first, so it makes no difference if that has been done before. -/
theorem boot_invalidate (source : InputSource) (m : Machine υ) :
    boot source (m.mapCache Cache.invalidate) = boot source m := by
  have htwice : (m.mapCache Cache.invalidate).mapCache Cache.invalidate =
      m.mapCache Cache.invalidate := by
    obtain ⟨config, hart, ⟨⟨geometry, lines, hits, accesses, store⟩, console, ramSize⟩, tree⟩ := m
    simp only [mapCache, Cache.invalidate, Array.map_map]
    rfl
  rw [boot, bootWith_eq, bootWith_eq, htwice]

/-- After a boot, also one that fails half way, the machine shows RAM. -/
theorem boot_showsRam (hm : m.cache.WellFormed)
    (hroom : m.platform.ramSize.toNat ≤ m.cache.store.size) (source : InputSource) :
    (stateOf (boot source m)).ShowsRam m.platform.ramSize := by
  have hremains := boot_remains hm source
  have hvacant : (stateOf (boot source m)).cache.Vacant := by
    rw [← boot_invalidate]
    exact bootable_vacant.boot (m := m.mapCache Cache.invalidate) m.cache.vacant_invalidate source
  have hwellFormed := hremains.wellFormed
  have hcoherent := Cache.coherent_of_vacant hwellFormed.geometry hwellFormed.store
    hwellFormed.lineCount hvacant
  have hshows := showsRam_of_coherent hcoherent (hremains.ramSize_le hroom)
  rwa [hremains.platform.ramSize] at hshows

/-! ## Sessions -/

theorem act_showsRam (hroom : m.platform.ramSize.toNat ≤ m.cache.store.size)
    (h : m.ShowsRam m.platform.ramSize) (action : SessionAction) :
    (m.act action).ShowsRam m.platform.ramSize := by
  cases action with
  | boot source => exact boot_showsRam h.coherent.toWellFormed hroom source
  | serve request => exact serve_showsRam h request
  | await cycles => exact h
  | useDeviceTree tree => exact h
  | resetCounters =>
      have hc := h.coherent
      exact showsRam_of_coherent (m := m.resetCounters)
        ⟨⟨hc.geometry, ⟨hc.store.units, hc.store.size_lt⟩, hc.lineCount, hc.line⟩, hc.synced⟩ hroom

/-- Throughout a session the machine shows RAM. -/
theorem acts_showsRam (hroom : m.platform.ramSize.toNat ≤ m.cache.store.size)
    (h : m.ShowsRam m.platform.ramSize) (session : List SessionAction) :
    (m.acts session).ShowsRam m.platform.ramSize := by
  induction session generalizing m with
  | nil => exact h
  | cons action rest ih =>
      have hremains := act_remains h.coherent.toWellFormed hroom action
      have hfirst := act_showsRam hroom h action
      rw [← hremains.platform.ramSize] at hfirst
      have hrest := ih (hremains.ramSize_le hroom) hfirst
      rwa [hremains.platform.ramSize] at hrest

/-- Over units that do not fail, loads, stores and atomic operations mean the same at every point of
every session, for a hart in any state: the instruction that is fetched, at an aligned address in
RAM, retires with what it means for the bytes that the hart sees there, and nothing else changes.
Lines of up to 2^31 bytes are assumed. -/
theorem memory_instructions {υ : Type} [StorageUnit υ] [ReliableUnit υ] {config : Config}
    (hvalid : config.validate = .ok ()) (hline : config.cache.lineSize.toNat ≤ 2 ^ 31)
    {store : Store υ} (hstore : store.Sound)
    (hcount : store.units.size = config.backing.unitCount.toNat)
    (hcapacity : store.unitCapacity = config.backing.unitCapacity) {cache : Cache υ}
    (hnew : Cache.new config.cache store = .ok cache) (tree : DeviceTree)
    (session : List SessionAction) {i : Isa.MemoryAssembly} {h : Hart}
    {core : Core (Platform υ)}
    (hfetch : Exec.fetch ⟨h, ((new config cache tree).acts session).platform⟩ =
      .ok i.encode core)
    (haligned : i.width.bytes ∣ (i.address h).toNat)
    (hbase : ramBase.toNat ≤ (i.address h).toNat)
    (hin : (i.address h).toNat + i.width.bytes ≤ ramBase.toNat + config.ramSize.toNat) :
    ∃ core', Exec.executeOne ⟨h, ((new config cache tree).acts session).platform⟩ =
        .ok .next core' ∧
      i.Accesses ⟨h, ((new config cache tree).acts session).platform⟩ core' := by
  have haccepted : config.Accepted := (Config.validate_eq_ok_iff config).mp hvalid
  have hconfigured := configured_new haccepted hstore hcount hcapacity hnew tree
  have hcoherent : cache.Coherent := by
    obtain ⟨rfl, -⟩ := Cache.new_eq_ok_iff.mp hnew
    exact (Cache.empty_spec (hconfigured.valid hline) hstore).1
  have hroom := hconfigured.ramSize_le_capacity
  -- however the session has been, the machine still looks like one with flat RAM
  obtain ⟨p, hshows, hsize⟩ :=
    acts_showsRam hroom (showsRam_of_coherent (m := new config cache tree) hcoherent hroom) session
  have hsize : p.ramSize = config.ramSize := hsize
  have hdistance : (i.address h - ramBase).toNat = (i.address h).toNat - ramBase.toNat :=
    UInt32.toNat_sub_of_le _ _ (UInt32.le_iff_toNat_le.mpr hbase)
  have hoffset : Platform.ramOffset? p.ramSize (i.address h) i.width =
      some (i.address h - ramBase) := by
    rw [Platform.ramOffset?_eq_some_iff, hdistance, hsize]
    omega
  refine hshows.executeOne_accesses ?_ hfetch (Width.aligned_of_dvd haligned) hoffset
  rw [hsize]
  exact haccepted.ramSize_le

/-- `amoadd.w x5, x5, (x5)`, with one register for address, operand and result. -/
theorem memory_instructions_one_register :
    let image : InputSource := .ofBytes
      ⟨#[0xAF, 0xA2, 0x52, 0x00, 0, 0, 0, 0, 0, 0, 0, 0, 0, 0, 0, 0, 7, 0, 0, 0]⟩
    let m := (new smallConfig smallCache smallTree).acts [.boot image]
    let i : Isa.MemoryAssembly := .amo .add 5 5 5 0
    let h := m.hart.setRegister 5 (ramBase + 16)
    ∃ core', Exec.executeOne ⟨h, m.platform⟩ = .ok .next core' ∧
      i.Accesses ⟨h, m.platform⟩ core' ∧ core'.hart.register 5 = 7 ∧
      Bus.numberSeen core'.bus (ramBase + 16) 4 = 0x80000017 := by
  intro image m i h
  have hword : answer? (Exec.fetch ⟨h, m.platform⟩) = some i.encode := by decide +kernel
  have hplace : i.address h = ramBase + 16 := by decide +kernel
  have hafter : (answer? (Exec.executeOne ⟨h, m.platform⟩)).isSome ∧
      (stateOf (Exec.executeOne ⟨h, m.platform⟩)).hart.register 5 = 7 ∧
      Bus.numberSeen (stateOf (Exec.executeOne ⟨h, m.platform⟩)).bus (ramBase + 16) 4 =
        0x80000017 := by
    decide +kernel
  obtain ⟨core, hfetch⟩ := exists_of_answer? hword
  have hvalid : smallConfig.validate = .ok () := by decide
  obtain ⟨core', hone, haccesses⟩ := memory_instructions hvalid (by decide)
    (Store.ofMemory_sound (by decide)) Array.size_replicate rfl new_smallCache smallTree
    [.boot image] hfetch
    (by rw [hplace]; decide) (by rw [hplace]; decide) (by rw [hplace]; decide)
  rw [hone] at hafter
  exact ⟨core', hone, haccesses, hafter.2⟩

end Machine

end RiscvMachine
