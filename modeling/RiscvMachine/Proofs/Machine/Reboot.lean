import RiscvMachine.Proofs.Machine.Sessions

set_option autoImplicit false

/-! # Booting again

A boot empties the cache and writes image and device tree to the store. It does not clear RAM. So
after a reboot the hart finds there what the store held outside of the two: what had been written
back of earlier work, by evictions or by a flush, while what stood in dirty lines only is lost. In
all else a reboot is the boot of a new machine, whatever the session before was like
(`Machine.reboot_fresh`), and if the store held only zeros there, the two cannot be told apart by
any run.
-/

namespace RiscvMachine

/-- The boot leaves this address of RAM alone: it lies behind the image and outside the device
tree of the given size. -/
def BootInfo.Leaves (info : BootInfo) (treeSize a : Nat) : Prop :=
  info.imageLength ≤ a ∧ (a < info.usableRam.toNat ∨ info.usableRam.toNat + treeSize ≤ a)

instance (info : BootInfo) (treeSize a : Nat) : Decidable (info.Leaves treeSize a) :=
  inferInstanceAs (Decidable (_ ∧ _))

namespace BootPlan

theorem leaves_iff (plan : BootPlan) (a : Nat) :
    plan.info.Leaves plan.tree.size a ↔ plan.image.size ≤ a ∧
      (a < plan.offset.toNat ∨ plan.offset.toNat + plan.tree.size ≤ a) :=
  Iff.rfl

/-- A loaded memory shows the device tree, the image in front of it, and what it held before. -/
theorem load_apply (plan : BootPlan) (m : Memory) (a : Nat) :
    plan.load m a =
      if plan.offset.toNat ≤ a ∧ a < plan.offset.toNat + plan.tree.size then
        Bytes.byteAt plan.tree (a - plan.offset.toNat)
      else if a < plan.image.size then Bytes.byteAt plan.image a else m a := by
  simp only [load, Memory.write, Nat.zero_add, Nat.zero_le, true_and, Nat.sub_zero]

/-- An address that the boot leaves alone keeps its byte. -/
theorem load_of_leaves {plan : BootPlan} (m : Memory) {a : Nat}
    (h : plan.info.Leaves plan.tree.size a) : plan.load m a = m a := by
  rw [leaves_iff] at h
  rw [load_apply, if_neg (by omega), if_neg (by omega)]

/-- Elsewhere the byte does not depend on what was there. -/
theorem load_of_not_leaves {plan : BootPlan} (m m' : Memory) {a : Nat}
    (h : ¬ plan.info.Leaves plan.tree.size a) : plan.load m a = plan.load m' a := by
  rw [leaves_iff] at h
  rw [load_apply, load_apply]
  split
  · rfl
  · rw [if_pos (by omega), if_pos (by omega)]

end BootPlan

namespace Machine

section

variable {υ : Type} [StorageUnit υ] [ReliableUnit υ] {m m' : Machine υ}

/-- What is left of a machine that is put together as its configuration tells is put together so as
well. -/
theorem Configured.of_remains (hm : m.Configured) (h : m.Remains m') : m'.Configured := by
  have hcache := h.platform.cache
  have hgeometry : m'.cache.geometry = m.cache.geometry := hcache.geometry
  refine ⟨?_, ?_, ?_, hcache.store.sound, ?_, ?_, ?_, ?_⟩
  · rw [h.config]
    exact hm.accepted
  · rw [hgeometry, h.config, hm.geometry]
  · rw [h.wellFormed.lineCount, hgeometry, h.config, hm.geometry]
  · rw [h.config, ← hm.unitCount]
    exact hcache.store.unitCount
  · rw [h.config, ← hm.unitCapacity]
    exact hcache.store.unitCapacity
  · rw [h.config, ← hm.ramSize]
    exact h.platform.ramSize
  · rw [h.config]
    exact hm.lines_lt

/-- Machines that boot by one plan and show the same bytes of RAM afterwards, with the same
console, are observed alike over every run. -/
theorem observeAll_of_bootedBy {m₁ m₂ m₁' m₂' : Machine υ} (h₁ : m₁.Configured)
    (h₂ : m₂.Configured) (hconfig : m₂.config = m₁.config) {plan : BootPlan}
    (hboot₁ : m₁.BootedBy plan m₁') (hboot₂ : m₂.BootedBy plan m₂')
    (hhart : m₁'.hart = m₂'.hart) (hconsole : m₂.platform.console = m₁.platform.console)
    (hsame : ∀ a < m₁.config.ramSize.toNat, m₁'.cache.contents a = m₂'.cache.contents a)
    (requests : List MachineRequest) :
    ∃ observations n₁ n₂, observeAll requests m₁' = .ok observations n₁ ∧
      observeAll requests m₂' = .ok observations n₂ := by
  have hram₁ : m₁'.platform.ramSize = m₁.config.ramSize := hboot₁.ramSize.trans h₁.ramSize
  have hram₂ : m₂'.platform.ramSize = m₁.config.ramSize :=
    (hboot₂.ramSize.trans h₂.ramSize).trans (congrArg Config.ramSize hconfig)
  have hshows₁ :=
    Platform.shows_contents hboot₁.coherent (h₁.ramSize_le_capacity_of_bootedBy hboot₁)
  have hshows₂ :=
    Platform.shows_contents hboot₂.coherent (h₂.ramSize_le_capacity_of_bootedBy hboot₂)
  have hbytes : m₁'.platform.cache.contents.read 0 m₁.config.ramSize.toNat =
      m₂'.platform.cache.contents.read 0 m₁.config.ramSize.toNat := by
    apply Memory.read_congr
    intro i hi
    rw [Nat.zero_add]
    exact hsame i hi
  have hsameConsole : m₂'.platform.console = m₁'.platform.console :=
    (hboot₂.console.trans hconsole).trans hboot₁.console.symm
  -- both show one flat machine, and so they do over any run
  rw [hram₂, ← hbytes, hsameConsole] at hshows₂
  rw [hram₁] at hshows₁
  obtain ⟨observations, n₁, r₁, hrun₁, hflat₁⟩ :=
    Shows.observeAll (r := ⟨m₁'.hart, _⟩) ⟨rfl, hshows₁⟩ requests
  obtain ⟨observations₂, n₂, r₂, hrun₂, hflat₂⟩ :=
    Shows.observeAll (r := ⟨m₁'.hart, _⟩) ⟨hhart.symm, hshows₂⟩ requests
  cases hflat₁.symm.trans hflat₂
  exact ⟨observations, n₁, n₂, hrun₁, hrun₂⟩

/-- How two machines compare after a boot of the same image: `m` comes to `m'`, and `fresh` to
`fresh'`. -/
structure BootsLike (m fresh : Machine υ) (info : BootInfo) (m' fresh' : Machine υ) : Prop where
  hart : m'.hart = fresh'.hart
  /-- The image and the device tree are seen alike. -/
  loaded {a : Nat} : a < m.config.ramSize.toNat → ¬ info.Leaves m.deviceTree.blob.size a →
    Bus.byteSeen m'.platform (ramBase + UInt32.ofNat a) =
      Bus.byteSeen fresh'.platform (ramBase + UInt32.ofNat a)
  /-- What the boot leaves alone is seen as the store held it before. -/
  left {a : Nat} : a < m.config.ramSize.toNat → info.Leaves m.deviceTree.blob.size a →
    Bus.byteSeen m'.platform (ramBase + UInt32.ofNat a) =
      some (m.cache.store.contents a).toUInt32 ∧
    Bus.byteSeen fresh'.platform (ramBase + UInt32.ofNat a) =
      some (fresh.cache.store.contents a).toUInt32
  sameRam_iff : (∀ a < m.config.ramSize.toNat,
      Bus.byteSeen m'.platform (ramBase + UInt32.ofNat a) =
        Bus.byteSeen fresh'.platform (ramBase + UInt32.ofNat a)) ↔
    ∀ a < m.config.ramSize.toNat, info.Leaves m.deviceTree.blob.size a →
      m.cache.store.contents a = fresh.cache.store.contents a
  /-- If RAM is the same, no run tells the machines apart. -/
  runs : (∀ a < m.config.ramSize.toNat,
      Bus.byteSeen m'.platform (ramBase + UInt32.ofNat a) =
        Bus.byteSeen fresh'.platform (ramBase + UInt32.ofNat a)) →
    ∀ requests, ∃ observations n n', observeAll requests m' = .ok observations n ∧
      observeAll requests fresh' = .ok observations n'

theorem bootsLike_of_bootedBy {fresh fresh' : Machine υ} (hm : m.Configured)
    (hfresh : fresh.Configured) (hremains : fresh.config = m.config)
    (hhart : fresh.hart.Remains m.hart)
    (hconsole : fresh.platform.console = m.platform.console) {plan : BootPlan}
    (htree : plan.tree.size = m.deviceTree.blob.size) (hboot : m.BootedBy plan m')
    (hboot' : fresh.BootedBy plan fresh') : m.BootsLike fresh plan.info m' fresh' := by
  have hseen {a : Nat} (ha : a < m.config.ramSize.toNat) := hm.byteSeen_of_bootedBy hboot ha
  have hseen' {a : Nat} (ha : a < m.config.ramSize.toNat) :
      Bus.byteSeen fresh'.platform (ramBase + UInt32.ofNat a) =
        some (plan.load fresh.cache.store.contents a).toUInt32 :=
    hfresh.byteSeen_of_bootedBy hboot' (by rwa [hremains])
  have hstart : m'.hart = fresh'.hart := by
    rw [hboot.hart, hboot'.hart, Hart.boot, Hart.boot, hhart.faultPolicy, hhart.ramSize]
  have hbyte {b b' : UInt8} : some b.toUInt32 = some b'.toUInt32 ↔ b = b' := by
    rw [Option.some_inj, UInt8.toUInt32_inj]
  have hleaves (n : Memory) {a : Nat} (h : plan.info.Leaves m.deviceTree.blob.size a) :
      plan.load n a = n a :=
    BootPlan.load_of_leaves n (by rwa [htree])
  have hloads {a : Nat} (h : ¬ plan.info.Leaves m.deviceTree.blob.size a) :
      plan.load m.cache.store.contents a = plan.load fresh.cache.store.contents a :=
    BootPlan.load_of_not_leaves _ _ (by rwa [htree])
  -- what the boot has loaded is the same, and the rest is as it was on either machine
  refine ⟨hstart, ?_, ?_, ⟨?_, ?_⟩, ?_⟩
  · intro a ha hloaded
    rw [hseen ha, hseen' ha, hloads hloaded]
  · intro a ha hleft
    rw [hseen ha, hseen' ha, hleaves _ hleft, hleaves _ hleft]
    exact ⟨rfl, rfl⟩
  · intro hsame a ha hleft
    have hbytes := hsame a ha
    rwa [hseen ha, hseen' ha, hbyte, hleaves _ hleft, hleaves _ hleft] at hbytes
  · intro hsame a ha
    rw [hseen ha, hseen' ha, hbyte]
    by_cases hleft : plan.info.Leaves m.deviceTree.blob.size a
    · rw [hleaves _ hleft, hleaves _ hleft, hsame a ha hleft]
    · exact hloads hleft
  · intro hsame
    apply observeAll_of_bootedBy hm hfresh hremains hboot hboot' hstart hconsole
    intro a ha
    have hbytes := hsame a ha
    rwa [hseen ha, hseen' ha, hbyte, ← hboot.contents, ← hboot'.contents] at hbytes

end

def withConsole {υ : Type} (m : Machine υ) (console : GuestConsole) : Machine υ :=
  { m with platform := { m.platform with console := console } }

/-- What a boot of the same image on two machines may come to: both boot, or neither does. -/
def BootAlike {υ : Type} [StorageUnit υ] [ReliableUnit υ] (m fresh : Machine υ) :
    EStateM.Result MachineError (Machine υ) BootInfo →
    EStateM.Result MachineError (Machine υ) BootInfo → Prop
  | .ok info m', .ok info' fresh' => info' = info ∧ m.BootsLike fresh info m' fresh'
  | .error _ _, .error _ _ => True
  | _, _ => False

/-- Booting again, after any session of a machine over units in host memory, against booting a new
machine with the same configuration, device tree and console. Either both boot or neither does.
They answer the same and leave the hart in the same state, and the hart sees the same image and the
same device tree. Nothing clears the rest of RAM: there the machine shows what its store held before
the boot, and the new one shows zeros. If that makes no difference, no run tells them apart. -/
theorem reboot_fresh {config : Config} (hmemory : config.InMemory) {file : Option ByteArray}
    {dir? dir?' : Option UnitDirectory} {built : Machine Medium}
    (hbuild : build config file dir? = .ok built dir?') (session : List SessionAction)
    (source : InputSource) :
    let m := built.acts session
    let fresh := (built.withDeviceTree m.deviceTree).withConsole m.platform.console
    m.BootAlike fresh (boot source m) (boot source fresh) ∧
      ∀ a, fresh.cache.store.contents a = 0 := by
  intro m fresh
  obtain ⟨cache, tree, h, hnew, -, rfl⟩ := of_build_memory hmemory.kind hbuild
  obtain ⟨hwellFormed, hroom, hzero⟩ := new_spec h hmemory hnew
  obtain ⟨rfl, -⟩ := Cache.new_eq_ok_iff.mp hnew
  let cache : Cache Medium := .empty config.cache (.ofMemory config.backing)
  have hconfigured : (new config cache tree).Configured :=
    configured_new h (Store.ofMemory_sound h.units_lt) Array.size_replicate rfl hnew tree
  have hremains : (new config cache tree).Remains m :=
    acts_remains (m := new config _ tree) hwellFormed hroom session
  have hm := hconfigured.of_remains hremains
  have hfresh : fresh.Configured :=
    hconfigured.of_remains ⟨rfl, .refl _, rfl, .refl hwellFormed⟩
  have hconfig : m.config = config := hremains.config
  have hchunks : fresh.config.imageChunkSize = m.config.imageChunkSize := by
    rw [hconfig]
    rfl
  -- where things go depends on the configuration and the device tree only
  have hsetup : m.setup = fresh.setup := by
    rw [setup, setup, hconfig]
    rfl
  refine ⟨?_, hzero⟩
  cases hboot : boot source m with
  | error error m' =>
      cases hboot' : boot source fresh with
      | error error' fresh' => trivial
      | ok info' fresh' =>
          have hchunk := chunk_lt_of_boot hboot'
          have hplaces := boot_places hm.store hm.ramSize_le_capacity (hchunks ▸ hchunk) source
          have hplaces' := boot_places hfresh.store hfresh.ramSize_le_capacity hchunk source
          rw [hboot, hsetup] at hplaces
          rw [hboot'] at hplaces'
          obtain ⟨plan, s, hplan, -⟩ := hplaces'
          rw [show fresh.setup.plan? source = none from hplaces] at hplan
          cases hplan
  | ok info m' =>
      have hchunk := chunk_lt_of_boot hboot
      have hplaces := boot_places hm.store hm.ramSize_le_capacity hchunk source
      have hplaces' := boot_places hfresh.store hfresh.ramSize_le_capacity (hchunks ▸ hchunk) source
      rw [hboot, hsetup] at hplaces
      obtain ⟨plan, s, hplan, rfl, rfl, hfollows, hcontents⟩ := hplaces
      revert hplaces'
      cases boot source fresh with
      | error error' fresh' =>
          intro hnone
          rw [show fresh.setup.plan? source = none from hnone] at hplan
          cases hplan
      | ok info' fresh' =>
          rintro ⟨plan', s', hplan', rfl, rfl, hfollows', hcontents'⟩
          cases hplan.symm.trans hplan'
          have hline : m.config.cache.lineSize.toNat ≤ 2 ^ 31 := by
            rw [hconfig]
            exact hmemory.lineSize_le
          have htree : plan.tree.size = m.deviceTree.blob.size := by
            obtain ⟨image, offset, tree, -, -, -, hpatch, rfl⟩ :=
              GuestSetup.plan?_eq_some_iff.mp hplan
            exact DeviceTree.size_withRamSize hpatch
          exact ⟨rfl, bootsLike_of_bootedBy hm hfresh hconfig.symm hremains.hart rfl htree
            (hm.bootedBy hline plan hfollows hcontents)
            (hfresh.bootedBy hmemory.lineSize_le plan hfollows' hcontents')⟩

/-! ## A guest that stores its registers -/

/-- RAM of 32 bytes over five units of seven bytes, behind two lines of four. -/
def smallConfig : Config :=
  { ramSize := 32
    backing := { unitCount := 5, unitCapacity := 7 }
    cache := { lineSize := 4, lineCount := 2 }
    deviceTree := some { path := "tree", ramSizeOffset := 0 } }

/-- A device tree of eight bytes, which goes to the end of RAM. -/
def smallTree : DeviceTree := ⟨⟨#[0, 0, 0, 0, 1, 2, 3, 4]⟩, 0⟩

/-- The guest stores the address of the device tree in the word below it, and waits. -/
def storingGuest : InputSource :=
  .ofBytes ⟨#[0x23, 0xAE, 0xB5, 0xFE, 0x73, 0x00, 0x50, 0x10]⟩

theorem smallConfig_inMemory : smallConfig.InMemory :=
  ⟨rfl, by decide⟩

theorem smallConfig_accepted : smallConfig.Accepted :=
  ⟨by decide, by decide, by decide, by decide, by decide, by decide, ⟨2, rfl⟩, ⟨1, rfl⟩,
    by decide, by decide, by decide⟩

/-- Two vacant lines over five units of zeros. -/
def smallCache : Cache Medium :=
  .empty smallConfig.cache (.ofMemory smallConfig.backing)

theorem new_smallCache :
    Cache.new smallConfig.cache (.ofMemory smallConfig.backing) = .ok smallCache :=
  cache_of_accepted smallConfig_accepted (by decide) (by decide) _

theorem build_smallConfig :
    build smallConfig (some smallTree.blob) none =
      .ok (new smallConfig smallCache smallTree) none := by
  have htree : chooseDeviceTree smallConfig (some smallTree.blob) = .ok smallTree := rfl
  rw [build_eq smallConfig_accepted rfl (by decide) new_smallCache, htree]

/-- The store of the guest stands in a dirty line, which the reboot drops: from then on the machine
runs as a new one with the same key typed. -/
theorem reboot_fresh_dirty :
    ∃ built m fresh info m' fresh', build smallConfig (some smallTree.blob) none = .ok built none ∧
      m = built.acts [.boot storingGuest, .serve (.sendKey 65), .serve (.step 1 0)] ∧
      fresh = (built.withDeviceTree m.deviceTree).withConsole m.platform.console ∧
      boot storingGuest m = .ok info m' ∧ boot storingGuest fresh = .ok info fresh' ∧
      m'.hart = fresh'.hart ∧
      ∃ observations n n',
        observeAll [.step 2 10, .flush, .takeOutput] m' = .ok observations n ∧
        observeAll [.step 2 10, .flush, .takeOutput] fresh' = .ok observations n' := by
  obtain ⟨halike, hzero⟩ := reboot_fresh smallConfig_inMemory build_smallConfig
    [.boot storingGuest, .serve (.sendKey 65), .serve (.step 1 0)] storingGuest
  obtain ⟨m, hm⟩ : ∃ m, m = (new smallConfig smallCache smallTree).acts
      [.boot storingGuest, .serve (.sendKey 65), .serve (.step 1 0)] := ⟨_, rfl⟩
  rw [← hm] at halike hzero
  have hinfo : answer? (boot storingGuest m) = some ⟨8, 0x80000018, 24⟩ := by
    rw [hm]
    decide +kernel
  have hsizes : m.config.ramSize.toNat = 32 ∧ m.deviceTree.blob.size = 8 := by
    rw [hm]
    decide +kernel
  have hleft : ∀ a : Fin 32, BootInfo.Leaves ⟨8, 0x80000018, 24⟩ 8 a →
      m.cache.store.contents a = 0 := by
    rw [hm]
    decide +kernel
  -- the new machine is given a name, so that nothing unfolds it
  obtain ⟨fresh, hfresh⟩ : ∃ fresh, fresh =
      ((new smallConfig smallCache smallTree).withDeviceTree
        m.deviceTree).withConsole m.platform.console := ⟨_, rfl⟩
  obtain ⟨m', hboot⟩ := exists_of_answer? hinfo
  rw [← hfresh, hboot] at halike
  rw [← hfresh] at hzero
  cases hboot' : boot storingGuest fresh with
  | error error fresh' =>
      rw [hboot'] at halike
      exact halike.elim
  | ok info' fresh' =>
      rw [hboot'] at halike
      obtain ⟨rfl, hlike⟩ := halike
      have hsame := hlike.sameRam_iff.mpr fun a ha hleaves => by
        rw [hsizes.1] at ha
        rw [hsizes.2] at hleaves
        exact (hleft ⟨a, ha⟩ hleaves).trans (hzero a).symm
      exact ⟨_, m, fresh, _, m', fresh', build_smallConfig, hm, hfresh, hboot, hboot', hlike.hart,
        hlike.runs hsame _⟩

/-- With one more instruction its line is evicted, and the new guest sees what the old one has
stored, where on a new machine it sees zero. -/
theorem reboot_sees_evicted :
    ∃ built info m' fresh', build smallConfig (some smallTree.blob) none = .ok built none ∧
      boot storingGuest (built.acts [.boot storingGuest, .serve (.step 2 0)]) = .ok info m' ∧
      boot storingGuest built = .ok info fresh' ∧
      Bus.byteSeen m'.platform (ramBase + 20) = some 0x18 ∧
      Bus.byteSeen fresh'.platform (ramBase + 20) = some 0 := by
  let built : Machine Medium := new smallConfig smallCache smallTree
  have hinfo : answer? (boot storingGuest
      (built.acts [.boot storingGuest, .serve (.step 2 0)])) = some ⟨8, 0x80000018, 24⟩ := by
    decide +kernel
  have hinfo' : answer? (boot storingGuest built) = some ⟨8, 0x80000018, 24⟩ := by
    decide +kernel
  have hseen : Bus.byteSeen (stateOf (boot storingGuest
      (built.acts [.boot storingGuest, .serve (.step 2 0)]))).platform (ramBase + 20) =
        some 0x18 := by
    decide +kernel
  have hseen' : Bus.byteSeen (stateOf (boot storingGuest built)).platform (ramBase + 20) =
      some 0 := by
    decide +kernel
  obtain ⟨m', hboot⟩ := exists_of_answer? hinfo
  obtain ⟨fresh', hboot'⟩ := exists_of_answer? hinfo'
  rw [hboot] at hseen
  rw [hboot'] at hseen'
  exact ⟨built, _, m', fresh', build_smallConfig, hboot, hboot', hseen, hseen'⟩

end Machine

end RiscvMachine
