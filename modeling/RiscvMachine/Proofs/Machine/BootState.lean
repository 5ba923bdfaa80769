import RiscvMachine.Proofs.Image.Delivery
import RiscvMachine.Proofs.Machine.Refinement

set_option autoImplicit false

/-! # What a boot leaves

A boot of a plain image over reliable units succeeds just if image and device tree fit into RAM,
whatever state the machine is in, and it leaves a state that does not depend on the one before
but for the bytes of the store that it has not written (`boot_ok_iff`).

The store is written past the cache, so what is said of it holds for every configuration that
validation accepts. That the hart sees the same bytes needs lines of which an address can tell
the bytes apart: validation has no upper bound on their size.
-/

namespace RiscvMachine

/-! ## Reading a stream to its end -/

/-- The rest of a stream is what it hands out, if the fuel suffices. -/
theorem ImageStream.rest?_handsOut {decoders : Decoders} {n : Nat} (hn : 0 < n) (fuel : Nat)
    {contents : ByteArray} {stream : ImageStream decoders}
    (h : HandsOut read contents True stream) :
    (∀ bytes, stream.rest? n fuel = some bytes → bytes = contents) ∧
      (contents.size < fuel → stream.rest? n fuel = some contents) := by
  induction fuel generalizing contents stream with
  | zero => exact ⟨nofun, nofun⟩
  | succ fuel ih =>
      have hread := readChunk_handsOut n h
      unfold rest?
      revert hread
      cases readChunk n stream with
      | error failure stream' => exact fun hread => absurd trivial hread.of_error.2
      | ok bytes stream' =>
          intro hread
          obtain ⟨chunk, left, rfl, hcuts, -, hleft⟩ := hread.of_ok
          have hsize := hcuts.size
          obtain rfl := hcuts.append
          rw [ByteArray.size_append] at hsize
          simp only [ByteArray.empty_append]
          -- an empty chunk means the end, and any other one takes a byte off the contents at least
          by_cases hempty : chunk.size = 0
          · have hnone : left.size = 0 := by omega
            rw [if_pos (by simpa [ByteArray.isEmpty] using hempty),
              ByteArray.size_eq_zero_iff.mp hempty, ByteArray.size_eq_zero_iff.mp hnone,
              ByteArray.append_empty]
            exact ⟨fun bytes hbytes => (Option.some_inj.mp hbytes).symm, fun _ => rfl⟩
          · obtain ⟨honly, hall⟩ := ih hleft
            rw [if_neg (by simpa [ByteArray.isEmpty] using hempty)]
            constructor
            · intro bytes hbytes
              obtain ⟨rest, hrest, rfl⟩ := Option.map_eq_some_iff.mp hbytes
              rw [honly rest hrest]
            · intro hfuel
              rw [ByteArray.size_append] at hfuel
              rw [hall (by omega)]
              rfl

/-- A plain image that is not interrupted at once is read as it is, up to the size of RAM. -/
theorem GuestSetup.image?_of_delivers (setup : GuestSetup) (hchunk : setup.imageChunkSize ≠ 0)
    {s : InputSource} {image : ByteArray} (hs : s.Delivers image) (hready : s.head? ≠ none)
    (hplain : ImageFormat.ofHead image = .plain) :
    (∀ bytes, setup.image? s = some bytes → bytes = image) ∧
      (image.size ≤ setup.ramSize.toNat → setup.image? s = some image) := by
  have hn : 0 < setup.imageChunkSize.toNat :=
    Nat.pos_of_ne_zero fun hzero => hchunk (UInt64.toNat_inj.mp hzero)
  rcases ImageStream.ofSource?_eq .standard hs with ⟨hnone, -⟩ | ⟨feed, -, hfeed, hstream⟩
  · exact absurd hnone hready
  have hhead : ImageFormat.ofHead feed.input = .plain := by
    obtain ⟨rest, hrest, -⟩ := hfeed
    rw [ImageFormat.ofHead_eq feed.input rest, ← hrest, hplain]
    exact if_pos (Nat.zero_le _)
  unfold image?
  rw [hstream, hhead, Option.bind_some]
  obtain ⟨honly, hall⟩ := ImageStream.rest?_handsOut hn (setup.ramSize.toNat + 2)
    (ImageStream.handsOut_plain hfeed)
  exact ⟨honly, fun hle => hall (by omega)⟩

/-! ## What the hart sees -/

namespace Platform

variable {υ : Type} [StorageUnit υ] [ReliableUnit υ] {p : Platform υ}

/-- A platform with a coherent cache shows the flat RAM that the cache shows. -/
theorem shows_contents (hcoherent : p.cache.Coherent)
    (hcapacity : p.ramSize.toNat ≤ p.cache.store.size) :
    p.Shows ⟨p.cache.contents.read 0 p.ramSize.toNat, p.console, p.ramSize⟩ := by
  have hsize : (p.cache.contents.read 0 p.ramSize.toNat).size = p.ramSize.toNat :=
    Memory.size_read _ _ _
  refine ⟨⟨hcoherent, hsize.trans_le hcapacity, fun i hi => ?_⟩, hsize, rfl, rfl⟩
  rw [Memory.byteAt_read _ _ (hi.trans_eq hsize), Nat.zero_add]

/-- Through a coherent cache the hart sees the bytes of RAM that the cache shows. -/
theorem byteSeen_eq (hcoherent : p.cache.Coherent)
    (hcapacity : p.ramSize.toNat ≤ p.cache.store.size)
    (hle : p.ramSize ≤ maxRamSize) {a : Nat} (ha : a < p.ramSize.toNat) :
    Bus.byteSeen p (ramBase + UInt32.ofNat a) = some (p.cache.contents a).toUInt32 := by
  rw [busSimulation.byteSeen_eq (shows_contents hcoherent hcapacity),
    FlatPlatform.byteSeen_ram hle ha, Memory.byteAt_read _ _ ha, Nat.zero_add]

end Platform

namespace Machine

variable {υ : Type} [StorageUnit υ] [ReliableUnit υ]

/-- The machine is put together as its configuration, which validation accepts, tells. Nothing is
said of what its cache and its store hold or of the hart. -/
structure Configured (m : Machine υ) : Prop where
  accepted : m.config.Accepted
  geometry : m.cache.geometry = m.config.cache
  lineCount : m.cache.lines.size = m.config.cache.lineCount.toNat
  store : m.cache.store.Sound
  unitCount : m.cache.store.units.size = m.config.backing.unitCount.toNat
  unitCapacity : m.cache.store.unitCapacity = m.config.backing.unitCapacity
  ramSize : m.platform.ramSize = m.config.ramSize
  /-- There is memory for the bytes of all lines. -/
  lines_lt : m.config.cache.lineCount.toNat * m.config.cache.lineSize.toNat < 2 ^ 63

/-- A new machine over the configured units is put together as its configuration tells. -/
theorem configured_new {config : Config} (h : config.Accepted) {store : Store υ}
    (hstore : store.Sound) (hcount : store.units.size = config.backing.unitCount.toNat)
    (hcapacity : store.unitCapacity = config.backing.unitCapacity) {cache : Cache υ}
    (hnew : Cache.new config.cache store = .ok cache) (tree : DeviceTree) :
    (new config cache tree).Configured := by
  obtain ⟨rfl, -, -, -, -, hlines⟩ := Cache.new_eq_ok_iff.mp hnew
  exact ⟨h, rfl, Array.size_replicate, hstore, hcount, hcapacity, rfl, hlines⟩

/-- Validation has no upper bound on the size of a line; below it the geometry is sound. -/
theorem Configured.valid {m : Machine υ} (h : m.Configured)
    (hline : m.config.cache.lineSize.toNat ≤ 2 ^ 31) : m.cache.geometry.Valid := by
  have hlines := h.lines_lt
  rw [h.geometry]
  refine ⟨h.accepted.lineSize_isPowerOfTwo,
    UInt64.le_iff_toNat_le.mp h.accepted.four_le_lineSize, hline,
    h.accepted.lineCount_isPowerOfTwo, ?_⟩
  rw [Nat.mul_comm]
  omega

theorem Configured.ramSize_le_capacity {m : Machine υ} (h : m.Configured) :
    m.config.ramSize.toNat ≤ m.cache.store.size := by
  rw [Store.size, h.unitCount, h.unitCapacity]
  exact h.accepted.ramSize_le_units

theorem Configured.bootedBy {m : Machine υ} (h : m.Configured)
    (hline : m.config.cache.lineSize.toNat ≤ 2 ^ 31)
    (plan : BootPlan) {s : Store υ} (hfollows : m.cache.store.Follows s)
    (hcontents : s.contents = plan.load m.cache.store.contents) :
    m.BootedBy plan (m.afterBoot plan s) := by
  have hcount : m.cache.lines.size = m.cache.geometry.lineCount.toNat := by
    rw [h.lineCount, h.geometry]
  exact bootedBy_of_store (h.valid hline) hcount plan hfollows hcontents

theorem Configured.ramSize_le_capacity_of_bootedBy {m m' : Machine υ} (h : m.Configured)
    {plan : BootPlan} (hboot : m.BootedBy plan m') :
    m'.platform.ramSize.toNat ≤ m'.cache.store.size := by
  rw [hboot.ramSize, h.ramSize, hboot.cache.size]
  exact h.ramSize_le_capacity

/-- After a boot the hart sees in RAM what the plan has made of the store. -/
theorem Configured.byteSeen_of_bootedBy {m m' : Machine υ} (h : m.Configured) {plan : BootPlan}
    (hboot : m.BootedBy plan m') {a : Nat} (ha : a < m.config.ramSize.toNat) :
    Bus.byteSeen m'.platform (ramBase + UInt32.ofNat a) =
      some (plan.load m.cache.store.contents a).toUInt32 := by
  have hram : m'.platform.ramSize = m.config.ramSize := hboot.ramSize.trans h.ramSize
  rw [Platform.byteSeen_eq hboot.coherent (h.ramSize_le_capacity_of_bootedBy hboot)
    (by rw [hram]; exact h.accepted.ramSize_le) (by rw [hram]; exact ha)]
  exact congrArg some (congrArg UInt8.toUInt32 (congrFun hboot.contents a))

/-- After a boot the machine shows some flat RAM, and the hart is in the state in which a guest
starts. -/
theorem Configured.shows_of_boot {m m' : Machine υ} (h : m.Configured)
    (hline : m.config.cache.lineSize.toNat ≤ 2 ^ 31)
    {source : InputSource} {info : BootInfo} (hboot : boot source m = .ok info m') :
    m'.hart = m.hart.boot info.deviceTreeAddr ∧
      ∃ flat, m'.platform.Shows flat ∧ flat.ramSize = m.config.ramSize := by
  have hplaces := boot_places h.store h.ramSize_le_capacity (chunk_lt_of_boot hboot) source
  rw [hboot] at hplaces
  obtain ⟨plan, s, -, rfl, rfl, hfollows, hcontents⟩ := hplaces
  have hbooted := h.bootedBy hline plan hfollows hcontents
  refine ⟨hbooted.hart, _, Platform.shows_contents hbooted.coherent
    (h.ramSize_le_capacity_of_bootedBy hbooted), ?_⟩
  exact hbooted.ramSize.trans h.ramSize

/-! ## The state after a boot -/

/-- There is a plan if the device tree fits into RAM and the image below it. -/
theorem plan?_of_delivers {m : Machine υ} (hm : m.Configured) {s : InputSource}
    {image : ByteArray} (hs : s.Delivers image) (hready : s.head? ≠ none)
    (hplain : ImageFormat.ofHead image = .plain) (plan : BootPlan) :
    m.setup.plan? s = some plan ↔
      m.deviceTree.blob.size ≤ m.config.ramSize.toNat ∧
      image.size ≤ m.deviceTree.top m.config.ramSize.toNat ∧
      plan.image = image ∧ plan.offset.toNat = m.deviceTree.top m.config.ramSize.toNat ∧
      ∃ tree, m.deviceTree.withRamSize plan.offset = .ok tree ∧ plan.tree = tree.blob := by
  obtain ⟨honly, hall⟩ := m.setup.image?_of_delivers
    hm.accepted.imageChunkSize_ne_zero hs hready hplain
  rw [GuestSetup.plan?_eq_some_iff]
  constructor
  · rintro ⟨image', offset, tree, himage, hoffset, hle, htree, rfl⟩
    obtain rfl := honly image' himage
    obtain ⟨hfits, htop⟩ := DeviceTree.placement_eq_ok_iff.mp hoffset
    exact ⟨hfits, hle.trans_eq htop, rfl, htop, tree, htree, rfl⟩
  · rintro ⟨hfits, hbelow, rfl, htop, tree, htree, hblob⟩
    have htople : m.deviceTree.top m.config.ramSize.toNat ≤ m.config.ramSize.toNat :=
      (Nat.div_mul_le_self _ _).trans (Nat.sub_le _ _)
    refine ⟨plan.image, plan.offset, tree, hall (hbelow.trans htople),
      DeviceTree.placement_eq_ok_iff.mpr ⟨hfits, htop⟩, hbelow.trans_eq htop.symm, htree, ?_⟩
    rw [← hblob]

/-- What a boot with the given image answers and leaves: the image at the start of the store, the
device tree at its place with the size of the RAM below it in its cell, the rest of the store
untouched, an empty cache, and the hart in the state in which a guest starts. -/
structure Started (m : Machine υ) (image : ByteArray) (info : BootInfo) (m' : Machine υ) :
    Prop where
  config : m'.config = m.config
  deviceTree : m'.deviceTree = m.deviceTree
  console : m'.platform.console = m.platform.console
  imageLength : info.imageLength = image.size
  usableRam : info.usableRam.toNat = m.deviceTree.top m.config.ramSize.toNat
  /-- The device tree's address does not overflow. -/
  deviceTreeAddr : info.deviceTreeAddr.toNat = 0x80000000 + info.usableRam.toNat
  imageAt {i : Nat} : i < image.size → m'.cache.store.contents i = Bytes.byteAt image i
  treeAt {i : Nat} : i < m.deviceTree.blob.size →
    m'.cache.store.contents (info.usableRam.toNat + i) =
      if m.deviceTree.ramSizeOffset.toNat ≤ i ∧ i < m.deviceTree.ramSizeOffset.toNat + 4 then
        Bytes.byteAt (Bytes.bigEndian 4 info.usableRam.toNat)
          (i - m.deviceTree.ramSizeOffset.toNat)
      else Bytes.byteAt m.deviceTree.blob i
  otherAt {a : Nat} : image.size ≤ a →
    (a < info.usableRam.toNat ∨ info.usableRam.toNat + m.deviceTree.blob.size ≤ a) →
    m'.cache.store.contents a = m.cache.store.contents a
  vacant : ∀ line ∈ m'.cache.lines, line.residency = .vacant
  hits : m'.cache.hits = 0
  accesses : m'.cache.accesses = 0
  reads : m'.cache.store.reads = 0
  writes : m'.cache.store.writes = 0
  hart : m'.hart =
    { pc := 0x80000000
      registers := (Vector.replicate 32 0).set 11 info.deviceTreeAddr
      csr := {}
      privilege := .machine
      waiting := false
      reservation := none
      faultPolicy := m.hart.faultPolicy
      ramSize := m.hart.ramSize
      lastFault := none }
  /-- Lines of which an address can tell the bytes apart hide nothing from the hart. -/
  seen : m.config.cache.lineSize.toNat ≤ 2 ^ 31 →
    ∀ a < m.config.ramSize.toNat, Bus.byteSeen m'.platform (ramBase + UInt32.ofNat a) =
      some (m'.cache.store.contents a).toUInt32

theorem started_of_afterBoot {m : Machine υ} (hm : m.Configured)
    {image : ByteArray} {plan : BootPlan} (himage : plan.image = image)
    (hfits : m.deviceTree.blob.size ≤ m.config.ramSize.toNat)
    (hbelow : image.size ≤ m.deviceTree.top m.config.ramSize.toNat)
    (htop : plan.offset.toNat = m.deviceTree.top m.config.ramSize.toNat)
    {tree : DeviceTree} (hpatch : m.deviceTree.withRamSize plan.offset = .ok tree)
    (htree : plan.tree = tree.blob) {s : Store υ}
    (hfollows : m.cache.store.Follows s)
    (hcontents : s.contents = plan.load m.cache.store.contents) :
    m.Started image plan.info (m.afterBoot plan s) := by
  subst himage
  have hsize : plan.tree.size = m.deviceTree.blob.size := by
    rw [htree, DeviceTree.size_withRamSize hpatch]
  obtain ⟨⟨-, hcell⟩, rfl⟩ := DeviceTree.withRamSize_eq_ok_iff.mp hpatch
  have htopsum : m.deviceTree.top m.config.ramSize.toNat + m.deviceTree.blob.size
      ≤ m.config.ramSize.toNat := by
    have hround := Nat.div_mul_le_self (m.config.ramSize.toNat - m.deviceTree.blob.size) 8
    rw [DeviceTree.top]
    omega
  have hramSize : m.config.ramSize.toNat ≤ 2147483648 :=
    UInt32.le_iff_toNat_le.mp hm.accepted.ramSize_le
  -- the tree is put behind the image, so each byte of RAM comes from one of the two or from neither
  have hstore (a : Nat) : (m.afterBoot plan s).cache.store.contents a =
      plan.load m.cache.store.contents a := congrFun hcontents a
  refine ⟨rfl, rfl, rfl, rfl, htop, ?_, ?_, ?_, ?_, ?_, rfl, rfl, rfl, rfl, rfl, ?_⟩
  · show (plan.offset + ramBase).toNat = 0x80000000 + plan.offset.toNat
    rw [UInt32.toNat_add]
    show (plan.offset.toNat + 2147483648) % 4294967296 = _
    omega
  · intro i hi
    rw [hstore, BootPlan.load, Memory.write_of_not_mem (.inl (by omega)),
      Memory.write_of_mem (by omega), Nat.sub_zero]
  · intro i hi
    show (m.afterBoot plan s).cache.store.contents (plan.offset.toNat + i) = _
    rw [hstore, BootPlan.load, Memory.write_of_mem (by omega), Nat.add_sub_cancel_left, htree,
      Bytes.byteAt_overlay, Bytes.size_bigEndian]
    rfl
  · intro a hpast hout
    have hout' : a < plan.offset.toNat ∨ plan.offset.toNat + m.deviceTree.blob.size ≤ a := hout
    rw [hstore, BootPlan.load, Memory.write_of_not_mem (by omega),
      Memory.write_of_not_mem (.inr (by omega))]
  · intro line hline
    obtain ⟨line', -, rfl⟩ := Array.mem_map.mp hline
    rfl
  · intro hline a ha
    rw [hm.byteSeen_of_bootedBy (hm.bootedBy hline plan hfollows hcontents) ha, hstore]

/-- Booting a plain image, from any state of a machine that is put together as its accepted
configuration tells and in whatever reads the image arrives: the boot succeeds just if there can be
memory for a chunk of the image, the device tree fits into RAM and the image below it, and what it
then answers and leaves is `Started`. -/
theorem boot_ok_iff {m : Machine υ} (hm : m.Configured)
    (hcell : m.deviceTree.ramSizeOffset.toNat + 4 ≤ m.deviceTree.blob.size) {s : InputSource}
    {image : ByteArray} (hs : s.Delivers image) (hready : s.head? ≠ none)
    (hplain : ImageFormat.ofHead image = .plain) :
    ((∃ info m', boot s m = .ok info m') ↔
      m.config.imageChunkSize.toNat < 2 ^ 63 ∧
      m.deviceTree.blob.size ≤ m.config.ramSize.toNat ∧
      image.size ≤ (m.config.ramSize.toNat - m.deviceTree.blob.size) / 8 * 8) ∧
    ∀ info m', boot s m = .ok info m' → m.Started image info m' := by
  have hplan := plan?_of_delivers hm hs hready hplain
  have hbooted (info : BootInfo) (m' : Machine υ) (hok : boot s m = .ok info m') :
      (m.deviceTree.blob.size ≤ m.config.ramSize.toNat ∧
        image.size ≤ m.deviceTree.top m.config.ramSize.toNat) ∧ m.Started image info m' := by
    have hplaces := boot_places hm.store hm.ramSize_le_capacity (chunk_lt_of_boot hok) s
    rw [hok] at hplaces
    obtain ⟨plan, store, hsome, rfl, rfl, hfollows, hcontents⟩ := hplaces
    obtain ⟨hfits, hbelow, himage, htop, tree, hpatch, htree⟩ := (hplan plan).mp hsome
    exact ⟨⟨hfits, hbelow⟩,
      started_of_afterBoot hm himage hfits hbelow htop hpatch htree hfollows hcontents⟩
  refine ⟨⟨?_, ?_⟩, fun info m' hok => (hbooted info m' hok).2⟩
  · rintro ⟨info, m', hok⟩
    exact ⟨chunk_lt_of_boot hok, (hbooted info m' hok).1⟩
  · rintro ⟨hchunk, hfits, hbelow⟩
    have hplaces := boot_places hm.store hm.ramSize_le_capacity hchunk s
    revert hplaces
    cases boot s m with
    | ok info m' => exact fun _ => ⟨info, m', rfl⟩
    | error error m' =>
        intro hnone
        have hle : m.deviceTree.top m.config.ramSize.toNat ≤ m.config.ramSize.toNat :=
          (Nat.div_mul_le_self _ _).trans (Nat.sub_le _ _)
        obtain ⟨offset, htop⟩ :
            ∃ offset : UInt32, offset.toNat = m.deviceTree.top m.config.ramSize.toNat :=
          ⟨_, UInt32.toNat_ofNat_of_lt' (hle.trans_lt m.config.ramSize.toNat_lt)⟩
        -- the tree fits into RAM, so the end of its cell can be reckoned
        have hlt : m.deviceTree.ramSizeOffset.toNat + 4 < 2 ^ 64 := by
          have := m.config.ramSize.toNat_lt
          omega
        have hpatch : m.deviceTree.withRamSize offset = .ok _ :=
          DeviceTree.withRamSize_eq_ok_iff.mpr ⟨⟨hlt, hcell⟩, rfl⟩
        have hsome := (hplan ⟨image, offset, _⟩).mpr ⟨hfits, hbelow, rfl, htop, _, hpatch, rfl⟩
        have hnone' : m.setup.plan? s = none := hnone
        rw [hnone'] at hsome
        cases hsome

/-- Two stale lines of four bytes, one of them dirty, over five units of seven bytes, and a hart
that waits in user mode: the next image boots all the same. -/
theorem boot_ok_iff_stale :
    let config : Config :=
      { ramSize := 32
        backing := { unitCount := 5, unitCapacity := 7 }
        cache := { lineSize := 4, lineCount := 2 } }
    let tree : DeviceTree := ⟨⟨#[0, 0, 0, 0, 1, 2, 3, 4]⟩, 0⟩
    let lines : Array Line := #[⟨.dirty 0, ⟨#[9, 9, 9, 9]⟩⟩, ⟨.clean 3, ⟨#[8, 8, 8, 8]⟩⟩]
    let m : Machine Medium :=
      { config := config
        hart := { Hart.new 32 .delegate with pc := 0, privilege := .user, waiting := true }
        platform := ⟨⟨config.cache, lines, 5, 9, .ofMemory config.backing⟩, .new 64, 32⟩
        deviceTree := tree }
    let image : ByteArray := ⟨#[0x23, 0xA0, 0xB5, 0x00, 0x73, 0x00, 0x50, 0x10]⟩
    ∃ info m', boot (.ofBytes image) m = .ok info m' ∧ m.Started image info m' := by
  intro config tree lines m image
  have haccepted : config.Accepted :=
    ⟨by decide, by decide, by decide, by decide, by decide, by decide, ⟨2, rfl⟩, ⟨1, rfl⟩,
      by decide, by decide, by decide⟩
  have hm : m.Configured :=
    ⟨haccepted, rfl, rfl, Store.ofMemory_sound haccepted.units_lt, Array.size_replicate, rfl, rfl,
      by decide⟩
  have himage : (InputSource.ofBytes image).Delivers image :=
    InputSource.delivers_ofBytes (by decide)
  obtain ⟨hiff, hstarted⟩ := boot_ok_iff hm (show 0 + 4 ≤ 8 by decide) himage
    (Option.some_ne_none _) (by decide)
  obtain ⟨info, m', hok⟩ := hiff.mpr
    ⟨by decide, show 8 ≤ 32 by decide, show 8 ≤ (32 - 8) / 8 * 8 by decide⟩
  exact ⟨info, m', hok, hstarted info m' hok⟩

end Machine

end RiscvMachine
