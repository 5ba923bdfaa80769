import RiscvMachine.Proofs.Cache.Flush
import RiscvMachine.Proofs.DeviceTree.Patching
import RiscvMachine.Proofs.Machine.Flat

set_option autoImplicit false

/-! # Booting by plan

Over reliable units, and with memory for a chunk of the image, a boot either goes by the plan of its
setup (`GuestSetup.plan?`), or there is no plan and it fails (`boot_spec`). It starts from any state
of the machine: the cache is emptied first, and image and device tree go to the store, whose other
bytes stay as they are.

The image arrives in chunks. Loading the rest of a stream is loading its first chunk and then
what is left, so the induction is on the fuel, which bounds the chunks.
-/

namespace RiscvMachine

/-- There is a plan if the image can be read and leaves room for the device tree, whose cell can be
written. -/
theorem GuestSetup.plan?_eq_some_iff {setup : GuestSetup} {source : InputSource}
    {plan : BootPlan} :
    setup.plan? source = some plan ↔
      ∃ image offset tree, setup.image? source = some image ∧
        setup.deviceTree.placement setup.ramSize = .ok offset ∧ image.size ≤ offset.toNat ∧
        setup.deviceTree.withRamSize offset = .ok tree ∧ plan = ⟨image, offset, tree.blob⟩ := by
  unfold plan?
  constructor
  · intro h
    split at h
    · rename_i image offset himage hoffset
      split at h
      · cases h
      rename_i hle
      split at h
      · rename_i tree htree
        cases h
        exact ⟨image, offset, tree, himage, hoffset, Nat.le_of_not_lt hle, htree, rfl⟩
      · cases h
    · cases h
  · rintro ⟨image, offset, tree, himage, hoffset, hle, htree, rfl⟩
    simp only [himage, hoffset, if_neg (Nat.not_lt.mpr hle), htree]

/-- Image and device tree of a plan lie in RAM, one behind the other. -/
theorem GuestSetup.plan?_fits {setup : GuestSetup} {source : InputSource} {plan : BootPlan}
    (h : setup.plan? source = some plan) :
    plan.image.size ≤ plan.offset.toNat ∧
      plan.offset.toNat + plan.tree.size ≤ setup.ramSize.toNat := by
  obtain ⟨image, offset, tree, -, hoffset, hle, htree, rfl⟩ := plan?_eq_some_iff.mp h
  exact ⟨hle, DeviceTree.placement_fits hoffset htree⟩

namespace Machine

variable {υ : Type} [StorageUnit υ] [ReliableUnit υ]

def withStore (s : Store υ) (m : Machine υ) : Machine υ :=
  m.mapCache fun cache => { cache with store := s }

/-! ## Placing bytes -/

/-- Bytes that fit are placed in the store, and nothing else is changed. -/
theorem place_succeeds {m : Machine υ} (hm : m.cache.store.Sound) {offset : UInt32}
    {bytes : ByteArray} (h : offset.toNat + bytes.size ≤ m.cache.store.size) :
    ∃ s, place offset bytes m = .ok () (m.withStore s) ∧ m.cache.store.Follows s ∧
      s.contents = m.cache.store.contents.write offset.toNat bytes := by
  obtain ⟨s, hwrite, hfollows, hcontents⟩ := Store.write_succeeds hm h
  refine ⟨s, ?_, hfollows, hcontents⟩
  have hstore : Store.write offset bytes m.platform.cache.store = .ok () s := hwrite
  simp only [place, onMemory, onCache, Cache.onStore, hstore]
  rfl

/-! ## Loading an image -/

/-- What loading bytes behind the first `length` may come to: they are in the store, or there is
nothing to load or no room for it. -/
def Loads (m : Machine υ) (length : Nat) (bytes? : Option ByteArray) :
    EStateM.Result MachineError (Machine υ) Nat → Prop
  | .ok n m' => ∃ bytes s, bytes? = some bytes ∧ n = length + bytes.size ∧
    n ≤ m.config.ramSize.toNat ∧ m' = m.withStore s ∧ m.cache.store.Follows s ∧
    s.contents = m.cache.store.contents.write length bytes
  | .error _ _ => ∀ bytes, bytes? = some bytes → m.config.ramSize.toNat < length + bytes.size

/-- A loaded chunk and what is loaded behind it. -/
theorem Loads.behind {m : Machine υ} {s : Store υ} {length : Nat} {chunk : ByteArray}
    (hfollows : m.cache.store.Follows s)
    (hcontents : s.contents = m.cache.store.contents.write length chunk) {bytes? : Option ByteArray}
    {result : EStateM.Result MachineError (Machine υ) Nat}
    (h : (m.withStore s).Loads (length + chunk.size) bytes? result) :
    m.Loads length (bytes?.map (chunk ++ ·)) result := by
  cases result with
  | ok n m' =>
      obtain ⟨bytes, s', hbytes, hn, hroom, hm', hfollows', hcontents'⟩ := h
      refine ⟨chunk ++ bytes, s', by rw [hbytes]; rfl, ?_, hroom, hm', hfollows.trans hfollows', ?_⟩
      · rw [hn, ByteArray.size_append, Nat.add_assoc]
      · rw [hcontents', Memory.write_append, ← hcontents]
        rfl
  | error error m' =>
      intro whole hwhole
      obtain ⟨bytes, hbytes, rfl⟩ := Option.map_eq_some_iff.mp hwhole
      have hroom := h bytes hbytes
      rwa [Nat.add_assoc, ← ByteArray.size_append] at hroom

/-- Loading the rest of a stream. -/
theorem loadChunks_spec {m : Machine υ} (hm : m.cache.store.Sound)
    (hcapacity : m.config.ramSize.toNat ≤ m.cache.store.size) (fuel : Nat) {length : Nat}
    (hlength : length ≤ m.config.ramSize.toNat) {decoders : Decoders}
    (stream : ImageStream decoders) :
    m.Loads length (stream.rest? m.config.imageChunkSize.toNat fuel)
      (loadChunks fuel length stream m) := by
  -- the machine varies: each chunk goes into the store that the one before has left
  induction fuel generalizing m length stream with
  | zero =>
      intro bytes hbytes
      cases hbytes
  | succ fuel ih =>
      unfold loadChunks ImageStream.rest?
      cases ImageStream.readChunk m.config.imageChunkSize.toNat stream with
      | error failure stream' =>
          intro bytes hbytes
          cases hbytes
      | ok chunk stream' =>
          simp only
          by_cases hempty : chunk.isEmpty
          · rw [if_pos hempty, if_pos hempty]
            refine ⟨ByteArray.empty, m.cache.store, rfl, rfl, hlength, rfl, .refl hm, ?_⟩
            rw [Memory.write_empty]
          · rw [if_neg hempty, if_neg hempty]
            by_cases hroom : m.config.ramSize.toNat < length + chunk.size
            · -- what starts with a chunk that does not fit does not fit
              rw [if_pos hroom]
              intro whole hwhole
              obtain ⟨bytes, -, rfl⟩ := Option.map_eq_some_iff.mp hwhole
              rw [ByteArray.size_append]
              omega
            · rw [if_neg hroom]
              have hoffset : (UInt32.ofNat length).toNat = length :=
                UInt32.toNat_ofNat_of_lt' (hlength.trans_lt m.config.ramSize.toNat_lt)
              have hfits : (UInt32.ofNat length).toNat + chunk.size ≤ m.cache.store.size := by
                rw [hoffset]
                omega
              obtain ⟨s, hplace, hfollows, hcontents⟩ := place_succeeds hm hfits
              rw [hoffset] at hcontents
              rw [hplace]
              apply Loads.behind hfollows hcontents
              exact ih (m := m.withStore s) hfollows.sound
                (hcapacity.trans_eq hfollows.size.symm) (Nat.le_of_not_lt hroom) stream'

/-- Loading the contents of a source, in chunks for which there is memory. -/
theorem loadImage_spec {m : Machine υ} (hm : m.cache.store.Sound)
    (hcapacity : m.config.ramSize.toNat ≤ m.cache.store.size)
    (hchunk : m.config.imageChunkSize.toNat < 2 ^ 63) (source : InputSource) :
    m.Loads 0 (m.setup.image? source) (loadImage .standard source m) := by
  unfold loadImage GuestSetup.image?
  cases ImageStream.ofSource? .standard source with
  | none =>
      intro bytes hbytes
      cases hbytes
  | some stream =>
      rw [Checked.allocate_of_lt (by rwa [Nat.mul_one])]
      exact loadChunks_spec hm hcapacity _ (Nat.zero_le _) stream

omit [ReliableUnit υ] in
theorem chunk_lt_of_loadImage {decoders : Decoders} {source : InputSource} {m m' : Machine υ}
    {length : Nat} (h : loadImage decoders source m = .ok length m') :
    m.config.imageChunkSize.toNat < 2 ^ 63 := by
  unfold loadImage at h
  split at h
  · cases h
  split at h
  · cases h
  · rename_i hallocate
    rw [← Nat.mul_one m.config.imageChunkSize.toNat]
    exact Checked.allocate_eq_ok hallocate

/-! ## Placing the device tree -/

/-- What placing the device tree behind an image may come to. -/
def PlacesTree (m : Machine υ) (length : Nat) :
    EStateM.Result MachineError (Machine υ) UInt32 → Prop
  | .ok offset m' => ∃ s tree, m.deviceTree.placement m.config.ramSize = .ok offset ∧
    length ≤ offset.toNat ∧ m.deviceTree.withRamSize offset = .ok tree ∧ m' = m.withStore s ∧
    m.cache.store.Follows s ∧
    s.contents = m.cache.store.contents.write offset.toNat tree.blob
  | .error _ _ => ∀ offset, m.deviceTree.placement m.config.ramSize = .ok offset →
    length ≤ offset.toNat → ∀ tree, m.deviceTree.withRamSize offset ≠ .ok tree

theorem placeDeviceTree_spec {m : Machine υ} (hm : m.cache.store.Sound)
    (hcapacity : m.config.ramSize.toNat ≤ m.cache.store.size) (length : Nat) :
    m.PlacesTree length (placeDeviceTree length m) := by
  unfold placeDeviceTree
  cases hoffset : m.deviceTree.placement m.config.ramSize with
  | error failure =>
      intro offset h
      rw [hoffset] at h
      cases h
  | ok offset =>
      have hsame {offset' : UInt32}
          (h : m.deviceTree.placement m.config.ramSize = .ok offset') : offset' = offset := by
        rw [hoffset] at h
        cases h
        rfl
      simp only
      -- the tree would start within the image
      by_cases hlt : offset.toNat < length
      · rw [if_pos hlt]
        intro offset' h hle
        rw [hsame h] at hle
        exact absurd hlt (Nat.not_lt.mpr hle)
      rw [if_neg hlt]
      cases htree : m.deviceTree.withRamSize offset with
      | error why =>
          intro offset' h _ tree
          rw [hsame h, htree]
          exact nofun
      | ok tree =>
          obtain ⟨s, hplace, hfollows, hcontents⟩ :=
            place_succeeds hm ((DeviceTree.placement_fits hoffset htree).trans hcapacity)
          simp only [hplace]
          exact ⟨s, tree, hoffset, Nat.le_of_not_lt hlt, htree, rfl, hfollows, hcontents⟩

/-! ## Booting -/

omit [ReliableUnit υ] in
/-- The parts of a boot, one after the other. -/
theorem bootWith_eq (decoders : Decoders) (m : Machine υ) (source : InputSource) :
    bootWith decoders source m =
      match loadImage decoders source (m.mapCache Cache.invalidate) with
      | .error error m₁ => .error error m₁
      | .ok length m₁ =>
        match placeDeviceTree length m₁ with
        | .error error m₂ => .error error m₂
        | .ok offset m₂ =>
          .ok ⟨length, offset + ramBase, offset⟩
            (m₂.onHart (Hart.boot · (offset + ramBase))).resetCounters := by
  simp only [bootWith, bind, EStateM.bind, modify, modifyGet, MonadStateOf.modifyGet,
    EStateM.modifyGet]
  cases loadImage decoders source (m.mapCache Cache.invalidate) with
  | error error m₁ => rfl
  | ok length m₁ =>
      simp only
      cases placeDeviceTree length m₁ <;> rfl

omit [ReliableUnit υ] in
theorem chunk_lt_of_boot {source : InputSource} {m m' : Machine υ} {info : BootInfo}
    (h : boot source m = .ok info m') : m.config.imageChunkSize.toNat < 2 ^ 63 := by
  rw [boot, bootWith_eq] at h
  split at h
  · cases h
  · rename_i hload
    exact chunk_lt_of_loadImage (m := m.mapCache Cache.invalidate) hload

/-- `m'` is what a boot of `m` by the plan leaves. -/
structure BootedBy (m : Machine υ) (plan : BootPlan) (m' : Machine υ) : Prop where
  config : m'.config = m.config
  deviceTree : m'.deviceTree = m.deviceTree
  hart : m'.hart = m.hart.boot (plan.offset + ramBase)
  console : m'.platform.console = m.platform.console
  ramSize : m'.platform.ramSize = m.platform.ramSize
  cache : m.cache.Follows m'.cache
  coherent : m'.cache.Coherent
  contents : m'.cache.contents = plan.load m.cache.store.contents

/-- The machine that a boot by the plan leaves, over the given store. -/
def afterBoot (m : Machine υ) (plan : BootPlan) (s : Store υ) : Machine υ :=
  (((m.mapCache Cache.invalidate).withStore s).onHart
    (Hart.boot · (plan.offset + ramBase))).resetCounters

/-- Emptied lines over a store into which the plan has been loaded. -/
theorem bootedBy_of_store {m : Machine υ} (hgeometry : m.cache.geometry.Valid)
    (hcount : m.cache.lines.size = m.cache.geometry.lineCount.toNat) (plan : BootPlan)
    {s : Store υ} (hfollows : m.cache.store.Follows s)
    (hcontents : s.contents = plan.load m.cache.store.contents) :
    m.BootedBy plan (m.afterBoot plan s) := by
  let cache : Cache υ :=
    { m.cache.invalidate.resetCounters with store := s.resetCounters }
  have hvacant : cache.Vacant := m.cache.vacant_invalidate
  have hsound : cache.store.Sound := ⟨hfollows.sound.units, hfollows.sound.size_lt⟩
  have hcoherent : cache.Coherent :=
    Cache.coherent_of_vacant hgeometry hsound (Array.size_map.trans hcount) hvacant
  have hshown : cache.contents = s.contents := Cache.contents_of_vacant hvacant
  have hcache : m.cache.Follows cache :=
    ⟨hcoherent.toWellFormed, rfl, ⟨hsound, hfollows.unitCapacity, hfollows.unitCount⟩⟩
  exact ⟨rfl, rfl, rfl, rfl, rfl, hcache, hcoherent, hshown.trans hcontents⟩

/-- A boot places image and device tree in the store as planned, whatever the cache was like, or
there is no plan. -/
def Places (m : Machine υ) (plan? : Option BootPlan) :
    EStateM.Result MachineError (Machine υ) BootInfo → Prop
  | .ok info m' => ∃ plan s, plan? = some plan ∧ info = plan.info ∧ m' = m.afterBoot plan s ∧
    m.cache.store.Follows s ∧ s.contents = plan.load m.cache.store.contents
  | .error _ _ => plan? = none

theorem boot_places {m : Machine υ} (hm : m.cache.store.Sound)
    (hcapacity : m.config.ramSize.toNat ≤ m.cache.store.size)
    (hchunk : m.config.imageChunkSize.toNat < 2 ^ 63) (source : InputSource) :
    m.Places (m.setup.plan? source) (boot source m) := by
  have hload := loadImage_spec (m := m.mapCache Cache.invalidate) hm hcapacity hchunk source
  rw [boot, bootWith_eq]
  revert hload
  cases loadImage .standard source (m.mapCache Cache.invalidate) with
  | error error m₁ =>
      intro hload
      apply Option.eq_none_iff_forall_ne_some.mpr
      intro plan hplan
      obtain ⟨image, offset, tree, himage, hoffset, hle, htree, -⟩ :=
        GuestSetup.plan?_eq_some_iff.mp hplan
      -- an image that cannot be loaded is larger than RAM, and the device tree lies in RAM
      have hroom : m.config.ramSize.toNat < 0 + image.size := hload image himage
      have hfits : offset.toNat + _ ≤ m.config.ramSize.toNat :=
        DeviceTree.placement_fits hoffset htree
      omega
  | ok length m₁ =>
      rintro ⟨image, s, himage, rfl, hroom, rfl, hfollows, hcontents⟩
      have hplace := placeDeviceTree_spec (m := (m.mapCache Cache.invalidate).withStore s)
        hfollows.sound (hcapacity.trans_eq hfollows.size.symm) (0 + image.size)
      simp only
      revert hplace
      cases placeDeviceTree (0 + image.size) ((m.mapCache Cache.invalidate).withStore s) with
      | error error m₂ =>
          intro hplace
          apply Option.eq_none_iff_forall_ne_some.mpr
          intro plan hplan
          obtain ⟨image', offset, tree, himage', hoffset, hle, htree, -⟩ :=
            GuestSetup.plan?_eq_some_iff.mp hplan
          obtain rfl : image = image' := Option.some_inj.mp (himage.symm.trans himage')
          exact hplace offset hoffset (by omega) tree htree
      | ok offset m₂ =>
          rintro ⟨s', tree, hoffset, hle, htree, rfl, hfollows', hcontents'⟩
          rw [Nat.zero_add] at hle ⊢
          have hplan := GuestSetup.plan?_eq_some_iff.mpr
            ⟨image, offset, tree, himage, hoffset, hle, htree, rfl⟩
          refine ⟨_, s', hplan, rfl, rfl, hfollows.trans hfollows', ?_⟩
          rw [hcontents']
          exact congrArg (Memory.write · _ _) hcontents

/-- A boot goes by the plan, or there is none. -/
def Boots (m : Machine υ) (plan? : Option BootPlan) :
    EStateM.Result MachineError (Machine υ) BootInfo → Prop
  | .ok info m' => ∃ plan, plan? = some plan ∧ info = plan.info ∧ m.BootedBy plan m'
  | .error _ _ => plan? = none

theorem boot_spec {m : Machine υ} (hm : m.cache.WellFormed)
    (hcapacity : m.config.ramSize.toNat ≤ m.cache.store.size)
    (hchunk : m.config.imageChunkSize.toNat < 2 ^ 63) (source : InputSource) :
    m.Boots (m.setup.plan? source) (boot source m) := by
  have hplaces := boot_places hm.store hcapacity hchunk source
  revert hplaces
  cases boot source m with
  | error error m' => exact id
  | ok info m' =>
      rintro ⟨plan, s, hplan, hinfo, rfl, hfollows, hcontents⟩
      have hbooted := bootedBy_of_store hm.geometry hm.lineCount plan hfollows hcontents
      exact ⟨plan, hplan, hinfo, hbooted⟩

end Machine

end RiscvMachine
