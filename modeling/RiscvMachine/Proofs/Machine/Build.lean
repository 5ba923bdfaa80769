import RiscvMachine.Machine.Basic
import RiscvMachine.Proofs.Cache.Making
import RiscvMachine.Proofs.Config

set_option autoImplicit false

/-! # Building a machine

What has been built went through all the steps, over as many units as are configured
(`of_build`, `units_of_build`). In host memory new units hold zeros and are joined without fail, so
from a configuration that validation accepts a machine is built unless its device tree is refused,
as long as there is memory for the units and the lines (`build_eq`).
-/

namespace RiscvMachine

namespace Store

def ofMemory (backing : BackingConfig) : Store Medium :=
  ⟨Array.replicate backing.unitCount.toNat (.memory backing.unitCapacity),
    backing.unitCapacity, 0, 0⟩

theorem ofUnits_memory {backing : BackingConfig} (h : 0 < backing.unitCount.toNat) :
    ofUnits (Array.replicate backing.unitCount.toNat (Medium.memory backing.unitCapacity)) =
      .ok (ofMemory backing) := by
  have hfirst : (Array.replicate backing.unitCount.toNat
      (Medium.memory backing.unitCapacity))[0]? = some (.memory backing.unitCapacity) := by
    rw [Array.getElem?_replicate, if_pos h]
  have hsame : (Array.replicate backing.unitCount.toNat
      (Medium.memory backing.unitCapacity)).findIdx? (fun u =>
        StorageUnit.capacity u != StorageUnit.capacity (Medium.memory backing.unitCapacity))
      = none := by
    rw [Array.findIdx?_eq_none_iff]
    intro u hu
    rw [Array.eq_of_mem_replicate hu]
    exact bne_self_eq_false _
  simp only [ofUnits, hfirst, hsame]
  rfl

theorem getElem?_ofMemory {backing : BackingConfig} {i : Nat} {u : Medium}
    (h : (ofMemory backing).units[i]? = some u) : u = .memory backing.unitCapacity := by
  rw [ofMemory, Array.getElem?_replicate] at h
  split at h
  · exact (Option.some_inj.mp h).symm
  · cases h

theorem ofMemory_units (backing : BackingConfig) : (ofMemory backing).UnitsSound := by
  intro i u hu
  rw [getElem?_ofMemory hu]
  exact ⟨Medium.memory_intact _, rfl⟩

theorem size_ofMemory (backing : BackingConfig) :
    (ofMemory backing).size = backing.unitCount.toNat * backing.unitCapacity.toNat := by
  rw [size, ofMemory, Array.size_replicate]

theorem ofMemory_sound {backing : BackingConfig}
    (h : backing.unitCount.toNat * backing.unitCapacity.toNat < 2 ^ 64) :
    (ofMemory backing).Sound :=
  ⟨ofMemory_units backing, (size_ofMemory backing).trans_lt h⟩

/-- New units hold zeros. -/
theorem contents_ofMemory (backing : BackingConfig) (a : Nat) :
    (ofMemory backing).contents a = 0 := by
  unfold contents
  split
  · rename_i u hu
    rw [getElem?_ofMemory hu]
    exact Bytes.byteAt_empty (a % backing.unitCapacity.toNat)
  · rfl

/-- Joined units have the capacity of the first of them. -/
theorem of_ofUnits {units : Array Medium} {s : Store Medium} (h : ofUnits units = .ok s) :
    s.units = units ∧ ∃ u ∈ units, s.unitCapacity = u.capacity := by
  simp only [ofUnits] at h
  split at h
  · cases h
  · rename_i first hfirst
    split at h
    · cases h
    · cases h
      exact ⟨rfl, first, Array.mem_of_getElem? hfirst, rfl⟩

end Store

/-- There can be memory for the handles of the units and for the states and the bytes of the
lines. -/
structure Config.Fits (c : Config) : Prop where
  units : c.backing.unitCount.toNat * Machine.unitHandleSize < 2 ^ 63
  states : c.cache.lineCount.toNat * Cache.lineStateSize < 2 ^ 63
  lines : c.cache.lineCount.toNat * c.cache.lineSize.toNat < 2 ^ 63

namespace Machine

/-- As many units are opened as are configured, each with the capacity that is configured. -/
theorem openUnits_spec {backing : BackingConfig} {dir? dir?' : Option UnitDirectory}
    {units : Array Medium} (hopen : openUnits backing dir? = .ok units dir?') :
    units.size = backing.unitCount.toNat ∧ ∀ u ∈ units, u.capacity = backing.unitCapacity := by
  simp only [openUnits] at hopen
  split at hopen
  · cases hopen
  · cases hopen
    refine ⟨Array.size_replicate, fun u hu => ?_⟩
    rw [Array.eq_of_mem_replicate hu]
    rfl
  · split at hopen
    · rename_i hcount
      cases hopen
      exact ⟨hcount.symm, fun u hu => absurd hu (Array.not_mem_empty u)⟩
    · cases hopen
  · cases hopen
    refine ⟨Array.size_ofFn, fun u hu => ?_⟩
    obtain ⟨i, rfl⟩ := Array.mem_ofFn.mp hu
    rfl

/-- The steps that building goes through. -/
theorem of_build {config : Config} {file : Option ByteArray} {dir? dir?' : Option UnitDirectory}
    {m : Machine Medium} (hbuild : build config file dir? = .ok m dir?') :
    ∃ units store cache tree, config.Accepted ∧ openUnits config.backing dir? = .ok units dir?' ∧
      Store.ofUnits units = .ok store ∧ Cache.new config.cache store = .ok cache ∧
      chooseDeviceTree config file = .ok tree ∧ m = new config cache tree := by
  unfold build at hbuild
  cases hvalid : config.validate with
  | error error =>
      rw [hvalid] at hbuild
      cases hbuild
  | ok _ =>
      rw [hvalid] at hbuild
      cases hopen : openUnits config.backing dir? with
      | error error dir₁ =>
          simp only [hopen] at hbuild
          cases hbuild
      | ok units dir₁ =>
          simp only [hopen] at hbuild
          cases hassemble : assemble config units file with
          | error error =>
              rw [hassemble] at hbuild
              cases hbuild
          | ok machine =>
              rw [hassemble] at hbuild
              cases hbuild
              obtain ⟨store, hjoin, hassemble⟩ := ok_of_except_bind hassemble
              obtain ⟨cache, hnew, hassemble⟩ := ok_of_except_bind hassemble
              obtain ⟨tree, htree, hassemble⟩ := ok_of_except_bind hassemble
              cases hassemble
              exact ⟨units, store, cache, tree, (Config.validate_eq_ok_iff config).mp hvalid, rfl,
                ok_of_mapError hjoin, ok_of_mapError hnew, ok_of_mapError htree, rfl⟩

/-- A machine has as many units as are configured, with the capacity that is configured, so that
its store tells the size that validation has looked at. -/
theorem units_of_build {config : Config} {file : Option ByteArray}
    {dir? dir?' : Option UnitDirectory} {m : Machine Medium}
    (hbuild : build config file dir? = .ok m dir?') :
    ∃ store cache tree, m = new config cache tree ∧ Cache.new config.cache store = .ok cache ∧
      store.units.size = config.backing.unitCount.toNat ∧
      store.unitCapacity = config.backing.unitCapacity := by
  obtain ⟨units, store, cache, tree, -, hopen, hjoin, hnew, -, rfl⟩ := of_build hbuild
  obtain ⟨hsize, hcapacity⟩ := openUnits_spec hopen
  obtain ⟨rfl, u, hu, hunit⟩ := Store.of_ofUnits hjoin
  exact ⟨store, cache, tree, rfl, hnew, hsize, hunit.trans (hcapacity u hu)⟩

/-- The cache of an accepted configuration is made if there is memory for it. -/
theorem cache_of_accepted {config : Config} (h : config.Accepted)
    (hstates : config.cache.lineCount.toNat * Cache.lineStateSize < 2 ^ 63)
    (hlines : config.cache.lineCount.toNat * config.cache.lineSize.toNat < 2 ^ 63)
    {υ : Type} [StorageUnit υ] (store : Store υ) :
    Cache.new config.cache store = .ok (.empty config.cache store) :=
  Cache.new_eq_ok_iff.mpr
    ⟨rfl, h.four_le_lineSize, h.lineSize_isPowerOfTwo, h.lineCount_isPowerOfTwo, hstates, hlines⟩

/-! ## Units in host memory -/

theorem openUnits_memory {backing : BackingConfig} (hkind : backing.kind = .memory)
    (hunits : backing.unitCount.toNat * unitHandleSize < 2 ^ 63) (dir? : Option UnitDirectory) :
    openUnits backing dir? =
      .ok (Array.replicate backing.unitCount.toNat (.memory backing.unitCapacity)) dir? := by
  simp only [openUnits, Checked.allocate_of_lt hunits, hkind]

/-- Building from an accepted configuration fails for the device tree only, as long as there is
memory. -/
theorem build_eq {config : Config} (h : config.Accepted) (hkind : config.backing.kind = .memory)
    (hunits : config.backing.unitCount.toNat * unitHandleSize < 2 ^ 63) {cache : Cache Medium}
    (hnew : Cache.new config.cache (.ofMemory config.backing) = .ok cache)
    (file : Option ByteArray) (dir? : Option UnitDirectory) :
    build config file dir? =
      match chooseDeviceTree config file with
      | .error error => .error (.deviceTree error) dir?
      | .ok tree => .ok (new config cache tree) dir? := by
  have hvalid : config.validate = .ok () := (Config.validate_eq_ok_iff config).mpr h
  unfold build
  rw [hvalid]
  simp only [openUnits_memory hkind hunits, assemble, Store.ofUnits_memory h.unitCount_pos, hnew,
    Except.mapError, bind, Except.bind]
  cases chooseDeviceTree config file <;> rfl

/-- Where there is a device tree, only memory can be wanting. -/
theorem build_or_panics {config : Config} (h : config.Accepted)
    (hkind : config.backing.kind = .memory) {file : Option ByteArray} {tree : DeviceTree}
    (htree : chooseDeviceTree config file = .ok tree) (dir? : Option UnitDirectory) :
    (∃ cache, Cache.new config.cache (.ofMemory config.backing) = .ok cache ∧
      build config file dir? = .ok (new config cache tree) dir?) ∨
    ¬ config.Fits ∧ ∃ why, build config file dir? = .error (.storage (.panic why)) dir? := by
  have hvalid : config.validate = .ok () := (Config.validate_eq_ok_iff config).mpr h
  cases hallocate : Checked.allocate config.backing.unitCount.toNat unitHandleSize with
  | error why =>
      refine .inr ⟨fun hfits => ?_, why, by simp only [build, hvalid, openUnits, hallocate]⟩
      rw [Checked.allocate_of_lt hfits.units] at hallocate
      cases hallocate
  | ok _ =>
      have hunits := Checked.allocate_eq_ok hallocate
      cases hnew : Cache.new config.cache (.ofMemory config.backing) with
      | ok cache =>
          refine .inl ⟨cache, rfl, ?_⟩
          rw [build_eq h hkind hunits hnew, htree]
      | error why =>
          refine .inr ⟨fun hfits => ?_, why, ?_⟩
          · rw [cache_of_accepted h hfits.states hfits.lines] at hnew
            cases hnew
          · simp only [build, hvalid, openUnits_memory hkind hunits, assemble,
              Store.ofUnits_memory h.unitCount_pos, hnew, Except.mapError, bind, Except.bind]

/-- What has been built over host memory was built from an accepted configuration. -/
theorem of_build_memory {config : Config} (hkind : config.backing.kind = .memory)
    {file : Option ByteArray} {dir? dir?' : Option UnitDirectory} {m : Machine Medium}
    (hbuild : build config file dir? = .ok m dir?') :
    ∃ cache tree, config.Accepted ∧ Cache.new config.cache (.ofMemory config.backing) = .ok cache ∧
      chooseDeviceTree config file = .ok tree ∧ m = new config cache tree := by
  obtain ⟨units, store, cache, tree, h, hopen, hjoin, hnew, htree, rfl⟩ := of_build hbuild
  simp only [openUnits, hkind] at hopen
  cases hallocate : Checked.allocate config.backing.unitCount.toNat unitHandleSize with
  | error why =>
      rw [hallocate] at hopen
      cases hopen
  | ok _ =>
      rw [hallocate] at hopen
      cases hopen
      rw [Store.ofUnits_memory h.unitCount_pos] at hjoin
      cases hjoin
      exact ⟨cache, tree, h, hnew, htree, rfl⟩

/-- The store of a new machine has room for RAM, and holds zeros. -/
theorem new_spec {config : Config} (h : config.Accepted) (hmemory : config.InMemory)
    {cache : Cache Medium} (hnew : Cache.new config.cache (.ofMemory config.backing) = .ok cache) :
    cache.WellFormed ∧ config.ramSize.toNat ≤ cache.store.size ∧
      ∀ a, cache.store.contents a = 0 := by
  have hvalid := Cache.valid_of_new hnew hmemory.lineSize_le
  obtain ⟨rfl, -⟩ := Cache.new_eq_ok_iff.mp hnew
  refine ⟨?_, ?_, Store.contents_ofMemory config.backing⟩
  · exact (Cache.empty_spec hvalid (Store.ofMemory_sound h.units_lt)).1.toWellFormed
  · exact h.ramSize_le_units.trans_eq (Store.size_ofMemory _).symm

end Machine

end RiscvMachine
