import RiscvMachine.Proofs.Machine.Build

set_option autoImplicit false

/-! # Sizes in machine words

Validation reckons with the bytes of all units, and gives up where 64 bits cannot count them. It
bounds neither the number nor the size of the lines. Whether a cache is made and whether it serves
an access is therefore a matter of the configuration (`Config.reckoning`): there must be memory for
all lines, and a line must not be larger than `2 ^ 31` bytes, or else the shift that cuts an address
into block and position is one by 32 bits or more, which has no value. What an access that is served
has reckoned is exact.
-/

namespace RiscvMachine

namespace CacheGeometry

variable {g : CacheGeometry}

theorem lineShift_eq_log2 (hsize : g.lineSize.toNat.isPowerOfTwo) :
    g.lineShift.toNat = g.lineSize.toNat.log2 := by
  rw [(lineShift_eq hsize).1, Nat.log2_two_pow]

/-- Block and position put an address together again. -/
theorem Valid.base_add_within (h : g.Valid) (addr : UInt32) :
    (g.base (g.block addr)).toNat + g.within addr = addr.toNat := by
  have hfits : (g.block addr).toNat * g.lineSize.toNat < 2 ^ 32 := by
    rw [block_toNat h]
    exact (Nat.div_mul_le_self _ _).trans_lt addr.toNat_lt
  rw [base_toNat h hfits, block_toNat h, within_toNat h]
  exact Nat.div_add_mod' _ _

/-- An address is cut and put together again just if lines are not too large. -/
theorem cut_iff (hsize : g.lineSize.toNat.isPowerOfTwo) (hfour : 4 ≤ g.lineSize.toNat) :
    (∀ addr, ∃ block base, g.blockOf addr = .ok block ∧ g.baseOf block = .ok base ∧
        base.toNat + g.within addr = addr.toNat) ↔ g.lineSize.toNat ≤ 2 ^ 31 := by
  constructor
  · intro hcut
    by_contra hwide
    obtain ⟨block, -, hblock, -⟩ := hcut 0
    rw [blockOf_eq_error hsize (Nat.lt_of_not_le hwide)] at hblock
    cases hblock
  · intro hle addr
    -- the number of lines has no part in it
    have hvalid : Valid { g with lineCount := 1 } :=
      ⟨hsize, hfour, hle, ⟨0, rfl⟩, by
        change g.lineSize.toNat * 1 < 2 ^ 64
        omega⟩
    exact ⟨g.block addr, g.base (g.block addr), hvalid.blockOf_eq addr, hvalid.baseOf_eq _,
      hvalid.base_add_within addr⟩

end CacheGeometry

namespace Cache

variable {υ : Type} [StorageUnit υ]

omit [StorageUnit υ] in
theorem orPanic_eq_ok {σ α : Type} {x : Except Panic α} {a : α} {s s' : σ}
    (h : orPanic x s = .ok a s') : x = .ok a := by
  cases x with
  | ok b =>
      cases h
      rfl
  | error why => cases h

/-- What an access has reckoned that finds its line. -/
theorem lookup_eq_ok {c c' : Cache υ} {addr : UInt32} {length : Nat} {start : UInt64}
    (h : lookup addr length c = .ok start c') :
    ∃ block, c.geometry.blockOf addr = .ok block ∧
      c.geometry.within addr + length ≤ c.geometry.lineSize.toNat ∧
      c.geometry.offsetOf (c.geometry.index block) (c.geometry.within addr) = .ok start := by
  obtain ⟨_, c₁, hget, h⟩ := ok_of_bind h
  cases hget
  obtain ⟨block, c₂, hblock, h⟩ := ok_of_bind h
  refine ⟨block, orPanic_eq_ok hblock, ?_⟩
  simp only at h
  split at h
  · obtain ⟨_, _, hthrow, -⟩ := ok_of_bind h
    cases hthrow
  -- the checks that give up are behind, and what follows changes lines and counters only
  rename_i hinside
  refine ⟨Nat.le_of_not_lt hinside, ?_⟩
  obtain ⟨_, c₃, -, h⟩ := ok_of_bind h
  obtain ⟨_, c₄, -, h⟩ := ok_of_bind h
  generalize (Option.map Line.residency _).getD Residency.vacant = residency at h
  -- each way to the line ends with the place of the access
  split at h
  · obtain ⟨_, _, -, h⟩ := ok_of_bind h
    exact orPanic_eq_ok h
  · cases residency with
    | dirty old =>
        obtain ⟨_, _, -, h⟩ := ok_of_bind h
        obtain ⟨_, _, -, h⟩ := ok_of_bind h
        exact orPanic_eq_ok h
    | _ =>
        obtain ⟨_, _, -, h⟩ := ok_of_bind h
        exact orPanic_eq_ok h

/-- An access that finds its line has the place among the bytes of all lines where the line of its
block puts its position in the block, and lies inside the line. -/
theorem start_of_lookup {c c' : Cache υ} (hg : c.geometry.Valid) {addr : UInt32} {length : Nat}
    {start : UInt64} (h : lookup addr length c = .ok start c') :
    let size := c.geometry.lineSize.toNat
    let line := addr.toNat / size % c.geometry.lineCount.toNat
    start.toNat = line * size + addr.toNat % size ∧ start.toNat + length ≤ (line + 1) * size ∧
      (line + 1) * size ≤ c.geometry.lineCount.toNat * size := by
  intro size line
  obtain ⟨block, hblock, hinside, hoffset⟩ := lookup_eq_ok h
  rw [hg.blockOf_eq] at hblock
  cases hblock
  rw [hg.offsetOf_eq] at hoffset
  cases hoffset
  rw [CacheGeometry.within_toNat hg] at hinside
  have hstart := (hg.start_spec addr).1
  rw [CacheGeometry.index_toNat hg, CacheGeometry.block_toNat hg,
    CacheGeometry.within_toNat hg] at hstart
  refine ⟨hstart, ?_, Nat.mul_le_mul_right _ (Nat.mod_lt _ hg.lineCount_pos)⟩
  rw [hstart, Nat.succ_mul, Nat.add_assoc]
  exact Nat.add_le_add_left hinside _

end Cache

/-! ## What validation leaves open -/

namespace Config

/-- What is reckoned in machine words for a configuration that validation accepts. The total of the
units is exact, and it is the capacity that the store of every machine tells. A cache is made just
if there is memory for the states and the bytes of all lines. The shift of an address is the
logarithm of the line size, below 32 just if a line has no more than `2 ^ 31` bytes, and just then
every address is cut into block and position and put together again. An access to a cache that has
been made is reckoned in the place that its line and its position in the line give it, inside the
bytes of that line; with lines that are too large it gives up. Validation sees to the units only. -/
theorem reckoning {c : Config} (hvalid : c.validate = .ok ()) :
    let units := c.backing.unitCount.toNat * c.backing.unitCapacity.toNat
    let lines := c.cache.lineCount.toNat * c.cache.lineSize.toNat
    (∃ total, c.backing.totalCapacity = .ok total ∧ total.toNat = units ∧
      ∀ file dir? m dir?', Machine.build c file dir? = .ok m dir?' →
        m.cache.geometry = c.cache ∧ m.cache.store.capacity = .ok total) ∧
    (∀ store : Store Medium, (∃ cache, Cache.new c.cache store = .ok cache) ↔
      c.cache.lineCount.toNat * Cache.lineStateSize < 2 ^ 63 ∧ lines < 2 ^ 63) ∧
    c.cache.lineShift.toNat = c.cache.lineSize.toNat.log2 ∧
    (c.cache.lineShift < 32 ↔ c.cache.lineSize.toNat ≤ 2 ^ 31) ∧
    ((∀ addr, ∃ block base, c.cache.blockOf addr = .ok block ∧ c.cache.baseOf block = .ok base ∧
        base.toNat + c.cache.within addr = addr.toNat) ↔ c.cache.lineSize.toNat ≤ 2 ^ 31) ∧
    ∀ (store : Store Medium) made, Cache.new c.cache store = .ok made →
      ∀ (cache : Cache Medium) addr length, cache.geometry = c.cache →
        (∀ start cache', Cache.lookup addr length cache = .ok start cache' →
          let size := c.cache.lineSize.toNat
          let line := addr.toNat / size % c.cache.lineCount.toNat
          start.toNat = line * size + addr.toNat % size ∧
            start.toNat + length ≤ (line + 1) * size ∧ (line + 1) * size ≤ lines) ∧
        (2 ^ 31 < c.cache.lineSize.toNat →
          Cache.lookup addr length cache = .error (.panic .shiftRight) cache) := by
  intro units lines
  have h : c.Accepted := (validate_eq_ok_iff c).mp hvalid
  have hfour : 4 ≤ c.cache.lineSize.toNat := UInt64.le_iff_toNat_le.mp h.four_le_lineSize
  have hsize := h.lineSize_isPowerOfTwo
  refine ⟨?_, ?_, CacheGeometry.lineShift_eq_log2 hsize, ?_,
    CacheGeometry.cut_iff hsize hfour, ?_⟩
  · obtain ⟨total, htotal, hexact⟩ := totalCapacity_eq h.units_lt
    refine ⟨total, htotal, hexact, fun file dir? m dir?' hbuild => ?_⟩
    obtain ⟨store, cache, tree, rfl, hnew, hcount, hcapacity⟩ := Machine.units_of_build hbuild
    obtain ⟨rfl, -⟩ := Cache.new_eq_ok_iff.mp hnew
    refine ⟨rfl, ?_⟩
    change store.capacity = _
    rw [Store.capacity, hcount, hcapacity]
    exact htotal
  · intro store
    constructor
    · rintro ⟨cache, hnew⟩
      exact (Cache.new_eq_ok_iff.mp hnew).2.2.2.2
    · rintro ⟨hstates, hlines⟩
      exact ⟨_, Machine.cache_of_accepted h hstates hlines store⟩
  · rw [UInt32.lt_iff_toNat_lt]
    exact (CacheGeometry.lineShift_eq hsize).2
  · intro store made hnew cache addr length hgeometry
    rw [← hgeometry] at hnew hsize
    have hwide (hlt : 2 ^ 31 < cache.geometry.lineSize.toNat) :=
      Cache.lookup_wide hsize hlt addr length
    refine ⟨fun start cache' hlookup => ?_, fun hlt => hwide (by rwa [hgeometry])⟩
    -- an access that is served has had its address cut
    have hle : cache.geometry.lineSize.toNat ≤ 2 ^ 31 := by
      by_contra hlt
      rw [hwide (Nat.lt_of_not_le hlt)] at hlookup
      cases hlookup
    have hplace := Cache.start_of_lookup (Cache.valid_of_new hnew hle) hlookup
    rwa [hgeometry] at hplace

/-- Validation accepts `2 ^ 32` lines of `2 ^ 32` bytes. The total of the units is exact, but there
is no memory for the lines, the shift of an address is one by 32 bits, and there are addresses that
are not cut and put together again. -/
theorem reckoning_oversized :
    let c : Config := { cache := { lineSize := 0x100000000, lineCount := 0x100000000 } }
    c.validate = .ok () ∧
      (∃ total, c.backing.totalCapacity = .ok total ∧ total.toNat = 16777216) ∧
      (∀ store : Store Medium, ¬ ∃ cache, Cache.new c.cache store = .ok cache) ∧
      c.cache.lineShift = 32 ∧
      ∃ addr, ¬ ∃ block base, c.cache.blockOf addr = .ok block ∧ c.cache.baseOf block = .ok base ∧
        base.toNat + c.cache.within addr = addr.toNat := by
  intro c
  have hvalid : c.validate = .ok () :=
    (validate_eq_ok_iff c).mpr ⟨by decide, by decide, by decide, by decide, by decide, by decide,
      ⟨32, rfl⟩, ⟨32, rfl⟩, by decide, by decide, by decide⟩
  obtain ⟨⟨total, htotal, hexact, -⟩, hmade, hshift, -, hcut, -⟩ := reckoning hvalid
  refine ⟨hvalid, ⟨total, htotal, hexact.trans (by decide)⟩, fun store hnew => ?_,
    UInt32.toNat_inj.mp (hshift.trans (by decide)), not_forall.mp (mt hcut.mp (by decide))⟩
  exact absurd ((hmade store).mp hnew).2 (by decide)

end Config

end RiscvMachine
