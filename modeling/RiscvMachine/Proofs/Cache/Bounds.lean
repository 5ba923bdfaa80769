import RiscvMachine.Proofs.Cache.Flush
import RiscvMachine.Proofs.Computation

set_option autoImplicit false

/-! # What the cache asks of the store lies in it

Whatever the units do, a transfer leaves the store as large as it was. So as long as the blocks that
the lines hold begin in the store (`Cache.Sized`), nothing that the cache writes back or fills a
line with lies outside the store, and the only failures are those of the units (`Cache.Safe`).
The laws of units are not needed for that.
-/

namespace RiscvMachine

/-! ## The store -/

namespace Store

variable {υ : Type}

theorem size_onUnit {ε α : Type} (i : Nat) (call : EStateM ε υ α) (s : Store υ) :
    (onUnit i call s).2.size = s.size := by
  cases hunit : s.units[i]? with
  | some u =>
      rw [onUnit_eq s call hunit]
      cases call u <;> exact s.size_setUnit i _
  | none =>
      have hout : ¬ i < s.units.size := by
        simpa using hunit
      simp only [onUnit, Array.modifyM, hout, ↓reduceDIte]
      rfl

variable [StorageUnit υ]

/-- What a transfer comes to: it leaves a store of the same size, and only a unit fails. -/
def Transfers {ε α : Type} (failure : ε → StorageError) (s : Store υ) :
    EStateM.Result ε (Store υ) α → Prop :=
  Ends (fun _ s' => s'.size = s.size) fun error s' =>
    s'.size = s.size ∧ ∃ unit, failure error = .io unit

omit [StorageUnit υ] in
theorem Transfers.of_size {ε α : Type} {failure : ε → StorageError} {s s' : Store υ}
    {result : EStateM.Result ε (Store υ) α} (h : s'.Transfers failure result)
    (hsize : s'.size = s.size) : s.Transfers failure result :=
  Ends.imp h (fun _ _ hs => hs.trans hsize) fun _ _ ⟨hs, hunit⟩ =>
    ⟨hs.trans hsize, hunit⟩

theorem readSpans_transfers (spans : List Span) (arrived : ByteArray) (s : Store υ) :
    s.Transfers ReadFailure.error (readSpans spans arrived s) := by
  induction spans generalizing arrived s with
  | nil => exact .ok rfl
  | cons span rest ih =>
      have hsize :=
        size_onUnit span.unit (StorageUnit.read span.offset span.length) s
      unfold readSpans
      revert hsize
      rcases onUnit span.unit (StorageUnit.read span.offset span.length) s with
        ⟨_ | bytes | bytes, s'⟩
      · exact fun hsize => .error ⟨hsize, _, rfl⟩
      · exact fun hsize => .error ⟨hsize, _, rfl⟩
      · exact fun hsize => (ih _ s').of_size hsize

theorem writeSpans_transfers (data : ByteArray) (spans : List Span) (done : Nat) (s : Store υ) :
    s.Transfers id (writeSpans data spans done s) := by
  induction spans generalizing done s with
  | nil => exact .ok rfl
  | cons span rest ih =>
      have hsize := size_onUnit span.unit
        (StorageUnit.write span.offset (data.extract done (done + span.length))) s
      unfold writeSpans
      simp only
      revert hsize
      rcases onUnit span.unit
        (StorageUnit.write span.offset (data.extract done (done + span.length))) s with
        ⟨_ | _ | _, s'⟩
      · exact fun hsize => .error ⟨hsize, _, rfl⟩
      · exact fun hsize => .error ⟨hsize, _, rfl⟩
      · exact fun hsize => (ih _ s').of_size hsize

theorem read_transfers {s : Store υ} (hsize : s.size < 2 ^ 64) {addr : UInt32} {length : Nat}
    (h : addr.toNat + length ≤ s.size) :
    s.Transfers ReadFailure.error (Store.read addr length s) := by
  simp only [Store.read, refusal?_eq_none hsize h]
  exact (readSpans_transfers _ _ _).of_size rfl

theorem write_transfers {s : Store υ} (hsize : s.size < 2 ^ 64) {addr : UInt32}
    {data : ByteArray} (h : addr.toNat + data.size ≤ s.size) :
    s.Transfers id (Store.write addr data s) := by
  simp only [Store.write, refusal?_eq_none hsize h]
  exact (writeSpans_transfers _ _ _ _).of_size rfl

/-- A write leaves the store as large as it was, also if it is refused. -/
theorem size_write (addr : UInt32) (data : ByteArray) (s : Store υ) :
    (stateOf (Store.write addr data s)).size = s.size := by
  unfold Store.write
  cases s.refusal? addr data.size with
  | some error => rfl
  | none =>
      have hspec := writeSpans_transfers data (Span.split s.unitCapacity.toNat addr.toNat data.size)
        0 { s with writes := s.writes + 1 }
      simp only
      revert hspec
      cases writeSpans data (Span.split s.unitCapacity.toNat addr.toNat data.size) 0
        { s with writes := s.writes + 1 } with
      | ok _ s' => exact Ends.of_ok
      | error error s' => exact fun hspec => hspec.of_error.1

end Store

/-! ## The cache -/

namespace Cache

variable {υ : Type} {g : CacheGeometry} {capacity : Nat}

/-- A cache of this geometry over a store of this size, which fits in 64 bits: the lines are as many
as the geometry tells, and every line stands where its block belongs, which starts in the store. -/
structure Sized (g : CacheGeometry) (capacity : Nat) (c : Cache υ) : Prop where
  geometry : c.geometry = g
  storeSize : c.store.size = capacity
  capacity_lt : capacity < 2 ^ 64
  lineCount : c.lines.size = g.lineCount.toNat
  line {i : Nat} {line : Line} : c.lines[i]? = some line → line.Placed g capacity i

/-- An empty cache holds nothing. -/
theorem empty_sized (g : CacheGeometry) {store : Store υ} (hsize : store.size < 2 ^ 64) :
    (empty g store).Sized g store.size := by
  refine ⟨rfl, rfl, hsize, Array.size_replicate, fun {i line} hline => ⟨?_⟩⟩
  rw [vacant_empty g store i line hline]
  exact nofun

/-- A cache with other lines in the places of its own. -/
theorem Sized.of_modify {c c' : Cache υ} (hc : c.Sized g capacity) (index : Nat)
    {change : Line → Line} (hgeometry : c'.geometry = c.geometry)
    (hsize : c'.store.size = c.store.size)
    (hlines : c'.lines = c.lines.modify index change)
    (hchange : ∀ line, c.lines[index]? = some line → (change line).Placed g capacity index) :
    c'.Sized g capacity := by
  refine ⟨hgeometry.trans hc.geometry, hsize.trans hc.storeSize, hc.capacity_lt, ?_,
    fun {i line} hline => ?_⟩
  · rw [hlines, Array.size_modify]
    exact hc.lineCount
  · rw [hlines, Array.getElem?_modify] at hline
    split at hline
    · rename_i hindex
      obtain ⟨line', hline', rfl⟩ := Option.map_eq_some_iff.mp hline
      exact hindex ▸ hchange line' (hindex ▸ hline')
    · exact hc.line hline

variable [StorageUnit υ]

/-- What a request comes to: the cache stays sized as it is, and only a unit fails. -/
def Stays (g : CacheGeometry) (capacity : Nat) {α : Type} :
    EStateM.Result StorageError (Cache υ) α → Prop :=
  Ends (fun _ c' => c'.Sized g capacity) fun error c' =>
    c'.Sized g capacity ∧ ∃ unit, error = .io unit

/-- In any cache that is sized so the request comes to that. -/
def Safe (g : CacheGeometry) (capacity : Nat) {α : Type} (x : EStateM StorageError (Cache υ) α) :
    Prop :=
  ∀ c : Cache υ, c.Sized g capacity → Stays g capacity (x c)

variable {α β : Type}

omit [StorageUnit υ] in
theorem Safe.pure (a : α) : Safe g capacity (Pure.pure a : EStateM StorageError (Cache υ) α) :=
  fun _ hc => .ok hc

omit [StorageUnit υ] in
theorem Safe.bind {x : EStateM StorageError (Cache υ) α} {f : α → EStateM StorageError (Cache υ) β}
    (hx : Safe g capacity x) (hf : ∀ a, Safe g capacity (f a)) : Safe g capacity (x >>= f) := by
  intro c hc
  have hfirst := hx c hc
  simp only [Bind.bind, EStateM.bind]
  revert hfirst
  cases x c with
  | ok a c₁ => exact fun hfirst => hf a c₁ hfirst.of_ok
  | error error c₁ => exact fun hfirst => .error hfirst.of_error

/-! ### Transfers -/

omit [StorageUnit υ] in
/-- The part of a block that exists ends in the store. -/
theorem base_add_extentOf {c : Cache υ} (hg : g.Valid) (hc : c.Sized g capacity) {block : UInt32}
    (hwide : block.toNat * g.lineSize.toNat < 2 ^ 32)
    (hstart : block.toNat * g.lineSize.toNat ≤ capacity) :
    (g.base block).toNat + c.extentOf block ≤ c.store.size := by
  rw [extentOf, hc.geometry, hc.storeSize, CacheGeometry.base_toNat hg hwide]
  omega

omit [StorageUnit υ] in
/-- Nothing gives up where the range of a block is sought. -/
theorem Sized.rangeOf_eq (hg : g.Valid) {c : Cache υ} (hc : c.Sized g capacity) (block : UInt32) :
    c.rangeOf block = .ok (c.geometry.base block, c.extentOf block) := by
  apply Cache.rangeOf_eq
  · rw [hc.geometry]
    exact hg
  · rw [hc.storeSize]
    exact hc.capacity_lt

theorem writeBack_sized (hg : g.Valid) {c : Cache υ} (hc : c.Sized g capacity) (index : Nat)
    {block : UInt32} (hwide : block.toNat * g.lineSize.toNat < 2 ^ 32)
    (hstart : block.toNat * g.lineSize.toNat ≤ capacity) :
    Stays g capacity (writeBack index block c) := by
  have hrange := base_add_extentOf hg hc hwide hstart
  have hsought := hc.rangeOf_eq hg block
  have hdata : (Bytes.slice (c.lineBytes index) 0 (c.extentOf block)).size = c.extentOf block :=
    Bytes.size_slice _ _ _
  have hspec := Store.write_transfers (hc.storeSize ▸ hc.capacity_lt) (hdata ▸ hrange)
  unfold writeBack
  rw [hsought]
  obtain ⟨geometry, lines, hits, accesses, store⟩ := c
  obtain ⟨rfl, rfl, hlt, hcount, hline⟩ := hc
  simp only at hspec ⊢
  revert hspec
  cases Store.write (geometry.base block) _ store with
  | ok _ store' =>
      intro hspec
      obtain hkept : store'.size = store.size := hspec.of_ok
      exact .ok ⟨rfl, hkept, hlt, hcount, hline⟩
  | error error store' =>
      intro hspec
      obtain ⟨hkept, hunit⟩ := hspec.of_error
      exact .error ⟨⟨rfl, hkept, hlt, hcount, hline⟩, hunit⟩

theorem fill_sized (hg : g.Valid) {c : Cache υ} (hc : c.Sized g capacity) {index : Nat}
    {block : UInt32} (hindex : block.toNat % g.lineCount.toNat = index)
    (hwide : block.toNat * g.lineSize.toNat < 2 ^ 32)
    (hstart : block.toNat * g.lineSize.toNat ≤ capacity) :
    Stays g capacity (fill index block c) := by
  have hrange := base_add_extentOf hg hc hwide hstart
  have hspec := Store.read_transfers (hc.storeSize ▸ hc.capacity_lt) hrange
  have hsought := hc.rangeOf_eq hg block
  have hgeometry := hc.geometry
  unfold fill
  rw [hsought]
  obtain ⟨geometry, lines, hits, accesses, store⟩ := c
  obtain rfl : geometry = g := hgeometry
  simp only at hspec ⊢
  revert hspec
  cases Store.read (geometry.base block) _ store with
  | ok bytes store' =>
      intro hspec
      have hplaced (line : Line) : Line.Placed geometry capacity index
          ⟨.clean block, Bytes.overlay line.bytes 0 bytes⟩ := by
        constructor
        rintro _ ⟨⟩
        exact ⟨hindex, hwide, hstart⟩
      exact .ok (hc.of_modify index rfl hspec.of_ok rfl fun line _ => hplaced line)
  | error failure store' =>
      intro hspec
      obtain ⟨hkept, hunit⟩ := hspec.of_error
      -- the line still counts as holding what it held
      have hplaced {line : Line} (hline : lines[index]? = some line) :
          Line.Placed geometry capacity index
            { line with bytes := Bytes.overlay line.bytes 0 failure.arrived } :=
        ⟨(hc.line hline).block⟩
      exact .error ⟨hc.of_modify index rfl hkept rfl fun line hline =>
        hplaced hline, hunit⟩

/-! ### Requests -/

theorem evict_sized (hg : g.Valid) {c : Cache υ} (hc : c.Sized g capacity) {index : Nat}
    {line : Line} (hline : c.lines[index]? = some line) :
    Stays g capacity (evict index line c) := by
  have hplaced := hc.line hline
  unfold evict
  cases hresidency : line.residency with
  | vacant => exact .ok hc
  | clean block => exact .ok hc
  | dirty block =>
      obtain ⟨-, hwide, hstart⟩ := hplaced.block (by rw [hresidency]; rfl)
      exact writeBack_sized hg hc index hwide hstart

omit [StorageUnit υ] in
/-- The block of an address in the store belongs to its line, and starts in the store. -/
theorem block_placed (hg : g.Valid) {addr : UInt32} (haddr : addr.toNat ≤ capacity) :
    (g.block addr).toNat % g.lineCount.toNat = g.index (g.block addr) ∧
      (g.block addr).toNat * g.lineSize.toNat < 2 ^ 32 ∧
      (g.block addr).toNat * g.lineSize.toNat ≤ capacity := by
  have hle : (g.block addr).toNat * g.lineSize.toNat ≤ addr.toNat := by
    rw [CacheGeometry.block_toNat hg]
    exact Nat.div_mul_le_self _ _
  exact ⟨(CacheGeometry.index_toNat hg _).symm, hle.trans_lt addr.toNat_lt, hle.trans haddr⟩

/-- A lookup answers where the address stands among the bytes of all lines. -/
theorem lookup_sized (hg : g.Valid) {c : Cache υ} (hc : c.Sized g capacity) {addr : UInt32}
    {length : Nat} (hrange : g.Admits capacity addr length) :
    Ends (fun start c' => c'.Sized g capacity ∧ start = g.start addr)
      (fun error c' => c'.Sized g capacity ∧ ∃ unit, error = .io unit)
      (lookup addr length c) := by
  obtain ⟨hindex, hwide, hstart⟩ := block_placed hg (Nat.le_of_add_right_le hrange.store)
  have hinside : g.index (g.block addr) < c.lines.size := by
    rw [hc.lineCount, ← hindex]
    exact Nat.mod_lt _ hg.lineCount_pos
  obtain ⟨line, hline⟩ : ∃ line, c.lines[g.index (g.block addr)]? = some line :=
    ⟨_, Array.getElem?_eq_getElem hinside⟩
  obtain rfl := hc.geometry
  -- a lookup counts before it refills the line, and the counters do not matter to the sizes
  have hcount (hits accesses : UInt64) : (c.count hits accesses).Sized c.geometry capacity :=
    ⟨rfl, hc.storeSize, hc.capacity_lt, hc.lineCount, hc.line⟩
  have hrefill : Stays c.geometry capacity (refill (c.geometry.index (c.geometry.block addr)) line
      (c.geometry.block addr) (c.count c.hits (c.accesses + 1))) := by
    have hevict := evict_sized hg (hcount c.hits (c.accesses + 1)) hline
    simp only [refill, Bind.bind, EStateM.bind]
    revert hevict
    cases evict (c.geometry.index (c.geometry.block addr)) line
      (c.count c.hits (c.accesses + 1)) with
    | ok _ c₁ =>
        intro hevict
        exact fill_sized hg hevict.of_ok hindex hwide hstart
    | error error c₁ => exact fun hevict => .error hevict.of_error
  have hlength : c.geometry.within addr + length ≤ c.geometry.lineSize.toNat := by
    rw [CacheGeometry.within_toNat hg]
    exact hrange.line
  rw [lookup_eq hg hlength hline]
  split
  · exact .ok ⟨hcount _ _, rfl⟩
  · revert hrefill
    cases refill (c.geometry.index (c.geometry.block addr)) line (c.geometry.block addr)
      (c.count c.hits (c.accesses + 1)) with
    | ok _ c₁ => exact fun hrefill => .ok ⟨hrefill.of_ok, rfl⟩
    | error error c₁ => exact fun hrefill => .error hrefill.of_error

theorem read_safe (hg : g.Valid) {addr : UInt32} {length : Nat}
    (hrange : g.Admits capacity addr length) : Safe (υ := υ) g capacity (read addr length) := by
  intro c hc
  have hlookup := lookup_sized hg hc hrange
  rw [read_eq]
  revert hlookup
  cases lookup addr length c with
  | ok start c₁ => exact fun hlookup => .ok hlookup.of_ok.1
  | error error c₁ => exact fun hlookup => .error hlookup.of_error

/-- A write marks the line of its block. -/
theorem write_eq_of_sized (hg : g.Valid) {c c₁ : Cache υ} (hc₁ : c₁.Sized g capacity)
    {addr : UInt32} {data : ByteArray} (h : lookup addr data.size c = .ok (g.start addr) c₁) :
    write addr data c = .ok () (c₁.onLine (g.index (g.block addr)) fun line =>
      ⟨.dirty (g.block addr), Bytes.overlay line.bytes (g.within addr) data⟩) := by
  rw [write_eq, h]
  simp only [hc₁.geometry]
  rw [hg.blockOf_eq, hg.start_div, hg.start_mod]

theorem write_safe (hg : g.Valid) {addr : UInt32} {data : ByteArray}
    (hrange : g.Admits capacity addr data.size) : Safe (υ := υ) g capacity (write addr data) := by
  intro c hc
  have hlookup := lookup_sized hg hc hrange
  have hplaced (line : Line) : Line.Placed g capacity (g.index (g.block addr))
      ⟨.dirty (g.block addr), Bytes.overlay line.bytes (g.within addr) data⟩ := by
    constructor
    rintro _ ⟨⟩
    exact block_placed hg (Nat.le_of_add_right_le hrange.store)
  cases hresult : lookup addr data.size c with
  | ok start c₁ =>
      rw [hresult] at hlookup
      obtain ⟨hc₁, rfl⟩ := hlookup.of_ok
      rw [write_eq_of_sized hg hc₁ hresult]
      exact .ok (hc₁.of_modify (g.index (g.block addr)) rfl rfl rfl fun line _ => hplaced line)
  | error error c₁ =>
      rw [hresult] at hlookup
      rw [write_eq, hresult]
      exact .error hlookup.of_error

theorem readNumber_safe (hg : g.Valid) {width : Width} {addr : UInt32}
    (hrange : g.Admits capacity addr width.bytes) :
    Safe (υ := υ) g capacity (readNumber width addr) :=
  (read_safe hg hrange).bind fun _ => .pure _

theorem writeNumber_safe (hg : g.Valid) {width : Width} {addr : UInt32} (value : UInt32)
    (hrange : g.Admits capacity addr width.bytes) :
    Safe (υ := υ) g capacity (writeNumber width addr value) :=
  write_safe hg (by rwa [Bytes.size_littleEndian])

theorem flushLine_safe (hg : g.Valid) (index : Nat) :
    Safe (υ := υ) g capacity (flushLine index) := by
  intro c hc
  by_cases hdirty : ∃ line block, c.lines[index]? = some line ∧ line.residency = .dirty block
  · obtain ⟨line, block, hline, hdirty⟩ := hdirty
    obtain ⟨hindex, hwide, hstart⟩ := (hc.line hline).block (by rw [hdirty]; rfl)
    have hspec := writeBack_sized hg hc index hwide hstart
    have hplaced (line : Line) :
        Line.Placed g capacity index { line with residency := .clean block } := by
      constructor
      rintro _ ⟨⟩
      exact ⟨hindex, hwide, hstart⟩
    rw [flushLine_of_dirty hline hdirty]
    revert hspec
    cases writeBack index block c with
    | ok _ c₁ =>
        exact fun hspec => .ok (hspec.of_ok.of_modify index rfl rfl rfl fun line _ => hplaced line)
    | error error c₁ => exact fun hspec => .error hspec.of_error
  · rw [flushLine_of_not_dirty fun line block hline h => hdirty ⟨line, block, hline, h⟩]
    exact .ok hc

theorem flush_safe (hg : g.Valid) : Safe (υ := υ) g capacity flush := by
  have hlines (indices : List Nat) : Safe (υ := υ) g capacity (indices.forM flushLine) := by
    induction indices with
    | nil => exact .pure ()
    | cons index rest ih => exact (flushLine_safe hg index).bind fun _ => ih
  exact fun c hc => hlines (List.range c.lines.size) c hc

omit [StorageUnit υ] in
theorem Sized.invalidate {c : Cache υ} (hc : c.Sized g capacity) :
    c.invalidate.Sized g capacity := by
  refine ⟨hc.geometry, hc.storeSize, hc.capacity_lt, Array.size_map.trans hc.lineCount,
    fun {i line} hline => ⟨?_⟩⟩
  rw [c.vacant_invalidate i line hline]
  exact nofun

end Cache

end RiscvMachine
