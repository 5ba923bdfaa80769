import RiscvMachine.Proofs.Cache.Transfer

set_option autoImplicit false

/-! # Accesses to the cache

A read or a write first makes its block resident (`lookup_eq`). If that succeeds, a coherent
cache shows the same memory as before (`lookup_ok`), from which the access then reads or in which
it replaces bytes (`read_ok`, `write_ok`). If it fails, the error names a unit, and the memory
shown differs at most where the block that was to be replaced has received bytes of the new one
(`lookup_error`).
-/

namespace RiscvMachine

/-- The range lies in one block and within the store. -/
structure CacheGeometry.Admits (g : CacheGeometry) (capacity : Nat) (addr : UInt32)
    (length : Nat) : Prop where
  line : addr.toNat % g.lineSize.toNat + length ≤ g.lineSize.toNat
  store : addr.toNat + length ≤ capacity

instance (g : CacheGeometry) (capacity : Nat) (addr : UInt32) (length : Nat) :
    Decidable (g.Admits capacity addr length) :=
  decidable_of_iff
    (addr.toNat % g.lineSize.toNat + length ≤ g.lineSize.toNat ∧ addr.toNat + length ≤ capacity)
    ⟨fun ⟨hline, hstore⟩ => ⟨hline, hstore⟩, fun h => ⟨h.line, h.store⟩⟩

theorem CacheGeometry.Admits.mono {g : CacheGeometry} {capacity capacity' : Nat} {addr : UInt32}
    {length : Nat} (h : g.Admits capacity addr length) (hle : capacity ≤ capacity') :
    g.Admits capacity' addr length :=
  ⟨h.line, h.store.trans hle⟩

/-- A line holds a block if its residency says so, clean or dirty. -/
theorem Line.holds_toNat_iff (line : Line) (block : UInt32) :
    line.Holds block.toNat ↔ line.residency = .clean block ∨ line.residency = .dirty block := by
  have hinj (b : UInt32) : b.toNat = block.toNat ↔ b = block := UInt32.toNat_inj
  unfold Line.Holds
  cases line.residency with
  | vacant => simp [Residency.block?]
  | clean b => simp [Residency.block?, hinj]
  | dirty b => simp [Residency.block?, hinj]

namespace Cache

variable {υ : Type} [StorageUnit υ] [LawfulUnit υ]

def count (hits accesses : UInt64) (c : Cache υ) : Cache υ :=
  { c with hits := hits, accesses := accesses }

theorem WellFormed.count {c : Cache υ} (hc : c.WellFormed) (hits accesses : UInt64) :
    (c.count hits accesses).WellFormed :=
  ⟨hc.geometry, hc.store, hc.lineCount, hc.line⟩

theorem Coherent.count {c : Cache υ} (hc : c.Coherent) (hits accesses : UInt64) :
    (c.count hits accesses).Coherent :=
  ⟨hc.toWellFormed.count hits accesses, hc.synced⟩

theorem keeps_count {c : Cache υ} (hc : c.WellFormed) (hits accesses : UInt64) :
    c.Keeps (c.count hits accesses) :=
  ⟨⟨hc.count hits accesses, rfl, .refl hc.store⟩, rfl, fun h => h.count hits accesses⟩

/-! ## Making a block resident -/

omit [LawfulUnit υ] in
/-- The steps of a miss, one after the other. -/
theorem refill_return (index : Nat) (line : Line) (block : UInt32) (start : UInt64) (c : Cache υ) :
    (do
      evict index line
      fill index block
      return start : EStateM StorageError (Cache υ) UInt64) c =
      match refill index line block c with
      | .ok () c' => .ok start c'
      | .error error c' => .error error c' := by
  simp only [refill, bind, EStateM.bind, pure, EStateM.pure]
  cases evict index line c with
  | error error c₁ => rfl
  | ok _ c₁ =>
      simp only
      cases fill index block c₁ <;> rfl

omit [LawfulUnit υ] in
/-- An access that lies in one block hits if its line holds that block. Otherwise the line is
filled anew. -/
theorem lookup_eq {c : Cache υ} (hg : c.geometry.Valid) {addr : UInt32} {length : Nat}
    (hlength : c.geometry.within addr + length ≤ c.geometry.lineSize.toNat) {line : Line}
    (hline : c.lines[c.geometry.index (c.geometry.block addr)]? = some line) :
    lookup addr length c =
      if line.Holds (c.geometry.block addr).toNat then
        .ok (c.geometry.start addr) (c.count (c.hits + 1) (c.accesses + 1))
      else
        match refill (c.geometry.index (c.geometry.block addr)) line (c.geometry.block addr)
          (c.count c.hits (c.accesses + 1)) with
        | .ok () c' => .ok (c.geometry.start addr) c'
        | .error error c' => .error error c' := by
  simp only [Line.holds_toNat_iff, ← refill_return, evict]
  unfold lookup
  simp only [bind, EStateM.bind, modify, modifyGet, MonadStateOf.modifyGet, EStateM.modifyGet,
    get, getThe, MonadStateOf.get, EStateM.get, pure, EStateM.pure, hg.blockOf_eq, hg.offsetOf_eq,
    orPanic, if_neg (Nat.not_lt.mpr hlength), hline, Option.map_some, Option.getD_some, count]
  by_cases hresident : line.residency = .clean (c.geometry.block addr) ∨
      line.residency = .dirty (c.geometry.block addr)
  · rw [if_pos hresident, if_pos hresident]
    rfl
  · rw [if_neg hresident, if_neg hresident]
    cases line.residency with
    | vacant => rfl
    | clean old => rfl
    | dirty old =>
        -- what writing back does is left closed, or the comparison would open it
        dsimp only
        generalize (writeBack (c.geometry.index (c.geometry.block addr)) old :
          EStateM StorageError (Cache υ) Unit) = evicting
        rfl

/-- The block of an address within the store has its line. -/
theorem fits_of_le {c : Cache υ} (hc : c.WellFormed) {addr : UInt32}
    (h : addr.toNat ≤ c.store.size) :
    c.Fits (c.geometry.block addr) (c.geometry.index (c.geometry.block addr)) := by
  have hle := Nat.div_mul_le_self addr.toNat c.geometry.lineSize.toNat
  have hlt := addr.toNat_lt
  refine ⟨(CacheGeometry.index_toNat hc.geometry _).symm, ?_, ?_⟩
  · rw [CacheGeometry.block_toNat hc.geometry]
    exact Nat.lt_of_le_of_lt hle hlt
  · rw [CacheGeometry.block_toNat hc.geometry]
    omega

/-- `c'` is `c` with the block of an address resident in its line, where the address stands at
`start` among the bytes of all lines. -/
structure Serves (c : Cache υ) (addr : UInt32) (start : UInt64) (c' : Cache υ) : Prop
    extends c.Follows c' where
  place : start = c'.geometry.start addr
  resident : ∃ line, c'.lines[c'.geometry.index (c'.geometry.block addr)]? = some line ∧
    line.Holds (c'.geometry.block addr).toNat
  coherent : c.Coherent → c'.Coherent ∧ ∀ a < c.store.size, c'.contents a = c.contents a

/-- An access in one block within the store starts in the store and ends in its line. -/
theorem admits_within {c : Cache υ} (hc : c.WellFormed) {addr : UInt32} {length : Nat}
    (h : c.geometry.Admits c.store.size addr length) :
    c.geometry.within addr + length ≤ c.geometry.lineSize.toNat ∧ addr.toNat ≤ c.store.size := by
  rw [CacheGeometry.within_toNat hc.geometry]
  exact ⟨h.line, Nat.le_of_add_right_le h.store⟩

/-- A lookup that succeeds makes the block resident, and that does not show. -/
theorem lookup_ok {c c' : Cache υ} (hc : c.WellFormed) {addr : UInt32} {length : Nat}
    {start : UInt64} (hrange : c.geometry.Admits c.store.size addr length)
    (h : lookup addr length c = .ok start c') : c.Serves addr start c' := by
  obtain ⟨hlength, haddr⟩ := admits_within hc hrange
  have hfits := fits_of_le hc haddr
  obtain ⟨line, hline⟩ := hc.exists_line (c.geometry.block addr).toNat
  rw [hfits.index] at hline
  rw [lookup_eq hc.geometry hlength hline] at h
  split at h
  · rename_i hholds
    cases h
    exact ⟨(keeps_count hc _ _).toFollows, rfl, ⟨line, hline, hholds⟩,
      fun hcoherent => ⟨hcoherent.count _ _, fun _ _ => rfl⟩⟩
  · have hcount := hc.count c.hits (c.accesses + 1)
    cases hresult : refill (c.geometry.index (c.geometry.block addr)) line
        (c.geometry.block addr) (c.count c.hits (c.accesses + 1)) with
    | error error c₁ =>
        rw [hresult] at h
        cases h
    | ok _ c₁ =>
        rw [hresult] at h
        cases h
        obtain ⟨hfollows, hresident, hcoherent⟩ :=
          refill_ok hcount hline (hfits.of_follows (keeps_count hc _ _).toFollows) hresult
        have hgeometry : c'.geometry = c.geometry := hfollows.geometry
        refine ⟨(keeps_count hc _ _).toFollows.trans hfollows, ?_, ?_,
          fun h => hcoherent (h.count _ _)⟩
        · rw [hgeometry]
        · rw [hgeometry]
          exact hresident

omit [LawfulUnit υ] in
theorem writeBack_count (c : Cache υ) (hits accesses : UInt64) (index : Nat) (block : UInt32) :
    writeBack index block (c.count hits accesses) =
      match writeBack index block c with
      | .ok () c' => .ok () (c'.count hits accesses)
      | .error error c' => .error error (c'.count hits accesses) := by
  have hrange : (c.count hits accesses).rangeOf block = c.rangeOf block := rfl
  obtain ⟨geometry, lines, _, _, store⟩ := c
  unfold writeBack
  rw [hrange]
  cases rangeOf _ block with
  | error why => rfl
  | ok range =>
      simp only [count, lineBytes]
      generalize Store.write _ _ store = result
      cases result <;> rfl

omit [LawfulUnit υ] in
/-- Counting accesses does not touch what is evicted. -/
theorem evict_count (c : Cache υ) (hits accesses : UInt64) (index : Nat) (line : Line) :
    evict index line (c.count hits accesses) =
      match evict index line c with
      | .ok () c' => .ok () (c'.count hits accesses)
      | .error error c' => .error error (c'.count hits accesses) := by
  unfold evict
  cases line.residency with
  | vacant => rfl
  | clean old => rfl
  | dirty old => simp only [writeBack_count]

omit [LawfulUnit υ] in
theorem arrivals_count (c : Cache υ) (hits accesses : UInt64) (index : Nat) (line : Line)
    (block : UInt32) (unit : Nat) :
    (c.count hits accesses).arrivals index line block unit = c.arrivals index line block unit := by
  unfold arrivals
  rw [evict_count]
  cases evict index line c <;> rfl

/-- A lookup that fails leaves bytes of the new block in the old one, as many as had arrived. -/
theorem lookup_error {c c' : Cache υ} (hc : c.WellFormed) {addr : UInt32} {length : Nat}
    {line : Line} {error : StorageError} (hrange : c.geometry.Admits c.store.size addr length)
    (hline : c.lines[c.geometry.index (c.geometry.block addr)]? = some line)
    (h : lookup addr length c = .error error c') :
    ¬ line.Holds (addr.toNat / c.geometry.lineSize.toNat) ∧
    ∃ unit n, error = .io unit ∧ (LawfulUnit.WriteFails υ ∨ LawfulUnit.ReadFails υ) ∧
      n = c.arrivals (c.geometry.index (c.geometry.block addr)) line (c.geometry.block addr) unit ∧
      (0 < n → n < c.extentOf (c.geometry.block addr)) ∧
      c.Fails line (addr.toNat / c.geometry.lineSize.toNat * c.geometry.lineSize.toNat) n c' := by
  obtain ⟨hlength, haddr⟩ := admits_within hc hrange
  have hfits := fits_of_le hc haddr
  have hblock := CacheGeometry.block_toNat hc.geometry addr
  rw [lookup_eq hc.geometry hlength hline] at h
  split at h
  · cases h
  · rename_i hmissed
    -- the access has been counted before the line is refilled
    have hcount := hc.count c.hits (c.accesses + 1)
    cases hresult : refill (c.geometry.index (c.geometry.block addr)) line
        (c.geometry.block addr) (c.count c.hits (c.accesses + 1)) with
    | ok _ c₁ =>
        rw [hresult] at h
        cases h
    | error error c₁ =>
        rw [hresult] at h
        cases h
        have hfits' := hfits.of_follows (keeps_count hc c.hits (c.accesses + 1)).toFollows
        obtain ⟨unit, herror, hcause, hn, hfails⟩ :=
          refill_error hcount hline hfits' hmissed hresult
        rw [arrivals_count] at hn hfails
        rw [← hblock]
        refine ⟨hmissed, unit, _, herror, hcause, rfl, hn, ?_, hfails.contents, ?_⟩
        · exact (keeps_count hc _ _).toFollows.trans hfails.toFollows
        · exact fun hcoherent => hfails.coherent (hcoherent.count _ _)

/-! ## Reading and writing -/

omit [LawfulUnit υ] in
theorem read_eq (addr : UInt32) (length : Nat) (c : Cache υ) :
    read addr length c =
      match lookup addr length c with
      | .ok start c' =>
        .ok (Bytes.slice (c'.lineBytes (start / c'.geometry.lineSize).toNat)
          (start % c'.geometry.lineSize).toNat length) c'
      | .error error c' => .error error c' := by
  simp only [read, bind, EStateM.bind]
  cases lookup addr length c <;> rfl

omit [LawfulUnit υ] in
/-- A write marks the line of its block, whose number was told before. -/
theorem write_eq (addr : UInt32) (data : ByteArray) (c : Cache υ) :
    write addr data c =
      match lookup addr data.size c with
      | .ok start c' =>
        match c'.geometry.blockOf addr with
        | .ok block =>
          .ok () (c'.onLine (start / c'.geometry.lineSize).toNat fun line =>
            ⟨.dirty block, Bytes.overlay line.bytes (start % c'.geometry.lineSize).toNat data⟩)
        | .error why => .error (.panic why) c'
      | .error error c' => .error error c' := by
  simp only [write, bind, EStateM.bind]
  cases lookup addr data.size c with
  | error error c' => rfl
  | ok start c' =>
      simp only [get, getThe, MonadStateOf.get, EStateM.get]
      cases c'.geometry.blockOf addr <;> rfl

/-- A read answers the bytes of its line. -/
theorem read_of_lookup {c c' : Cache υ} {addr : UInt32} {length : Nat} {start : UInt64}
    (h : lookup addr length c = .ok start c') (hserves : c.Serves addr start c') :
    read addr length c =
      .ok (Bytes.slice (c'.lineBytes (c'.geometry.index (c'.geometry.block addr)))
        (c'.geometry.within addr) length) c' := by
  have hvalid := hserves.wellFormed.geometry
  rw [read_eq, h]
  simp only
  rw [hserves.place, hvalid.start_div, hvalid.start_mod]

/-- A write puts its bytes into the line and marks it. -/
theorem write_of_lookup {c c' : Cache υ} {addr : UInt32} {data : ByteArray} {start : UInt64}
    (h : lookup addr data.size c = .ok start c') (hserves : c.Serves addr start c') :
    write addr data c =
      .ok () (c'.onLine (c'.geometry.index (c'.geometry.block addr)) fun line =>
        ⟨.dirty (c'.geometry.block addr),
          Bytes.overlay line.bytes (c'.geometry.within addr) data⟩) := by
  have hvalid := hserves.wellFormed.geometry
  rw [write_eq, h]
  simp only
  rw [hserves.place, hvalid.blockOf_eq, hvalid.start_div, hvalid.start_mod]

theorem Follows.admits {c c' : Cache υ} {addr : UInt32} {length : Nat} (h : c.Follows c')
    (hrange : c.geometry.Admits c.store.size addr length) :
    c'.geometry.Admits c'.store.size addr length := by
  rw [h.geometry, h.size]
  exact hrange

/-- A read that succeeds answers the bytes shown. -/
theorem read_ok {c c' : Cache υ} (hc : c.WellFormed) {addr : UInt32} {length : Nat}
    {bytes : ByteArray} (hrange : c.geometry.Admits c.store.size addr length)
    (h : read addr length c = .ok bytes c') :
    c.Follows c' ∧ (c.Coherent → bytes = c.contents.read addr.toNat length ∧ c'.Coherent ∧
      ∀ a < c.store.size, c'.contents a = c.contents a) := by
  have hstore := hrange.store
  cases hresult : lookup addr length c with
  | error error c₁ =>
      rw [read_eq, hresult] at h
      cases h
  | ok start c₁ =>
      have hserves := lookup_ok hc hrange hresult
      rw [read_of_lookup hresult hserves] at h
      cases h
      refine ⟨hserves.toFollows, ?_⟩
      intro hc
      have hvalid := hserves.wellFormed.geometry
      obtain ⟨hcoherent, hcontents⟩ := hserves.coherent hc
      refine ⟨?_, hcoherent, hcontents⟩
      obtain ⟨line, hline, hholds⟩ := hserves.resident
      have hrange' := hserves.toFollows.admits hrange
      simp only [lineBytes, hline, Option.map_some, Option.getD_some]
      rw [CacheGeometry.index_toNat hvalid, CacheGeometry.block_toNat hvalid] at hline
      rw [CacheGeometry.block_toNat hvalid] at hholds
      -- byte by byte, through the line that holds the block by now
      apply Bytes.ext_byteAt (by rw [Bytes.size_slice, Memory.size_read])
      intro i hi
      rw [Bytes.size_slice] at hi
      obtain ⟨hblock, hwithin⟩ := div_mod_add hrange'.line hi
      rw [Bytes.byteAt_slice, if_pos hi, Memory.byteAt_read _ _ hi, ← hcontents _ (by omega)]
      rw [← hblock] at hline
      rw [contents_of_line hline, Line.view_of_holds (by rwa [hblock]), hwithin,
        CacheGeometry.within_toNat hvalid]

/-- Putting bytes into the line of a block is writing what is seen through the line. -/
theorem view_overlay {g : CacheGeometry} (hg : g.Valid) {line : Line} {addr : UInt32}
    {data : ByteArray} (hholds : line.Holds (g.block addr).toNat)
    (hrange : addr.toNat % g.lineSize.toNat + data.size ≤ g.lineSize.toNat) (m : Memory) :
    Line.view g ⟨.dirty (g.block addr), Bytes.overlay line.bytes (g.within addr) data⟩ m =
      (line.view g m).write addr.toNat data := by
  have hblock := CacheGeometry.block_toNat hg addr
  have hnew (n : Nat) : Line.Holds ⟨.dirty (g.block addr),
      Bytes.overlay line.bytes (g.within addr) data⟩ n ↔ n = addr.toNat / g.lineSize.toNat := by
    rw [Line.holds_iff rfl, hblock]
  rw [hblock] at hholds
  funext a
  by_cases hin : a / g.lineSize.toNat = addr.toNat / g.lineSize.toNat
  · -- in the block both are the line's bytes, at positions that differ by the block's start
    rw [Line.view_of_holds ((hnew _).mpr hin), CacheGeometry.within_toNat hg, Bytes.byteAt_overlay]
    have hmod := Nat.div_add_mod' a g.lineSize.toNat
    have hmod' := Nat.div_add_mod' addr.toNat g.lineSize.toNat
    have hlt := Nat.mod_lt a hg.lineSize_pos
    rw [hin] at hmod
    split
    · rw [Memory.write_of_mem (by omega)]
      congr 1
      omega
    · rw [Memory.write_of_not_mem (by omega), Line.view_of_holds (by rwa [hin])]
  · have houtside : a < addr.toNat ∨ addr.toNat + data.size ≤ a := by
      by_contra hmem
      exact hin (div_eq_of_mem hrange (by omega))
    have hmissed : ¬ line.Holds (a / g.lineSize.toNat) := by
      intro h
      exact hin (Option.some_inj.mp (h.symm.trans hholds))
    rw [Line.view_of_not_holds fun h => hin ((hnew _).mp h), Memory.write_of_not_mem houtside,
      Line.view_of_not_holds hmissed]

/-- Putting bytes in place in the line of a resident block. -/
theorem place_spec {c c' : Cache υ} (hc : c.WellFormed) {addr : UInt32} {data : ByteArray}
    (hrange : c.geometry.Admits c.store.size addr data.size) {line : Line}
    (hline : c.lines[c.geometry.index (c.geometry.block addr)]? = some line)
    (hholds : line.Holds (c.geometry.block addr).toNat)
    (hgeometry : c'.geometry = c.geometry) (hstore : c'.store = c.store)
    (hlines : c'.lines = c.lines.modify (c.geometry.index (c.geometry.block addr)) fun line =>
      ⟨.dirty (c.geometry.block addr), Bytes.overlay line.bytes (c.geometry.within addr) data⟩) :
    c.Follows c' ∧ (c.Coherent → c'.Coherent) ∧
      c'.contents = c.contents.write addr.toNat data := by
  have hwithin := hrange.store
  have hfits := fits_of_le hc (show addr.toNat ≤ c.store.size by omega)
  have hfollows : c.store.Follows c'.store := by
    rw [hstore]
    exact .refl hc.store
  have hkept : c'.store.contents = c.store.contents := by rw [hstore]
  have hplaced : Line.Placed c.geometry c.store.size
      (c.geometry.index (c.geometry.block addr)) ⟨.dirty (c.geometry.block addr),
        Bytes.overlay line.bytes (c.geometry.within addr) data⟩ := by
    constructor
    rintro _ ⟨⟩
    exact ⟨hfits.index, hfits.range, hfits.capacity⟩
  refine ⟨.of_line hc hgeometry hfollows hline hlines hplaced, ?_, ?_⟩
  · intro hcoherent
    refine hcoherent.of_line hgeometry hfollows hkept hline hlines hplaced ?_
    -- the line counts as dirty, so it need not be in step with the store
    intro hclean
    exact absurd rfl (hclean (c.geometry.block addr))
  · funext a
    rw [contents_of_modify hgeometry hkept hline hlines]
    split
    · rename_i hindex
      rw [← hindex] at hline
      rw [view_overlay hc.geometry hholds hrange.line, Memory.write, Memory.write,
        contents_of_line hline]
    · rename_i hindex
      rw [Memory.write_of_not_mem]
      by_contra hmem
      apply hindex
      rw [div_eq_of_mem hrange.line (by omega), ← CacheGeometry.block_toNat hc.geometry]
      exact hfits.index

/-- A write that succeeds replaces the bytes shown. -/
theorem write_ok {c c' : Cache υ} (hc : c.WellFormed) {addr : UInt32} {data : ByteArray}
    (hrange : c.geometry.Admits c.store.size addr data.size)
    (h : write addr data c = .ok () c') :
    c.Follows c' ∧ (c.Coherent → c'.Coherent ∧
      ∀ a < c.store.size, c'.contents a = c.contents.write addr.toNat data a) := by
  have hstore := hrange.store
  cases hresult : lookup addr data.size c with
  | error error c₁ =>
      rw [write_eq, hresult] at h
      cases h
  | ok start c₁ =>
      have hserves := lookup_ok hc hrange hresult
      have hfollows := hserves.toFollows
      obtain ⟨line, hline, hholds⟩ := hserves.resident
      rw [write_of_lookup hresult hserves] at h
      injection h with _ h
      obtain ⟨hfollows', hcoherent', hcontents'⟩ : c₁.Follows c' ∧ (c₁.Coherent → c'.Coherent) ∧
          c'.contents = c₁.contents.write addr.toNat data :=
        place_spec hfollows.wellFormed (hfollows.admits hrange) hline hholds
          (by rw [← h]; rfl) (by rw [← h]; rfl) (by rw [← h]; rfl)
      refine ⟨hfollows.trans hfollows', ?_⟩
      intro hc₀
      obtain ⟨hcoherent, hcontents⟩ := hserves.coherent hc₀
      refine ⟨hcoherent' hcoherent, ?_⟩
      intro a ha
      rw [hcontents']
      unfold Memory.write
      rw [hcontents a ha]

/-- An access fails as its lookup does. -/
theorem lookup_error_of_read {c c' : Cache υ} (hc : c.WellFormed) {addr : UInt32} {length : Nat}
    {error : StorageError} (hrange : c.geometry.Admits c.store.size addr length)
    (h : read addr length c = .error error c') : lookup addr length c = .error error c' := by
  cases hresult : lookup addr length c with
  | error error₁ c₁ =>
      rw [read_eq, hresult] at h
      cases h
      rfl
  | ok start c₁ =>
      rw [read_of_lookup hresult (lookup_ok hc hrange hresult)] at h
      cases h

theorem lookup_error_of_write {c c' : Cache υ} (hc : c.WellFormed) {addr : UInt32}
    {data : ByteArray} {error : StorageError}
    (hrange : c.geometry.Admits c.store.size addr data.size)
    (h : write addr data c = .error error c') :
    lookup addr data.size c = .error error c' := by
  cases hresult : lookup addr data.size c with
  | error error₁ c₁ =>
      rw [write_eq, hresult] at h
      cases h
      rfl
  | ok start c₁ =>
      rw [write_of_lookup hresult (lookup_ok hc hrange hresult)] at h
      cases h

/-! ## Units that do not fail -/

/-- A lookup fails only if a unit does. -/
theorem unit_fails_of_lookup {c c' : Cache υ} (hc : c.WellFormed) {addr : UInt32} {length : Nat}
    {error : StorageError} (hrange : c.geometry.Admits c.store.size addr length)
    (h : lookup addr length c = .error error c') :
    LawfulUnit.WriteFails υ ∨ LawfulUnit.ReadFails υ := by
  obtain ⟨line, hline⟩ := hc.exists_line (c.geometry.block addr).toNat
  rw [(fits_of_le hc (admits_within hc hrange).2).index] at hline
  obtain ⟨-, unit, n, -, hcause, -⟩ := lookup_error hc hrange hline h
  exact hcause

section

variable {υ : Type} [StorageUnit υ] [ReliableUnit υ]

/-- A read succeeds if no unit fails. -/
theorem read_succeeds {c : Cache υ} (hc : c.Coherent) {addr : UInt32} {length : Nat}
    (hrange : c.geometry.Admits c.store.size addr length) :
    ∃ c', read addr length c = .ok (c.contents.read addr.toNat length) c' ∧ c.Follows c' ∧
      c'.Coherent ∧ ∀ a < c.store.size, c'.contents a = c.contents a := by
  cases hresult : read addr length c with
  | ok bytes c' =>
      obtain ⟨hfollows, hread⟩ := read_ok hc.toWellFormed hrange hresult
      obtain ⟨rfl, hcoherent, hcontents⟩ := hread hc
      exact ⟨c', rfl, hfollows, hcoherent, hcontents⟩
  | error error c' =>
      have hlookup := lookup_error_of_read hc.toWellFormed hrange hresult
      rcases unit_fails_of_lookup hc.toWellFormed hrange hlookup with h | h
      · exact absurd h (ReliableUnit.not_writeFails υ)
      · exact absurd h (ReliableUnit.not_readFails υ)

/-- A write succeeds if no unit fails. -/
theorem write_succeeds {c : Cache υ} (hc : c.Coherent) {addr : UInt32} {data : ByteArray}
    (hrange : c.geometry.Admits c.store.size addr data.size) :
    ∃ c', write addr data c = .ok () c' ∧ c.Follows c' ∧ c'.Coherent ∧
      ∀ a < c.store.size, c'.contents a = c.contents.write addr.toNat data a := by
  cases hresult : write addr data c with
  | ok _ c' =>
      obtain ⟨hfollows, hwrite⟩ := write_ok hc.toWellFormed hrange hresult
      obtain ⟨hcoherent, hcontents⟩ := hwrite hc
      exact ⟨c', rfl, hfollows, hcoherent, hcontents⟩
  | error error c' =>
      have hlookup := lookup_error_of_write hc.toWellFormed hrange hresult
      rcases unit_fails_of_lookup hc.toWellFormed hrange hlookup with h | h
      · exact absurd h (ReliableUnit.not_writeFails υ)
      · exact absurd h (ReliableUnit.not_readFails υ)

end

end Cache

end RiscvMachine
