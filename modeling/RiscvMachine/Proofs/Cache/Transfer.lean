import RiscvMachine.Proofs.Cache.Coherence
import RiscvMachine.Proofs.Computation

set_option autoImplicit false

/-! # Moving blocks between the cache and the store

A miss moves up to two blocks: what the line held goes to the store if it is dirty
(`evict_spec`), and then the new block comes into the line (`fill_spec`).

Evicting never changes what the cache shows, not even when it fails half way, because the line
stays in front of the block. Filling is different. The line counts as holding its old block
until the new one has arrived whole, so a fill that fails in the second of two units leaves the
bytes of the first one in the old block.
-/

namespace RiscvMachine

/-- The bytes of a line once the first `n` of those from `base` on have arrived. -/
def Line.receive (line : Line) (m : Memory) (base n : Nat) : ByteArray :=
  Bytes.overlay line.bytes 0 (m.read base n)

theorem Line.byteAt_receive (line : Line) (m : Memory) (base n i : Nat) :
    Bytes.byteAt (line.receive m base n) i =
      if i < n then m (base + i) else Bytes.byteAt line.bytes i := by
  rw [receive, Bytes.byteAt_overlay, Memory.size_read]
  by_cases hi : i < n
  · rw [if_pos (by omega), if_pos hi, Nat.sub_zero, Memory.byteAt_read m base hi]
  · rw [if_neg (by omega), if_neg hi]

namespace Cache

variable {υ : Type} [StorageUnit υ] [LawfulUnit υ]

/-! ## Writing back -/

omit [LawfulUnit υ] in
theorem writeBack_eq {c : Cache υ} (hg : c.geometry.Valid) (hsize : c.store.size < 2 ^ 64)
    {index : Nat} {line : Line} (block : UInt32) (hline : c.lines[index]? = some line) :
    writeBack index block c =
      match Store.write (c.geometry.base block)
          (Bytes.slice line.bytes 0 (c.extentOf block)) c.store with
      | .ok () store => .ok () { c with store := store }
      | .error error store => .error error { c with store := store } := by
  unfold writeBack
  cases hwrite : Store.write (c.geometry.base block)
      (Bytes.slice line.bytes 0 (c.extentOf block)) c.store <;>
    simp only [rangeOf_eq hg hsize, lineBytes, hline, Option.map_some, Option.getD_some, hwrite]

omit [LawfulUnit υ] in
/-- Writing back leaves the lines alone. -/
theorem lines_of_writeBack {c c' : Cache υ} {index : Nat} {block : UInt32}
    (h : writeBack index block c = .ok () c') : c'.lines = c.lines := by
  unfold writeBack at h
  revert h
  cases c.rangeOf block with
  | error why =>
      intro h
      cases h
  | ok range =>
      obtain ⟨geometry, lines, hits, accesses, store⟩ := c
      simp only
      generalize Store.write _ _ store = result
      cases result with
      | ok _ store' =>
          rintro ⟨⟩
          rfl
      | error error store' =>
          intro h
          cases h

/-- `c'` is `c` with the first `n` bytes of the line's block in the store. -/
structure WritesBack (c : Cache υ) (block : UInt32) (line : Line) (n : Nat) (c' : Cache υ) :
    Prop where
  lines : c'.lines = c.lines
  geometry : c'.geometry = c.geometry
  follows : c.store.Follows c'.store
  size_le : n ≤ c.geometry.lineSize.toNat
  store : c'.store.contents = c.store.contents.write
    (block.toNat * c.geometry.lineSize.toNat) (Bytes.slice line.bytes 0 n)

/-- Writing back the block of a line puts all of it that exists in the store, or fails with a
part of it in the store. -/
theorem writeBack_spec {c : Cache υ} (hc : c.WellFormed) {index : Nat} {line : Line}
    {block : UInt32} (hline : c.lines[index]? = some line)
    (hblock : line.residency.block? = some block) :
    Ends (fun _ c' => c.WritesBack block line (c.extentOf block) c')
      (fun error c' => (∃ unit, error = .io unit) ∧ LawfulUnit.WriteFails υ ∧
        ∃ n, c.WritesBack block line n c')
      (writeBack index block c) := by
  obtain ⟨-, hrange, hcapacity⟩ := (hc.line hline).block hblock
  have hbase := CacheGeometry.base_toNat hc.geometry hrange
  have hextent := hc.extentOf_eq hrange
  have hsize : (Bytes.slice line.bytes 0 (c.extentOf block)).size = c.extentOf block :=
    Bytes.size_slice _ _ _
  have hwithin : (c.geometry.base block).toNat
      + (Bytes.slice line.bytes 0 (c.extentOf block)).size ≤ c.store.size := by
    rw [hbase, hsize, hextent]
    omega
  have hwrite := Store.write_spec hc.store hwithin
  rw [hbase, hsize] at hwrite
  rw [writeBack_eq hc.geometry hc.store.size_lt block hline]
  revert hwrite
  cases Store.write (c.geometry.base block)
      (Bytes.slice line.bytes 0 (c.extentOf block)) c.store with
  | ok _ store =>
      rintro ⟨hfollows, hcontents⟩
      refine .ok ⟨rfl, rfl, hfollows, by omega, ?_⟩
      rw [hcontents, Bytes.extract_slice, Nat.zero_add, Nat.min_self]
  | error error store =>
      -- the bytes in front of the failing unit have been written
      rintro ⟨unit, herror, -, hbehind, hfollows, hcontents, hfails⟩
      refine .error ⟨⟨unit, herror⟩, hfails,
        min (unit * c.store.unitCapacity.toNat - block.toNat * c.geometry.lineSize.toNat)
          (c.extentOf block),
        rfl, rfl, hfollows, by omega, ?_⟩
      rw [hcontents, Bytes.extract_slice, Nat.zero_add]

/-- Only the block itself changes in the store. -/
theorem WritesBack.store_of_ne {c c' : Cache υ} (hc : c.WellFormed) {line : Line}
    {block : UInt32} {n : Nat}
    (h : c.WritesBack block line n c') {a : Nat}
    (ha : a / c.geometry.lineSize.toNat ≠ block.toNat) :
    c'.store.contents a = c.store.contents a := by
  rw [h.store, Memory.write_of_not_mem]
  rw [Ne, div_eq_iff hc.geometry.lineSize_pos] at ha
  have hsize := h.size_le
  rw [Bytes.size_slice]
  omega

/-- A block that has been written back whole is in step with the store. -/
theorem WritesBack.synced {c c' : Cache υ} (hc : c.WellFormed) {index : Nat} {line : Line}
    {block : UInt32} (hline : c.lines[index]? = some line)
    (hblock : line.residency.block? = some block)
    (h : c.WritesBack block line (c.extentOf block) c') :
    line.Synced c'.geometry c'.store.size c'.store.contents := by
  obtain ⟨-, hrange, -⟩ := (hc.line hline).block hblock
  have hpos := hc.geometry.lineSize_pos
  have hextent := hc.extentOf_eq hrange
  rw [h.geometry, h.follows.size]
  intro a ha
  -- in its block the line has just been written, and elsewhere it shows the store anyway
  by_cases hin : a / c.geometry.lineSize.toNat = block.toNat
  · have hmod := Nat.div_add_mod' a c.geometry.lineSize.toNat
    have hlt := Nat.mod_lt a hpos
    rw [hin] at hmod
    rw [Line.view_of_holds ((Line.holds_iff hblock _).mpr hin), h.store, Memory.write_of_mem]
    · rw [Bytes.byteAt_slice, if_pos (by omega)]
      congr 1
      omega
    · rw [Bytes.size_slice]
      omega
  · exact Line.view_of_not_holds fun hholds => hin ((Line.holds_iff hblock _).mp hholds)

/-! ## Evicting -/

/-- Writes back the block of a line if the line is dirty. -/
def evict (index : Nat) (line : Line) : EStateM StorageError (Cache υ) Unit :=
  match line.residency with
  | .dirty block => writeBack index block
  | _ => pure ()

/-- `c'` shows what `c` shows and has its lines; only the store below the given line may have
changed. -/
structure Evicts (c : Cache υ) (line : Line) (c' : Cache υ) : Prop extends c.Keeps c' where
  lines : c'.lines = c.lines
  outside : ∀ a, ¬ line.Holds (a / c.geometry.lineSize.toNat) →
    c'.store.contents a = c.store.contents a

theorem WritesBack.evicts {c c' : Cache υ} (hc : c.WellFormed) {index : Nat} {line : Line}
    {block : UInt32} {n : Nat} (hline : c.lines[index]? = some line)
    (hdirty : line.residency = .dirty block) (h : c.WritesBack block line n c') :
    c.Evicts line c' := by
  have hblock : line.residency.block? = some block := by rw [hdirty]; rfl
  refine ⟨⟨.of_store hc h.lines h.geometry h.follows, ?_, ?_⟩, h.lines, ?_⟩
  · exact contents_of_store hc h.lines h.geometry hline hblock fun a => h.store_of_ne hc
  · intro hcoherent
    exact hcoherent.of_store h.lines h.geometry h.follows hline hdirty
      fun a => h.store_of_ne hc
  · intro a ha
    apply h.store_of_ne hc
    rwa [Line.holds_iff hblock] at ha

/-- Evicting leaves the line in step with the store, or fails; neither shows. -/
theorem evict_spec {c : Cache υ} (hc : c.WellFormed) {index : Nat} {line : Line}
    (hline : c.lines[index]? = some line) :
    Ends
      (fun _ c' => c.Evicts line c' ∧
        (c.Coherent → line.Synced c'.geometry c'.store.size c'.store.contents))
      (fun error c' => (∃ unit, error = .io unit) ∧ LawfulUnit.WriteFails υ ∧ c.Evicts line c')
      (evict index line c) := by
  have hclean (h : ∀ block, line.residency ≠ .dirty block) : c.Evicts line c ∧
      (c.Coherent → line.Synced c.geometry c.store.size c.store.contents) :=
    ⟨⟨.refl hc, rfl, fun _ _ => rfl⟩, fun hcoherent => hcoherent.synced hline h⟩
  unfold evict
  cases hresidency : line.residency with
  | vacant => exact .ok (hclean (by rw [hresidency]; exact nofun))
  | clean block => exact .ok (hclean (by rw [hresidency]; exact nofun))
  | dirty block =>
      have hblock : line.residency.block? = some block := by rw [hresidency]; rfl
      show Ends _ _ (writeBack index block c)
      have hspec := writeBack_spec hc hline hblock
      revert hspec
      cases writeBack index block c with
      | ok _ c' =>
          intro hspec
          have h := hspec.of_ok
          exact .ok ⟨h.evicts hc hline hresidency, fun _ => h.synced hc hline hblock⟩
      | error error c' =>
          intro hspec
          obtain ⟨herror, hfails, n, h⟩ := hspec.of_error
          exact .error ⟨herror, hfails, h.evicts hc hline hresidency⟩

/-! ## Filling -/

omit [LawfulUnit υ] in
theorem fill_eq {c : Cache υ} (hg : c.geometry.Valid) (hsize : c.store.size < 2 ^ 64)
    (index : Nat) (block : UInt32) :
    fill index block c =
      match Store.read (c.geometry.base block) (c.extentOf block) c.store with
      | .ok bytes store =>
        .ok () ({ c with store := store }.onLine index fun line =>
          ⟨.clean block, Bytes.overlay line.bytes 0 bytes⟩)
      | .error failure store =>
        .error failure.error ({ c with store := store }.onLine index fun line =>
          { line with bytes := Bytes.overlay line.bytes 0 failure.arrived }) := by
  unfold fill
  simp only [rangeOf_eq hg hsize]
  cases Store.read (c.geometry.base block) (c.extentOf block) c.store <;> rfl

/-- `c'` is `c` with the first `n` bytes of a block in front of the line's, as `residency`. -/
structure Fills (c : Cache υ) (index : Nat) (line : Line) (residency : Residency) (base n : Nat)
    (c' : Cache υ) : Prop where
  geometry : c'.geometry = c.geometry
  follows : c.store.Follows c'.store
  store : c'.store.contents = c.store.contents
  lines : c'.lines = c.lines.modify index fun _ =>
    ⟨residency, line.receive c.store.contents base n⟩

/-- The place of a block that exists, at least in part. -/
structure Fits (c : Cache υ) (block : UInt32) (index : Nat) : Prop where
  index : block.toNat % c.geometry.lineCount.toNat = index
  range : block.toNat * c.geometry.lineSize.toNat < 2 ^ 32
  capacity : block.toNat * c.geometry.lineSize.toNat ≤ c.store.size

/-- Changing a line whose bytes are known. -/
theorem modify_of_getElem? {lines : Array Line} {index : Nat} {line : Line}
    (hline : lines[index]? = some line) (change : Line → Line) :
    lines.modify index change = lines.modify index fun _ => change line := by
  apply Array.ext_getElem?
  intro i
  rw [Array.getElem?_modify, Array.getElem?_modify]
  split
  · rename_i heq
    rw [← heq, hline, Option.map_some, Option.map_some]
  · rfl

/-- Filling puts all of the block that exists in the line, or fails with the bytes in front of
the unit that the error names in the old block. -/
theorem fill_spec {c : Cache υ} (hc : c.WellFormed) {index : Nat} {line : Line} {block : UInt32}
    (hline : c.lines[index]? = some line) (hfits : c.Fits block index) :
    Ends
      (fun _ c' => c.Fills index line (.clean block)
        (block.toNat * c.geometry.lineSize.toNat) (c.extentOf block) c')
      (fun error c' => ∃ unit, error = .io unit ∧ LawfulUnit.ReadFails υ ∧
        block.toNat * c.geometry.lineSize.toNat / c.store.unitCapacity.toNat ≤ unit ∧
        unit * c.store.unitCapacity.toNat - block.toNat * c.geometry.lineSize.toNat
          < c.extentOf block ∧
        c.Fills index line line.residency (block.toNat * c.geometry.lineSize.toNat)
          (unit * c.store.unitCapacity.toNat - block.toNat * c.geometry.lineSize.toNat) c')
      (fill index block c) := by
  have hbase := CacheGeometry.base_toNat hc.geometry hfits.range
  have hextent := hc.extentOf_eq hfits.range
  have hcapacity := hfits.capacity
  have hread := Store.read_spec hc.store
    (show (c.geometry.base block).toNat + c.extentOf block ≤ c.store.size by
      rw [hbase, hextent]
      omega)
  rw [hbase] at hread
  rw [fill_eq hc.geometry hc.store.size_lt]
  revert hread
  cases Store.read (c.geometry.base block) (c.extentOf block) c.store with
  | ok bytes store =>
      rintro ⟨hbytes, hfollows, hcontents⟩
      refine .ok ⟨rfl, hfollows, hcontents, ?_⟩
      rw [ByteArray.empty_append] at hbytes
      rw [Line.receive, ← hbytes]
      exact modify_of_getElem? hline
        fun line => ⟨.clean block, Bytes.overlay line.bytes 0 bytes⟩
  -- the bytes in front of the failing unit have come into the line
  | error failure store =>
      rintro ⟨unit, herror, hunit, hbehind, harrived, hfollows, hcontents, hfails⟩
      refine .error ⟨unit, herror, hfails, hunit, hbehind, rfl, hfollows, hcontents, ?_⟩
      rw [ByteArray.empty_append] at harrived
      rw [Line.receive, ← harrived]
      exact modify_of_getElem? hline
        fun line => { line with bytes := Bytes.overlay line.bytes 0 failure.arrived }

section

variable {c : Cache υ} {index : Nat} {line : Line} {residency : Residency} {base n : Nat}

/-- The line stays in its place if the block it then counts as holding belongs there. -/
theorem placed_receive (hblock : ∀ block, residency.block? = some block → c.Fits block index) :
    Line.Placed c.geometry c.store.size index
      ⟨residency, line.receive c.store.contents base n⟩ := by
  constructor
  intro block h
  obtain ⟨hindex, hrange, hcapacity⟩ := hblock block h
  exact ⟨hindex, hrange, hcapacity⟩

theorem WellFormed.fits (hc : c.WellFormed) (hline : c.lines[index]? = some line) {block : UInt32}
    (hblock : line.residency.block? = some block) : c.Fits block index := by
  obtain ⟨hindex, hrange, hcapacity⟩ := (hc.line hline).block hblock
  exact ⟨hindex, hrange, hcapacity⟩

end

section

variable {c c' : Cache υ} {index : Nat} {line : Line} {block : UInt32}

/-- A line that has received a block whole is in step with the store. -/
theorem synced_receive (hc : c.WellFormed) (hfits : c.Fits block index) (line : Line) :
    Line.Synced c.geometry c.store.size c.store.contents
      ⟨.clean block, line.receive c.store.contents
        (block.toNat * c.geometry.lineSize.toNat) (c.extentOf block)⟩ := by
  intro a ha
  have hextent := hc.extentOf_eq hfits.range
  have hlt := Nat.mod_lt a hc.geometry.lineSize_pos
  have hmod := Nat.div_add_mod' a c.geometry.lineSize.toNat
  rw [Line.view]
  split
  · rename_i hholds
    rw [Line.holds_iff rfl] at hholds
    rw [hholds] at hmod
    rw [Line.byteAt_receive, if_pos (by omega), hmod]
  · rfl

/-- A block that arrives whole in a line that was in step with the store does not show. -/
theorem Fills.whole (hc : c.WellFormed) (hline : c.lines[index]? = some line)
    (hfits : c.Fits block index)
    (h : c.Fills index line (.clean block) (block.toNat * c.geometry.lineSize.toNat)
      (c.extentOf block) c') :
    c.Follows c' ∧ (c.Coherent → c'.Coherent) ∧
      (line.Synced c.geometry c.store.size c.store.contents →
        ∀ a < c.store.size, c'.contents a = c.contents a) := by
  have hextent := hc.extentOf_eq hfits.range
  have hplaced : Line.Placed c.geometry c.store.size index
      ⟨.clean block, line.receive c.store.contents
        (block.toNat * c.geometry.lineSize.toNat) (c.extentOf block)⟩ :=
    placed_receive (by rintro _ ⟨⟩; exact hfits)
  have hsynced := synced_receive hc hfits line
  refine ⟨.of_line hc h.geometry h.follows hline h.lines hplaced, ?_, ?_⟩
  · intro hcoherent
    exact hcoherent.of_line h.geometry h.follows h.store hline h.lines hplaced fun _ => hsynced
  · intro hold a ha
    rw [contents_of_modify h.geometry h.store hline h.lines]
    split
    · rename_i hindex
      rw [← hindex] at hline
      rw [hsynced a ha, contents_of_line hline, hold a ha]
    · rfl

/-- The bytes that have arrived in a line that keeps its old block show in that block. -/
theorem Fills.partly (hc : c.WellFormed) (hline : c.lines[index]? = some line) {base n : Nat}
    (h : c.Fills index line line.residency base n c') :
    c.Follows c' ∧
      (∀ a, c'.contents a =
        if line.Holds (a / c.geometry.lineSize.toNat) ∧ a % c.geometry.lineSize.toNat < n then
          c.store.contents (base + a % c.geometry.lineSize.toNat)
        else c.contents a) ∧
      (c.Coherent → (∀ a < c.store.size, c'.contents a = c.contents a) → c'.Coherent) := by
  -- the line keeps its block, and with it its place
  have hplaced : Line.Placed c.geometry c.store.size index
      ⟨line.residency, line.receive c.store.contents base n⟩ :=
    placed_receive fun _ hblock => hc.fits hline hblock
  have hcontents := contents_of_modify h.geometry h.store hline h.lines
  refine ⟨.of_line hc h.geometry h.follows hline h.lines hplaced, ?_, ?_⟩
  · intro a
    rw [hcontents]
    split
    · rename_i hindex
      rw [← hindex] at hline
      rw [contents_of_line hline, Line.view, Line.view, Line.byteAt_receive]
      show (if line.Holds _ then _ else _) = _
      by_cases hholds : line.Holds (a / c.geometry.lineSize.toNat)
      · simp only [hholds, true_and, if_true]
      · simp only [hholds, false_and, if_false]
    · rename_i hindex
      rw [if_neg]
      exact fun h => hindex (hc.index_of_holds hline h.1)
  · -- a line that is not dirty stays in step with the store as long as nothing new shows
    intro hcoherent hkept
    refine hcoherent.of_line h.geometry h.follows h.store hline h.lines hplaced ?_
    intro hclean a ha
    by_cases hindex : a / c.geometry.lineSize.toNat % c.geometry.lineCount.toNat = index
    · have hshown := hkept a ha
      rw [hcontents, if_pos hindex] at hshown
      rw [hshown]
      rw [← hindex] at hline
      rw [contents_of_line hline]
      exact hcoherent.synced hline hclean a ha
    · exact Line.view_of_not_holds fun h => hindex (hc.index_of_holds hline h)

end

/-! ## Replacing a block by another -/

/-- `c'` is `c` after a refill has failed with the first `n` bytes of the block at `base` in the
line, which still counts as holding what it held. -/
structure Fails (c : Cache υ) (line : Line) (base n : Nat) (c' : Cache υ) : Prop
    extends c.Follows c' where
  contents : ∀ a, c'.contents a =
    if line.Holds (a / c.geometry.lineSize.toNat) ∧ a % c.geometry.lineSize.toNat < n then
      c.store.contents (base + a % c.geometry.lineSize.toNat)
    else c.contents a
  coherent : c.Coherent → (∀ a < c.store.size, c'.contents a = c.contents a) → c'.Coherent

def refill (index : Nat) (line : Line) (block : UInt32) : EStateM StorageError (Cache υ) Unit := do
  evict index line
  fill index block

/-- How many bytes of a block come into a line if the store fails at the given unit: none if the
line cannot even be evicted, otherwise those in front of the unit. -/
def arrivals (c : Cache υ) (index : Nat) (line : Line) (block : UInt32) (unit : Nat) : Nat :=
  match evict index line c with
  | .ok () _ =>
    unit * c.store.unitCapacity.toNat - block.toNat * c.geometry.lineSize.toNat
  | .error _ _ => 0

theorem Fits.of_follows {c c' : Cache υ} {block : UInt32} {index : Nat}
    (h : c.Fits block index) (hfollows : c.Follows c') : c'.Fits block index := by
  refine ⟨?_, ?_, ?_⟩
  · rw [hfollows.geometry]
    exact h.index
  · rw [hfollows.geometry]
    exact h.range
  · rw [hfollows.geometry, hfollows.size]
    exact h.capacity

section

variable {c : Cache υ} {index : Nat} {line : Line} {block : UInt32}

theorem refill_ok {c' : Cache υ} (hc : c.WellFormed) (hline : c.lines[index]? = some line)
    (hfits : c.Fits block index) (h : refill index line block c = .ok () c') :
    c.Follows c' ∧ (∃ line', c'.lines[index]? = some line' ∧ line'.Holds block.toNat) ∧
      (c.Coherent → c'.Coherent ∧ ∀ a < c.store.size, c'.contents a = c.contents a) := by
  have hevict := evict_spec hc hline
  simp only [refill, bind, EStateM.bind] at h
  cases hresult : evict index line c with
  | error error c₁ =>
      simp only [hresult] at h
      cases h
  | ok _ c₁ =>
      rw [hresult] at hevict
      simp only [hresult] at h
      obtain ⟨hevicts, hsynced⟩ := hevict.of_ok
      have hline₁ : c₁.lines[index]? = some line := by rw [hevicts.lines, hline]
      have hfits₁ := hfits.of_follows hevicts.toFollows
      have hfill := fill_spec hevicts.wellFormed hline₁ hfits₁
      rw [h] at hfill
      have hfills := hfill.of_ok
      obtain ⟨hfollows, hcoherent, hcontents⟩ := hfills.whole hevicts.wellFormed hline₁ hfits₁
      have hfilled := (getElem?_of_modify hline₁ hfills.lines index).trans (if_pos rfl)
      refine ⟨hevicts.toFollows.trans hfollows, ⟨_, hfilled, ?_⟩, ?_⟩
      · exact (Line.holds_iff rfl _).mpr rfl
      · intro hc₀
        refine ⟨hcoherent (hevicts.coherent hc₀), ?_⟩
        intro a ha
        rw [hcontents (hsynced hc₀) a (by rwa [hevicts.toFollows.size]), hevicts.contents]

/-- Evicting alone leaves none of the new block in the line. -/
theorem Evicts.fails {c' : Cache υ} (h : c.Evicts line c') (base : Nat) :
    c.Fails line base 0 c' := by
  refine ⟨h.toFollows, ?_, ?_⟩
  · intro a
    rw [if_neg (by omega), h.contents]
  · intro hcoherent _
    exact h.coherent hcoherent

/-- Bytes of the new block that arrive once the line has been evicted come from what the store
held before, because the new block is not the evicted one. -/
theorem Evicts.fails_of_fills {c₁ c' : Cache υ} {n : Nat} (hc : c.WellFormed)
    (hline : c.lines[index]? = some line) (hmissed : ¬ line.Holds block.toNat)
    (h : c.Evicts line c₁)
    (hfills : c₁.Fills index line line.residency (block.toNat * c.geometry.lineSize.toNat) n c') :
    c.Fails line (block.toNat * c.geometry.lineSize.toNat) n c' := by
  have hpos := hc.geometry.lineSize_pos
  have hline₁ : c₁.lines[index]? = some line := by rw [h.lines, hline]
  obtain ⟨hfollows, hcontents, hcoherent⟩ := hfills.partly h.wellFormed hline₁
  refine ⟨h.toFollows.trans hfollows, ?_, ?_⟩
  · intro a
    have hblock : (block.toNat * c.geometry.lineSize.toNat + a % c.geometry.lineSize.toNat)
        / c.geometry.lineSize.toNat = block.toNat := by
      rw [div_eq_iff hpos]
      have hlt := Nat.mod_lt a hpos
      omega
    rw [hcontents, h.geometry, h.contents, h.outside]
    rwa [hblock]
  · intro hc₀ hkept
    apply hcoherent (h.coherent hc₀)
    intro a ha
    rw [hkept a (by rwa [← h.toFollows.size]), h.contents]

theorem refill_error {c' : Cache υ} {error : StorageError} (hc : c.WellFormed)
    (hline : c.lines[index]? = some line) (hfits : c.Fits block index)
    (hmissed : ¬ line.Holds block.toNat) (h : refill index line block c = .error error c') :
    ∃ unit, error = .io unit ∧ (LawfulUnit.WriteFails υ ∨ LawfulUnit.ReadFails υ) ∧
      (0 < c.arrivals index line block unit →
        c.arrivals index line block unit < c.extentOf block) ∧
      c.Fails line (block.toNat * c.geometry.lineSize.toNat)
        (c.arrivals index line block unit) c' := by
  have hevict := evict_spec hc hline
  simp only [refill, bind, EStateM.bind] at h
  cases hresult : evict index line c with
  | error error c₁ =>
      -- the line keeps its block, and nothing of the new one has been read
      rw [hresult] at hevict
      simp only [hresult] at h
      cases h
      obtain ⟨⟨unit, herror⟩, hfails, hevicts⟩ := hevict.of_error
      have hnone : c.arrivals index line block unit = 0 := by rw [arrivals, hresult]
      refine ⟨unit, herror, .inl hfails, by omega, ?_⟩
      rw [hnone]
      exact hevicts.fails _
  | ok _ c₁ =>
      rw [hresult] at hevict
      simp only [hresult] at h
      obtain ⟨hevicts, -⟩ := hevict.of_ok
      have hline₁ : c₁.lines[index]? = some line := by rw [hevicts.lines, hline]
      have hfits₁ := hfits.of_follows hevicts.toFollows
      have hextent := hc.extentOf_eq hfits.range
      have hextent₁ : c₁.extentOf block = c.extentOf block := by
        rw [hevicts.wellFormed.extentOf_eq hfits₁.range, hextent, hevicts.geometry,
          hevicts.toFollows.size]
      have hfill := fill_spec hevicts.wellFormed hline₁ hfits₁
      rw [h] at hfill
      obtain ⟨unit, herror, hfails, -, hbehind, hfills⟩ := hfill.of_error
      have harrivals : c.arrivals index line block unit
          = unit * c.store.unitCapacity.toNat - block.toNat * c.geometry.lineSize.toNat := by
        rw [arrivals, hresult]
      rw [hevicts.geometry, hevicts.toFollows.store.unitCapacity, ← harrivals] at hbehind hfills
      rw [hextent₁] at hbehind
      refine ⟨unit, herror, .inr hfails, fun _ => hbehind, ?_⟩
      exact hevicts.fails_of_fills hc hline hmissed hfills

end

end Cache

end RiscvMachine
