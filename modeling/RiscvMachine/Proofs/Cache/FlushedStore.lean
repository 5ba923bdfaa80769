import RiscvMachine.Proofs.Cache.Failure
import RiscvMachine.Proofs.Storage.Requests

set_option autoImplicit false

/-! # The store after a flush

Writes to the units may fail whenever they like here, but no read does. Then the cache stays
coherent through every run (`Coherent.attempts`): an access that fails could not evict its line
and left it alone, and a flush that fails has cleaned only lines whose block is in the store.

A flush that comes to its end leaves no line dirty (`clean_of_flush`). In a coherent cache the
store then holds all that the cache shows, so flushing again has nothing to write, and emptying
the cache changes nothing that shows (`attempts_flush_stores`).
-/

namespace RiscvMachine.Cache

variable {υ : Type} [StorageUnit υ]

/-! ## Runs on which no read of a unit fails -/

/-- A unit fails to read its part of the block of an address, which was not resident and had its
line evicted for it. -/
def BlockFails (c : Cache υ) (addr : UInt32) : Prop :=
  ∃ line ∈ c.lines[c.geometry.index (c.geometry.block addr)]?,
    ¬ line.Holds (c.geometry.block addr).toNat ∧
    ∃ c₁ unit, evict (c.geometry.index (c.geometry.block addr)) line c = .ok () c₁ ∧
      c₁.store.RefusedIn Store.ReadRefuses (c₁.geometry.base (c.geometry.block addr)).toNat
        (c₁.extentOf (c.geometry.block addr)) unit

/-- A read of a unit fails during the request. -/
def ReadFails (c : Cache υ) (request : CacheRequest) : Prop :=
  ∃ addr ∈ request.addr?, c.BlockFails addr

/-- No read of a unit fails while the requests are performed one after the other, though writes
may. -/
def NoReadFails (c : Cache υ) (requests : List CacheRequest) : Prop :=
  ∀ before request after, requests = before ++ request :: after →
    ¬ (c.attempts before).ReadFails request

theorem NoReadFails.head {c : Cache υ} {request : CacheRequest} {rest : List CacheRequest}
    (h : c.NoReadFails (request :: rest)) : ¬ c.ReadFails request :=
  h [] request rest rfl

theorem NoReadFails.tail {c : Cache υ} {request : CacheRequest} {rest : List CacheRequest}
    (h : c.NoReadFails (request :: rest)) : (c.attempt request).NoReadFails rest := by
  intro before next after heq
  exact h (request :: before) next after (congrArg (request :: ·) heq)

variable [LawfulUnit υ]

/-- A fill fails only if a unit fails to read its part of the block. -/
theorem refusedIn_of_fill {c c' : Cache υ} (hc : c.WellFormed) {index : Nat} {block : UInt32}
    {error : StorageError} (hfits : c.Fits block index)
    (h : fill index block c = .error error c') :
    ∃ unit, c.store.RefusedIn Store.ReadRefuses (c.geometry.base block).toNat
      (c.extentOf block) unit := by
  have hbase := CacheGeometry.base_toNat hc.geometry hfits.range
  have hextent := hc.extentOf_eq hfits.range
  have hcapacity := hfits.capacity
  have hfirst := Store.read_first hc.store.size_lt
    (show (c.geometry.base block).toNat + c.extentOf block ≤ c.store.size by
      rw [hbase, hextent]
      omega)
  rw [fill_eq hc.geometry hc.store.size_lt] at h
  revert h hfirst
  cases Store.read (c.geometry.base block) (c.extentOf block) c.store with
  | ok bytes store =>
      intro h
      cases h
  | error failure store =>
      intro _ hfirst
      obtain ⟨unit, -, hrefused, -⟩ := hfirst.of_error
      exact ⟨unit, hrefused⟩

/-- A lookup that fails, but not at a read, could not evict its line, and that does not show. -/
theorem keeps_of_lookup_error {c c' : Cache υ} (hc : c.WellFormed) {addr : UInt32} {length : Nat}
    (hrange : c.geometry.Admits c.store.size addr length) {error : StorageError}
    (hreads : ¬ c.BlockFails addr) (h : lookup addr length c = .error error c') : c.Keeps c' := by
  obtain ⟨hlength, haddr⟩ := admits_within hc hrange
  have hfits := fits_of_le hc haddr
  have hcount := keeps_count hc c.hits (c.accesses + 1)
  obtain ⟨line, hline⟩ := hc.exists_line (c.geometry.block addr).toNat
  rw [hfits.index] at hline
  rw [lookup_eq hc.geometry hlength hline] at h
  split at h
  · cases h
  · rename_i hmissed
    simp only [refill, bind, EStateM.bind, evict_count] at h
    have hevict := evict_spec hc hline
    revert h hevict
    cases hresult : evict (c.geometry.index (c.geometry.block addr)) line c with
    | error error' c₁ =>
        intro h hevict
        cases h
        have hkeeps := hevict.of_error.2.2.toKeeps
        exact hkeeps.trans (keeps_count hkeeps.wellFormed _ _)
    | ok _ c₁ =>
        intro h hevict
        simp only at h
        -- the line has been evicted, so that only a read can have failed
        have hkeeps := hevict.of_ok.1.toKeeps
        have hcount₁ := keeps_count hkeeps.wellFormed c.hits (c.accesses + 1)
        cases hfill : fill (c.geometry.index (c.geometry.block addr)) (c.geometry.block addr)
            (c₁.count c.hits (c.accesses + 1)) with
        | ok _ c₂ =>
            rw [hfill] at h
            cases h
        | error error' c₂ =>
            obtain ⟨unit, hrefused⟩ := refusedIn_of_fill hcount₁.wellFormed
              (hfits.of_follows (hkeeps.trans hcount₁).toFollows) hfill
            exact absurd ⟨line, hline, hmissed, c₁, unit, hresult, hrefused⟩ hreads

/-- A coherent cache stays so through a request, whatever comes of it. -/
theorem Coherent.attempt {c : Cache υ} (hc : c.Coherent) {request : CacheRequest}
    (hrange : request.InRange c.geometry c.store.size) (hreads : ¬ c.ReadFails request) :
    (c.attempt request).Coherent := by
  have hwellFormed := hc.toWellFormed
  cases request with
  | read addr length =>
      unfold Cache.attempt
      simp only [perform, bind, EStateM.bind]
      cases hresult : read addr length c with
      | ok bytes c' => exact ((read_ok hwellFormed hrange hresult).2 hc).2.1
      | error error c' =>
          exact (keeps_of_lookup_error hwellFormed hrange (fun h => hreads ⟨addr, rfl, h⟩)
            (lookup_error_of_read hwellFormed hrange hresult)).coherent hc
  | write addr data =>
      unfold Cache.attempt
      simp only [perform, bind, EStateM.bind]
      cases hresult : write addr data c with
      | ok _ c' => exact ((write_ok hwellFormed hrange hresult).2 hc).1
      | error error c' =>
          exact (keeps_of_lookup_error hwellFormed hrange (fun h => hreads ⟨addr, rfl, h⟩)
            (lookup_error_of_write hwellFormed hrange hresult)).coherent hc
  | flush =>
      have hspec := flush_spec hwellFormed
      unfold Cache.attempt
      simp only [perform, bind, EStateM.bind]
      revert hspec
      cases flush c with
      | ok _ c' => exact fun hspec => hspec.of_ok.coherent hc
      | error error c' => exact fun hspec => hspec.of_error.1.coherent hc
  | invalidate => exact (invalidate_spec hwellFormed).2.1
  | resetCounters => exact (keeps_resetCounters hwellFormed).coherent hc

/-- A coherent cache stays so through a run on which no read of a unit fails. -/
theorem Coherent.attempts {c : Cache υ} (hc : c.Coherent) (requests : List CacheRequest)
    (hrange : ∀ request ∈ requests, request.InRange c.geometry c.store.size)
    (hreads : c.NoReadFails requests) : (c.attempts requests).Coherent := by
  induction requests generalizing c with
  | nil => exact hc
  | cons request rest ih =>
      have hfirst := hrange request List.mem_cons_self
      have hfollows := attempt_follows hc.toWellFormed hfirst
      refine ih (hc.attempt hfirst hreads.head) ?_ hreads.tail
      intro r hr
      rw [hfollows.geometry, hfollows.size]
      exact hrange r (List.mem_cons_of_mem request hr)

/-! ## Lines that are not dirty -/

omit [LawfulUnit υ] in
/-- Flushing a line cleans it and leaves clean lines clean. -/
theorem clean_of_flushLine {c c' : Cache υ} {index : Nat} (h : flushLine index c = .ok () c')
    {i : Nat} (hi : i = index ∨ c.Clean i) : c'.Clean i := by
  by_cases hclean : c.Clean index
  · rw [flushLine_of_not_dirty hclean] at h
    cases h
    rcases hi with rfl | hi
    · exact hclean
    · exact hi
  · simp only [Clean, not_forall, not_not] at hclean
    obtain ⟨line, block, hline, hdirty⟩ := hclean
    rw [flushLine_of_dirty hline hdirty] at h
    cases hback : writeBack index block c with
    | error error c₁ =>
        rw [hback] at h
        cases h
    | ok _ c₁ =>
        rw [hback] at h
        cases h
        intro line' block' hline'
        change (c₁.lines.modify index fun line => { line with residency := .clean block })[i]? =
          some line' at hline'
        rw [lines_of_writeBack hback, getElem?_of_modify hline rfl] at hline'
        split at hline'
        · cases hline'
          exact nofun
        · rename_i hne
          rcases hi with rfl | hi
          · exact absurd rfl hne
          · exact hi line' block' hline'

omit [LawfulUnit υ] in
theorem clean_of_flushLines (indices : List Nat) {c c' : Cache υ}
    (h : indices.forM flushLine c = .ok () c') {i : Nat} (hi : i ∈ indices ∨ c.Clean i) :
    c'.Clean i := by
  induction indices generalizing c with
  | nil =>
      cases h
      rcases hi with hi | hi
      · cases hi
      · exact hi
  | cons index rest ih =>
      rw [forM_flushLine_cons] at h
      cases hfirst : flushLine index c with
      | error error c₁ =>
          rw [hfirst] at h
          cases h
      | ok _ c₁ =>
          rw [hfirst] at h
          apply ih h
          rw [List.mem_cons, or_assoc, or_left_comm] at hi
          exact hi.imp_right (clean_of_flushLine hfirst)

omit [LawfulUnit υ] in
/-- A flush that succeeds leaves no line dirty. -/
theorem clean_of_flush {c c' : Cache υ} (h : flush c = .ok () c') (i : Nat) : c'.Clean i := by
  apply clean_of_flushLines (List.range c.lines.size) h
  rcases Nat.lt_or_ge i c.lines.size with hi | hi
  · exact .inl (List.mem_range.mpr hi)
  · right
    intro line block hline
    rw [Array.getElem?_eq_none hi] at hline
    cases hline

/-- A coherent cache without a dirty line shows what the store holds. -/
theorem Coherent.contents_of_clean {c : Cache υ} (hc : c.Coherent) (hclean : ∀ i, c.Clean i)
    {a : Nat} (ha : a < c.store.size) : c.store.contents a = c.contents a := by
  unfold contents
  split
  · rename_i line hline
    exact (hc.synced hline (fun block => hclean _ line block hline) a ha).symm
  · rfl

/-! ## Flushing after a run -/

section

omit [LawfulUnit υ]

/-- Where every access gives up, a request leaves the store alone and the lines vacant. -/
theorem attempt_of_refuses {c : Cache υ} (hc : c.Vacant) (h : c.Refuses)
    (request : CacheRequest) :
    (c.attempt request).Vacant ∧ (c.attempt request).geometry = c.geometry ∧
      (c.attempt request).store = c.store := by
  cases haddr : request.addr? with
  | none =>
      obtain ⟨c', hperform, hc', hgeometry, hstore⟩ := perform_of_vacant hc haddr
      rw [attempt, hperform]
      exact ⟨hc', hgeometry, hstore⟩
  | some addr =>
      have hgives (length : Nat) := lookup_of_refuses hc h addr length
      cases request with
      | read addr' length =>
          cases haddr
          obtain ⟨why, hits, accesses, hlookup⟩ := hgives length
          simp only [attempt, perform, bind, EStateM.bind, read_eq, hlookup]
          exact ⟨hc, rfl, rfl⟩
      | write addr' data =>
          cases haddr
          obtain ⟨why, hits, accesses, hlookup⟩ := hgives data.size
          simp only [attempt, perform, bind, EStateM.bind, write_eq, hlookup]
          exact ⟨hc, rfl, rfl⟩
      | flush => cases haddr
      | invalidate => cases haddr
      | resetCounters => cases haddr

theorem attempts_of_refuses {c : Cache υ} (hc : c.Vacant) (h : c.Refuses)
    (requests : List CacheRequest) :
    (c.attempts requests).Vacant ∧ (c.attempts requests).geometry = c.geometry ∧
      (c.attempts requests).store = c.store := by
  induction requests generalizing c with
  | nil => exact ⟨hc, rfl, rfl⟩
  | cons request rest ih =>
      obtain ⟨hc', hgeometry, hstore⟩ := attempt_of_refuses hc h request
      have h' : (c.attempt request).Refuses := by
        rw [Refuses, hgeometry, hstore]
        exact h
      obtain ⟨hvacant, hgeometry', hstore'⟩ := ih hc' h'
      exact ⟨hvacant, hgeometry'.trans hgeometry, hstore'.trans hstore⟩

end

/-- What a flush comes to after a run of a cache `c₀`. It changes no byte that shows. If it
succeeds, the store holds what the cache shows, another flush changes nothing, not even the count of
writes, and nor does emptying the cache show. If it fails, each line is still dirty or in step with
the store. -/
def Stores (c₀ c : Cache υ) : EStateM.Result StorageError (Cache υ) Unit → Prop :=
  Ends
    (fun _ c' => c'.contents = c.contents ∧
      (∀ a < c₀.store.size, c'.store.contents a = c'.contents a) ∧
      flush c' = .ok () c' ∧
      ∀ a < c₀.store.size, c'.invalidate.contents a = c'.contents a)
    (fun _ c' => c'.contents = c.contents ∧
      ∀ (i : Nat) (line : Line), c'.lines[i]? = some line →
        (∃ block, line.residency = .dirty block) ∨
          line.Synced c₀.geometry c₀.store.size c'.store.contents)

theorem Vacant.stores {c₀ c : Cache υ} (hc : c.Vacant) : c₀.Stores c (flush c) := by
  rw [flush_of_vacant hc]
  refine .ok ⟨rfl, ?_, flush_of_vacant hc, ?_⟩
  · intro a _
    rw [contents_of_vacant hc]
  · intro a _
    rw [contents_of_vacant hc, contents_of_vacant c.vacant_invalidate]
    rfl

theorem Coherent.stores {c₀ c : Cache υ} (hc : c.Coherent) (hfollows : c₀.Follows c) :
    c₀.Stores c (flush c) := by
  have hspec := flush_spec hc.toWellFormed
  revert hspec
  cases hresult : flush c with
  | ok _ c' =>
      intro hspec
      have hkeeps := hspec.of_ok
      have hfollows' := hfollows.trans hkeeps.toFollows
      have hclean := clean_of_flush hresult
      have hsame : ∀ a < c₀.store.size, c'.store.contents a = c'.contents a := fun a ha =>
        (hkeeps.coherent hc).contents_of_clean hclean (by rwa [hfollows'.size])
      refine .ok ⟨hkeeps.contents, hsame, flush_of_clean hclean, fun a ha => ?_⟩
      rw [(invalidate_spec hkeeps.wellFormed).2.2, hsame a ha]
  | error error c' =>
      intro hspec
      have hkeeps := hspec.of_error.1
      have hfollows' := hfollows.trans hkeeps.toFollows
      refine .error ⟨hkeeps.contents, fun i line hline => ?_⟩
      by_cases hdirty : ∃ block, line.residency = .dirty block
      · exact .inl hdirty
      · right
        rw [← hfollows'.geometry, ← hfollows'.size]
        exact (hkeeps.coherent hc).synced hline fun block h => hdirty ⟨block, h⟩

/-- Take a cache of vacant lines, of any sizes with which one is made and over units of any number
and capacity, after any run of requests on which no read of a unit fails, though writes may.
Whatever a flush then comes to, it changes no byte that shows, and what it leaves unwritten is still
dirty. -/
theorem attempts_flush_stores {c₀ made : Cache υ}
    (hnew : new c₀.geometry c₀.store = .ok made) (hunits : c₀.store.UnitsSound)
    (hcount : c₀.lines.size = c₀.geometry.lineCount.toNat) (hvacant : c₀.Vacant)
    (requests : List CacheRequest)
    (hrange : ∀ request ∈ requests, request.InRange c₀.geometry c₀.store.size)
    (hreads : c₀.NoReadFails requests) :
    c₀.Stores (c₀.attempts requests) (flush (c₀.attempts requests)) := by
  by_cases hrefuses : c₀.Refuses
  · exact (attempts_of_refuses hvacant hrefuses requests).1.stores
  · rw [Refuses, not_or, not_and, Nat.not_lt, Nat.not_le] at hrefuses
    obtain ⟨hsize, hstore⟩ := hrefuses
    have hvalid := valid_of_new hnew (hsize (new_eq_ok_iff.mp hnew).2.2.1)
    have hc₀ := coherent_of_vacant hvalid ⟨hunits, hstore⟩ hcount hvacant
    exact (hc₀.attempts requests hrange hreads).stores
      (attempts_follows hc₀.toWellFormed requests hrange)

/-- Two lines of four bytes over two units of six, the second of which fails at its second call. -/
def stalling : Cache (Flaky Medium) :=
  empty ⟨4, 2⟩ ⟨#[⟨.memory 6, []⟩, ⟨.memory 6, [false, true]⟩], 6, 0, 0⟩

/-- The block from 4 on straddles the units, so the first flush ends half way and leaves the store
without the byte written to 6. The second one stores it. -/
theorem attempts_flush_stores_straddling :
    let c := stalling.attempts [.write 4 ⟨#[1, 2, 3, 4]⟩, .flush]
    c.store.contents 5 = 2 ∧ c.store.contents 6 = 0 ∧
      ∃ c', flush c = .ok () c' ∧ c'.store.contents 6 = 3 ∧ flush c' = .ok () c' := by
  intro c
  have hnew : new stalling.geometry stalling.store = .ok stalling := by rfl
  have hunits : stalling.store.UnitsSound :=
    Store.unitsSound_pair ⟨Medium.memory_intact 6, rfl⟩ ⟨Medium.memory_intact 6, rfl⟩
  have hreads : stalling.NoReadFails [.write 4 ⟨#[1, 2, 3, 4]⟩, .flush] := by
    rintro (_ | ⟨first, _ | ⟨second, rest⟩⟩) request after heq
    · -- the write has its block read, which both units allow
      cases heq
      rintro ⟨addr, haddr, line, hline, -, c₁, unit, hevict, u, hu, -, arrived, u', hread⟩
      cases haddr
      have hvacant : line.residency = .vacant := vacant_empty _ _ _ line hline
      simp only [evict, hvacant] at hevict
      cases hevict
      have hserves : ∀ unit < 2, ∀ u ∈ stalling.store.units[unit]?, (answer? (StorageUnit.read
          (Span.part 6 4 4 unit).offset (Span.part 6 4 4 unit).length u)).isSome := by
        decide +kernel
      have hsome := hserves unit (Array.getElem?_eq_some_iff.mp hu).1 u hu
      rw [show StorageUnit.read (Span.part 6 4 4 unit).offset (Span.part 6 4 4 unit).length u =
        .error arrived u' from hread] at hsome
      cases hsome
    · cases heq
      rintro ⟨addr, haddr, -⟩
      cases haddr
    · simp at heq
  have hspec := attempts_flush_stores hnew hunits Array.size_replicate (vacant_empty _ _)
    [.write 4 ⟨#[1, 2, 3, 4]⟩, .flush] (by decide) hreads
  have hok : answer? (flush c) = some () := by decide +kernel
  obtain ⟨c', hflush⟩ := exists_of_answer? hok
  have hends : Ends _ _ (flush c) := hspec
  rw [hflush] at hends
  obtain ⟨hcontents, hsame, hagain, -⟩ := hends.of_ok
  refine ⟨by decide +kernel, by decide +kernel, c', hflush, ?_, hagain⟩
  rw [hsame 6 (by decide), hcontents]
  decide +kernel

end RiscvMachine.Cache
