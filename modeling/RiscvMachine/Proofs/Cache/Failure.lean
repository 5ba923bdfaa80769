import RiscvMachine.Proofs.Cache.Runs

set_option autoImplicit false

/-! # What failing units do to the cache

Units may fail whenever they like; a call that fails transfers nothing. Whatever fails, the cache
stays well-formed (`attempts_follows`), so the states that it can reach are among the well-formed
ones. An access that fails there leaves what the cache shows as it was, with one exception:
where the new block straddles two units and the second one fails, the bytes of the first one have
come into the line, and they show in the block that the line still counts as holding
(`failed_access_contents`). If that block is dirty, they are even written back later. A run in which
nothing is spoiled in this way leaves the cache coherent, whatever fails in it
(`attempts_coherent`).
-/

namespace RiscvMachine

/-! ## Units that fail -/

/-- A unit whose calls fail as listed, one entry for each call, and succeed after that. -/
structure Flaky (υ : Type) where
  unit : υ
  fails : List Bool

namespace Flaky

variable {υ : Type} [StorageUnit υ]

/-- Makes a call on the unit if it is not due to fail. -/
def call {ε α : Type} (failure : ε) (request : EStateM ε υ α) : EStateM ε (Flaky υ) α := fun u =>
  match u.fails with
  | true :: rest => .error failure ⟨u.unit, rest⟩
  | _ =>
    match request u.unit with
    | .ok answer unit => .ok answer ⟨unit, u.fails.tail⟩
    | .error failure unit => .error failure ⟨unit, u.fails.tail⟩

instance : StorageUnit (Flaky υ) where
  capacity u := StorageUnit.capacity u.unit
  read offset length := call ByteArray.empty (StorageUnit.read offset length)
  write offset data := call () (StorageUnit.write offset data)

omit [StorageUnit υ] in
/-- A call fails on its own, or comes to what it comes to on the unit. -/
theorem call_eq {ε α : Type} (failure : ε) (request : EStateM ε υ α) (u : Flaky υ) :
    call failure request u = .error failure ⟨u.unit, u.fails.tail⟩ ∨
    call failure request u =
      match request u.unit with
      | .ok answer unit => .ok answer ⟨unit, u.fails.tail⟩
      | .error failure unit => .error failure ⟨unit, u.fails.tail⟩ := by
  obtain ⟨unit, fails⟩ := u
  rcases fails with _ | ⟨due, rest⟩
  · exact .inr rfl
  · cases due with
    | true => exact .inl rfl
    | false => exact .inr rfl

omit [StorageUnit υ] in
/-- A call that succeeds has been made on the unit. -/
theorem call_ok {ε α : Type} {failure : ε} {request : EStateM ε υ α} {u u' : Flaky υ} {answer : α}
    (h : call failure request u = .ok answer u') : request u.unit = .ok answer u'.unit := by
  rcases call_eq failure request u with heq | heq <;> rw [heq] at h
  · cases h
  · cases hrequest : request u.unit with
    | ok answer unit =>
        rw [hrequest] at h
        cases h
        rfl
    | error failure unit =>
        rw [hrequest] at h
        cases h

omit [StorageUnit υ] in
/-- A call that fails has failed on the unit or left it alone. -/
theorem call_error {ε α : Type} {failure failure' : ε} {request : EStateM ε υ α}
    {u u' : Flaky υ} (h : call failure request u = .error failure' u') :
    request u.unit = .error failure' u'.unit ∨ (failure' = failure ∧ u'.unit = u.unit) := by
  rcases call_eq failure request u with heq | heq <;> rw [heq] at h
  · cases h
    exact .inr ⟨rfl, rfl⟩
  · cases hrequest : request u.unit with
    | ok answer unit =>
        rw [hrequest] at h
        cases h
    | error failure unit =>
        rw [hrequest] at h
        cases h
        exact .inl rfl

instance [LawfulUnit υ] : LawfulUnit (Flaky υ) where
  Sound u := LawfulUnit.Sound u.unit
  contents u := LawfulUnit.contents u.unit
  read_ok hsound hrange hread := LawfulUnit.read_ok hsound hrange (call_ok hread)
  read_error hsound hrange hread := by
    rcases call_error hread with hread | ⟨rfl, hunit⟩
    · exact LawfulUnit.read_error hsound hrange hread
    · rw [hunit]
      exact ⟨rfl, hsound, congrArg (fun unit : υ => StorageUnit.capacity unit) hunit, rfl⟩
  write_ok hsound hrange hwrite := LawfulUnit.write_ok hsound hrange (call_ok hwrite)
  write_error hsound hrange hwrite := by
    rcases call_error hwrite with hwrite | ⟨-, hunit⟩
    · exact LawfulUnit.write_error hsound hrange hwrite
    · rw [hunit]
      exact ⟨hsound, congrArg (fun unit : υ => StorageUnit.capacity unit) hunit, rfl⟩

end Flaky

/-! ## Runs with failures -/

namespace Cache

variable {υ : Type} [StorageUnit υ]

/-- The cache after a request, whether it succeeds or fails. -/
def attempt (c : Cache υ) (request : CacheRequest) : Cache υ :=
  match perform request c with
  | .ok _ c' => c'
  | .error _ c' => c'

/-- The cache after requests in order, whichever of them fail. -/
def attempts (c : Cache υ) (requests : List CacheRequest) : Cache υ :=
  requests.foldl attempt c

variable [LawfulUnit υ]

/-- The cache stays well-formed through a lookup. -/
theorem lookup_follows {c : Cache υ} (hc : c.WellFormed) {addr : UInt32}
    {length : Nat} (hrange : c.geometry.Admits c.store.size addr length) :
    Ends (fun _ c' => c.Follows c') (fun _ c' => c.Follows c') (lookup addr length c) := by
  cases hresult : lookup addr length c with
  | ok start c' => exact .ok (lookup_ok hc hrange hresult).toFollows
  | error error c' =>
      obtain ⟨line, hline⟩ := hc.exists_line (c.geometry.block addr).toNat
      rw [(fits_of_le hc (admits_within hc hrange).2).index] at hline
      obtain ⟨-, unit, n, -, -, -, -, hfails⟩ := lookup_error hc hrange hline hresult
      exact .error hfails.toFollows

/-- The cache stays well-formed, whatever comes of a request. -/
theorem attempt_follows {c : Cache υ} (hc : c.WellFormed) {request : CacheRequest}
    (hrange : request.InRange c.geometry c.store.size) : c.Follows (c.attempt request) := by
  unfold attempt
  cases request with
  | read addr length =>
      simp only [perform, bind, EStateM.bind]
      cases hresult : read addr length c with
      | ok bytes c' => exact (read_ok hc hrange hresult).1
      | error error c' =>
          have hlookup := lookup_follows hc hrange
          rw [lookup_error_of_read hc hrange hresult] at hlookup
          exact hlookup.of_error
  | write addr data =>
      simp only [perform, bind, EStateM.bind]
      cases hresult : write addr data c with
      | ok _ c' => exact (write_ok hc hrange hresult).1
      | error error c' =>
          have hlookup := lookup_follows hc hrange
          rw [lookup_error_of_write hc hrange hresult] at hlookup
          exact hlookup.of_error
  | flush =>
      have hspec := flush_spec hc
      simp only [perform, bind, EStateM.bind]
      revert hspec
      cases flush c with
      | ok _ c' =>
          intro hspec
          exact hspec.of_ok.toFollows
      | error error c' =>
          intro hspec
          exact hspec.of_error.1.toFollows
  | invalidate => exact (invalidate_spec hc).1
  | resetCounters => exact (keeps_resetCounters hc).toFollows

/-- The cache stays well-formed through any run. -/
theorem attempts_follows {c : Cache υ} (hc : c.WellFormed) (requests : List CacheRequest)
    (hrange : ∀ request ∈ requests, request.InRange c.geometry c.store.size) :
    c.Follows (c.attempts requests) := by
  induction requests generalizing c with
  | nil => exact .refl hc
  | cons request rest ih =>
      have hfirst := attempt_follows hc (hrange request List.mem_cons_self)
      refine hfirst.trans (ih hfirst.wellFormed ?_)
      intro r hr
      rw [hfirst.geometry, hfirst.size]
      exact hrange r (List.mem_cons_of_mem request hr)

/-- A request that is an access fails as the lookup of its address does. -/
theorem lookup_error_of_perform {c c' : Cache υ} (hc : c.WellFormed) {request : CacheRequest}
    {addr : UInt32} {error : StorageError} (haddr : request.addr? = some addr)
    (hrange : request.InRange c.geometry c.store.size)
    (h : perform request c = .error error c') :
    ∃ length, c.geometry.Admits c.store.size addr length ∧
      lookup addr length c = .error error c' := by
  cases request with
  | read addr length =>
      cases haddr
      have hread := error_of_bind (fun bytes c => ⟨some bytes, c, rfl⟩) h
      exact ⟨length, hrange, lookup_error_of_read hc hrange hread⟩
  | write addr data =>
      cases haddr
      have hwrite := error_of_bind (fun _ c => ⟨none, c, rfl⟩) h
      exact ⟨data.size, hrange, lookup_error_of_write hc hrange hwrite⟩
  | flush => cases haddr
  | invalidate => cases haddr
  | resetCounters => cases haddr

/-! ## One access that fails -/

/-- The addresses that a failing access to `addr` fills with bytes of the new block: they lie in
the block that its line holds, at the positions of the bytes that had arrived when the store
failed at the given unit. -/
def Spoils (c : Cache υ) (addr : UInt32) (unit a : Nat) : Prop :=
  let index := c.geometry.index (c.geometry.block addr)
  ∃ line ∈ c.lines[index]?, line.Holds (a / c.geometry.lineSize.toNat) ∧
    a % c.geometry.lineSize.toNat < c.arrivals index line (c.geometry.block addr) unit

instance (c : Cache υ) (addr : UInt32) (unit a : Nat) : Decidable (c.Spoils addr unit a) :=
  inferInstanceAs (Decidable (∃ line ∈ _, _))

omit [LawfulUnit υ] in
/-- Bytes have arrived only if the line could be evicted. -/
theorem arrivals_eq {c : Cache υ} {index : Nat} {line : Line} {block : UInt32} {unit : Nat}
    (h : 0 < c.arrivals index line block unit) :
    c.arrivals index line block unit
      = unit * c.store.unitCapacity.toNat - block.toNat * c.geometry.lineSize.toNat := by
  unfold arrivals at h ⊢
  cases hevict : evict index line c with
  | ok _ c₁ => rfl
  | error error c₁ =>
      rw [hevict] at h
      exact absurd h (Nat.lt_irrefl 0)

/-- The block of `addr` starts in front of the unit and reaches into it. -/
def Straddles (g : CacheGeometry) (unitCapacity : Nat) (addr : UInt32) (unit : Nat) : Prop :=
  addr.toNat / g.lineSize.toNat * g.lineSize.toNat < unit * unitCapacity ∧
    unit * unitCapacity < addr.toNat / g.lineSize.toNat * g.lineSize.toNat + g.lineSize.toNat

/-- A lookup that fails in a well-formed cache. -/
theorem lookup_error_spoils {c c' : Cache υ} (hc : c.WellFormed) {addr : UInt32}
    {length : Nat} (hrange : c.geometry.Admits c.store.size addr length) {error : StorageError}
    (h : lookup addr length c = .error error c') :
    ∃ unit, error = .io unit ∧ c.Follows c' ∧
      (∀ a, c.Spoils addr unit a → c'.contents a =
        c.store.contents (addr.toNat / c.geometry.lineSize.toNat * c.geometry.lineSize.toNat
          + a % c.geometry.lineSize.toNat)) ∧
      (∀ a, ¬ c.Spoils addr unit a → c'.contents a = c.contents a) ∧
      (c.Coherent → (∀ a < c.store.size, c'.contents a = c.contents a) → c'.Coherent) ∧
      (∀ a, c.Spoils addr unit a →
        Straddles c.geometry c.store.unitCapacity.toNat addr unit) := by
  have hfits := fits_of_le hc (admits_within hc hrange).2
  obtain ⟨line, hline⟩ := hc.exists_line (c.geometry.block addr).toNat
  rw [hfits.index] at hline
  obtain ⟨-, unit, n, herror, -, hn, hextent, hfails⟩ := lookup_error hc hrange hline h
  -- the spoiled addresses, told by the line that stands in the place
  have hspoils (a : Nat) : c.Spoils addr unit a ↔
      line.Holds (a / c.geometry.lineSize.toNat) ∧ a % c.geometry.lineSize.toNat < n := by
    constructor
    · rintro ⟨line', hline', hholds, hlt⟩
      rw [Option.mem_def, hline, Option.some_inj] at hline'
      subst hline'
      exact ⟨hholds, hn ▸ hlt⟩
    · rintro ⟨hholds, hlt⟩
      exact ⟨line, hline, hholds, hn ▸ hlt⟩
  refine ⟨unit, herror, hfails.toFollows, ?_, ?_, hfails.coherent, ?_⟩
  · intro a ha
    rw [hfails.contents, if_pos ((hspoils a).mp ha)]
  · intro a ha
    rw [hfails.contents, if_neg fun h => ha ((hspoils a).mpr h)]
  · intro a ha
    have hpos : 0 < n := by
      have := ((hspoils a).mp ha).2
      omega
    have hlt := hextent hpos
    have hle := hc.extentOf_eq hfits.range
    have hstart := arrivals_eq (hn ▸ hpos)
    rw [← hn] at hstart
    rw [CacheGeometry.block_toNat hc.geometry] at hle hstart
    unfold Straddles
    omega

/-- An access that fails in a state that the cache can reach changes what the cache shows at the
spoiled addresses and nowhere else, and there it shows the bytes of the new block. So nothing is
lost if and only if these were the same bytes, and then reads go on to answer what they would
have. Nothing is spoiled unless the new block straddles the start of the failing unit. -/
theorem failed_access_contents {geometry : CacheGeometry} {store : Store υ}
    (hgeometry : geometry.Valid) (hstore : store.UnitsSound) (before : List CacheRequest)
    (hbefore : ∀ request ∈ before, request.Within geometry store.capacity)
    {request : CacheRequest} {addr : UInt32} (haddr : request.addr? = some addr)
    (hrange : request.Within geometry store.capacity) {c c' : Cache υ}
    (hc : c = (empty geometry store).attempts before) {error : StorageError}
    (herror : perform request c = .error error c') :
    ∃ unit, error = .io unit ∧
      (∀ a, c.Spoils addr unit a → c'.contents a =
        c.store.contents (addr.toNat / geometry.lineSize.toNat * geometry.lineSize.toNat
          + a % geometry.lineSize.toNat)) ∧
      (∀ a, ¬ c.Spoils addr unit a → c'.contents a = c.contents a) ∧
      ((∀ a < store.size, c'.contents a = c.contents a) ↔
        ∀ a < store.size, c.Spoils addr unit a → c.contents a =
          c.store.contents (addr.toNat / geometry.lineSize.toNat * geometry.lineSize.toNat
            + a % geometry.lineSize.toNat)) ∧
      ((∀ a < store.size, c'.contents a = c.contents a) → ∀ m, c.Shows m → c'.Shows m) ∧
      (∀ a, c.Spoils addr unit a → Straddles geometry store.unitCapacity.toNat addr unit) := by
  -- a store that tells its size is one that can be counted
  have hsize : store.size < 2 ^ 64 := by
    by_contra hlarge
    have hnone := CacheRequest.addr?_of_within (Nat.le_of_not_lt hlarge) hrange
    rw [haddr] at hnone
    cases hnone
  have hempty := (empty_spec hgeometry ⟨hstore, hsize⟩).1.toWellFormed
  have hfollows : (empty geometry store).Follows c := hc ▸ attempts_follows hempty before
    fun request h => CacheRequest.inRange_of_within hsize (hbefore request h)
  have hwellFormed := hfollows.wellFormed
  have hgeometry' : c.geometry = geometry := hfollows.geometry
  have hcapacity : c.store.size = store.size := hfollows.size
  have hunits : c.store.unitCapacity = store.unitCapacity := hfollows.store.unitCapacity
  replace hrange := CacheRequest.inRange_of_within hsize hrange
  rw [← hcapacity, ← hgeometry'] at hrange
  obtain ⟨length, hadmits, hlookup⟩ := lookup_error_of_perform hwellFormed haddr hrange herror
  obtain ⟨unit, herror', hfollows', hspoiled, hkept, hcoherent, hstraddles⟩ :=
    lookup_error_spoils hwellFormed hadmits hlookup
  rw [hgeometry'] at hspoiled hstraddles
  rw [hunits] at hstraddles
  rw [hcapacity] at hcoherent
  refine ⟨unit, herror', hspoiled, hkept, ⟨?_, ?_⟩, ?_, hstraddles⟩
  · intro hsame a ha hspoils
    rw [← hsame a ha, hspoiled a hspoils]
  · intro hsame a ha
    -- a spoiled byte is not lost if the new block has the same byte there
    by_cases hspoils : c.Spoils addr unit a
    · rw [hspoiled a hspoils, hsame a ha hspoils]
    · exact hkept a hspoils
  · intro hsame m hm
    refine ⟨hcoherent hm.coherent hsame, ?_⟩
    intro a ha
    rw [hfollows'.size] at ha
    rw [hsame a (hcapacity ▸ ha), hm.contents a ha]

/-- One line of four bytes over two units of six, the second of which fails once. The byte written
to address 0 is lost when the block from 4 on cannot be filled. -/
theorem failed_access_contents_straddling :
    let c : Cache (Flaky Medium) :=
      (empty ⟨4, 1⟩ ⟨#[⟨.memory 6, []⟩, ⟨.memory 6, [true]⟩], 6, 0, 0⟩).attempts
        [.write 0 ⟨#[1, 2, 3, 4]⟩]
    ∃ c', perform (.read 4 1) c = .error (.io 1) c' ∧ c.contents 0 = 1 ∧ c'.contents 0 = 0 := by
  intro c
  have hvalid : CacheGeometry.Valid ⟨4, 1⟩ :=
    ⟨⟨2, rfl⟩, by decide, by decide, ⟨0, rfl⟩, by decide⟩
  have hsound : (⟨#[⟨.memory 6, []⟩, ⟨.memory 6, [true]⟩], 6, 0, 0⟩ :
      Store (Flaky Medium)).UnitsSound :=
    Store.unitsSound_pair ⟨Medium.memory_intact 6, rfl⟩ ⟨Medium.memory_intact 6, rfl⟩
  have hfails : (match perform (.read 4 1) c with
      | .ok _ _ => false
      | .error error _ => error = .io 1) = true := by decide +kernel
  cases hresult : perform (.read 4 1) c with
  | ok answer c' =>
      rw [hresult] at hfails
      cases hfails
  | error error c' =>
      rw [hresult] at hfails
      obtain rfl : error = .io 1 := of_decide_eq_true hfails
      obtain ⟨unit, hunit, hspoiled, -⟩ := failed_access_contents hvalid hsound
        [.write 0 ⟨#[1, 2, 3, 4]⟩] (by decide)
        (show CacheRequest.addr? (.read 4 1) = some 4 from rfl) (by decide) rfl hresult
      cases hunit
      refine ⟨c', rfl, by decide +kernel, ?_⟩
      rw [hspoiled 0 (by decide +kernel)]
      decide +kernel

/-! ## Runs that spoil nothing -/

/-- No request of the run fails in such a way that the cache shows something else afterwards. -/
def Unspoiled : Cache υ → List CacheRequest → Prop
  | _, [] => True
  | c, request :: rest =>
    (answer? (perform request c) = none →
      ∀ a < c.store.size, (c.attempt request).contents a = c.contents a) ∧
    Unspoiled (c.attempt request) rest

instance decidableUnspoiled : (c : Cache υ) → (requests : List CacheRequest) →
    Decidable (c.Unspoiled requests)
  | _, [] => .isTrue trivial
  | c, request :: rest =>
    have := Nat.decidableBallLT c.store.size fun a _ =>
      (c.attempt request).contents a = c.contents a
    have := decidableUnspoiled (c.attempt request) rest
    inferInstanceAs (Decidable ((_ → _) ∧ _))

theorem attempt_coherent {c : Cache υ} (hc : c.Coherent) {request : CacheRequest}
    (hrange : request.InRange c.geometry c.store.size)
    (hkept : answer? (perform request c) = none →
      ∀ a < c.store.size, (c.attempt request).contents a = c.contents a) :
    (c.attempt request).Coherent := by
  have hwellFormed := hc.toWellFormed
  by_cases hempties : request = .invalidate
  · subst hempties
    exact (invalidate_spec hwellFormed).2.1
  have hspec := perform_spec ⟨hc, fun _ _ => rfl⟩ hrange hempties
  unfold attempt at hkept ⊢
  cases hresult : perform request c with
  | ok answer c' =>
      rw [hresult] at hspec
      exact hspec.2.2.coherent
  | error error c' =>
      rw [hresult] at hkept
      cases haddr : request.addr? with
      -- an access that failed is harmless unless it has shown something else
      | some addr =>
          obtain ⟨length, hadmits, hlookup⟩ :=
            lookup_error_of_perform hwellFormed haddr hrange hresult
          obtain ⟨unit, -, -, -, -, hcoherent, -⟩ :=
            lookup_error_spoils hwellFormed hadmits hlookup
          exact hcoherent hc (hkept rfl)
      | none =>
          cases request with
          | read addr length => cases haddr
          | write addr data => cases haddr
          | invalidate => exact absurd rfl hempties
          | resetCounters => cases hresult
          -- a flush does not change a byte of what is shown, even if it ends half way
          | flush =>
              have hflush := flush_spec hwellFormed
              rw [error_of_bind (fun _ c => ⟨none, c, rfl⟩) hresult] at hflush
              exact hflush.of_error.1.coherent hc

/-- The cache stays coherent through a run that spoils nothing. -/
theorem attempts_coherent {c : Cache υ} (hc : c.Coherent) {requests : List CacheRequest}
    (hrange : ∀ request ∈ requests, request.InRange c.geometry c.store.size)
    (hunspoiled : c.Unspoiled requests) : (c.attempts requests).Coherent := by
  induction requests generalizing c with
  | nil => exact hc
  | cons request rest ih =>
      have hfirst := hrange request List.mem_cons_self
      have hfollows := attempt_follows hc.toWellFormed hfirst
      refine ih (attempt_coherent hc hfirst hunspoiled.1) (fun r hr => ?_) hunspoiled.2
      rw [hfollows.geometry, hfollows.size]
      exact hrange r (List.mem_cons_of_mem request hr)

end Cache

end RiscvMachine
