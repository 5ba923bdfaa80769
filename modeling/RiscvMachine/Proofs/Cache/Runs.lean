import RiscvMachine.Proofs.Cache.Making

set_option autoImplicit false

/-! # Runs of the cache

A run performs requests one after the other (`Cache.performAll`). What a request should answer
and do is said by a flat memory (`CacheRequest.answer`, `CacheRequest.effect`), and a request to
a coherent cache that shows that memory does just that (`perform_spec`). By induction over the
requests the cache is a flat memory over whole runs (`performAll_shows`), and so a read answers
what was written last (`performAll_answers_lastWritten`).
-/

namespace RiscvMachine

inductive CacheRequest
  | read (addr : UInt32) (length : Nat)
  | write (addr : UInt32) (data : ByteArray)
  | flush
  | invalidate
  | resetCounters

namespace CacheRequest

/-- An access touches a range in one block and within the store. -/
def InRange (g : CacheGeometry) (capacity : Nat) : CacheRequest → Prop
  | .read addr length => g.Admits capacity addr length
  | .write addr data => g.Admits capacity addr data.size
  | _ => True

instance (g : CacheGeometry) (capacity : Nat) : DecidablePred (InRange g capacity)
  | .read addr length => inferInstanceAs (Decidable (g.Admits capacity addr length))
  | .write addr data => inferInstanceAs (Decidable (g.Admits capacity addr data.size))
  | .flush => .isTrue trivial
  | .invalidate => .isTrue trivial
  | .resetCounters => .isTrue trivial

def addr? : CacheRequest → Option UInt32
  | .read addr _ => some addr
  | .write addr _ => some addr
  | _ => none

/-- The request is in range of the capacity that a store tells. No access is in range of a store
that tells none. -/
def Within (g : CacheGeometry) (request : CacheRequest) : Except Panic UInt64 → Prop
  | .ok capacity => request.InRange g capacity.toNat
  | .error _ => request.addr? = none

instance (g : CacheGeometry) (request : CacheRequest) : DecidablePred (Within g request)
  | .ok capacity => inferInstanceAs (Decidable (request.InRange g capacity.toNat))
  | .error _ => inferInstanceAs (Decidable (request.addr? = none))

theorem inRange_of_within {υ : Type} {g : CacheGeometry} {s : Store υ} {request : CacheRequest}
    (hsize : s.size < 2 ^ 64) (h : request.Within g s.capacity) : request.InRange g s.size := by
  rw [Store.capacity_eq hsize] at h
  rw [← Store.toNat_size hsize]
  exact h

theorem addr?_of_within {υ : Type} {g : CacheGeometry} {s : Store υ} {request : CacheRequest}
    (hsize : 2 ^ 64 ≤ s.size) (h : request.Within g s.capacity) : request.addr? = none := by
  rw [Store.capacity_eq_error hsize] at h
  exact h

/-- What a flat memory answers. Only reads have an answer. -/
def answer (m : Memory) : CacheRequest → Option ByteArray
  | .read addr length => some (m.read addr.toNat length)
  | _ => none

/-- What becomes of a flat memory. -/
def effect (m : Memory) : CacheRequest → Memory
  | .write addr data => m.write addr.toNat data
  | _ => m

def answers (m : Memory) : List CacheRequest → List (Option ByteArray)
  | [] => []
  | request :: rest => request.answer m :: answers (request.effect m) rest

/-- The byte that a request writes to an address, if it does. -/
def byteWritten? (a : Nat) : CacheRequest → Option UInt8
  | .write addr data =>
    if addr.toNat ≤ a ∧ a < addr.toNat + data.size then
      some (Bytes.byteAt data (a - addr.toNat))
    else none
  | _ => none

/-- The byte written to an address last, if any was. -/
def lastWritten (requests : List CacheRequest) (a : Nat) : Option UInt8 :=
  requests.reverse.findSome? (byteWritten? a)

theorem effect_apply (m : Memory) (request : CacheRequest) (a : Nat) :
    request.effect m a = (request.byteWritten? a).getD (m a) := by
  cases request with
  | write addr data =>
      simp only [effect, byteWritten?, Memory.write]
      split <;> rfl
  | _ => rfl

@[simp] theorem length_answers (m : Memory) (requests : List CacheRequest) :
    (answers m requests).length = requests.length := by
  induction requests generalizing m with
  | nil => rfl
  | cons request rest ih => rw [answers, List.length_cons, List.length_cons, ih]

/-- Each request is answered from what those before it left. -/
theorem getElem?_answers (m : Memory) (requests : List CacheRequest) (i : Nat) :
    (answers m requests)[i]? =
      requests[i]?.map (answer ((requests.take i).foldl effect m)) := by
  induction requests generalizing m i with
  | nil => rfl
  | cons request rest ih =>
      cases i with
      | zero => rfl
      | succ i =>
          rw [answers, List.getElem?_cons_succ, ih, List.getElem?_cons_succ, List.take_succ_cons,
            List.foldl_cons]

/-- Performing requests on a flat memory leaves the byte written last at each address. -/
theorem foldl_effect (requests : List CacheRequest) (m : Memory) (a : Nat) :
    requests.foldl effect m a = (lastWritten requests a).getD (m a) := by
  induction requests generalizing m with
  | nil => rfl
  | cons request rest ih =>
      rw [List.foldl_cons, ih, effect_apply]
      simp only [lastWritten, List.reverse_cons, List.findSome?_append]
      cases rest.reverse.findSome? (byteWritten? a) with
      | some byte => rfl
      | none => cases h : request.byteWritten? a <;> simp [h]

end CacheRequest

namespace Cache

variable {υ : Type} [StorageUnit υ]

def perform : CacheRequest → EStateM StorageError (Cache υ) (Option ByteArray)
  | .read addr length => do return some (← read addr length)
  | .write addr data => do
    write addr data
    return none
  | .flush => do
    flush
    return none
  | .invalidate => do
    modify invalidate
    return none
  | .resetCounters => do
    modify resetCounters
    return none

/-- Performs requests in order, up to the first that fails. -/
def performAll : List CacheRequest → EStateM StorageError (Cache υ) (List (Option ByteArray))
  | [] => pure []
  | request :: rest => do
    let answer ← perform request
    let answers ← performAll rest
    return answer :: answers

theorem performAll_cons (request : CacheRequest) (rest : List CacheRequest) (c : Cache υ) :
    performAll (request :: rest) c =
      match perform request c with
      | .ok answer c₁ =>
        match performAll rest c₁ with
        | .ok answers c₂ => .ok (answer :: answers) c₂
        | .error error c₂ => .error error c₂
      | .error error c₁ => .error error c₁ := by
  simp only [performAll, bind, EStateM.bind]
  cases perform request c with
  | error error c₁ => rfl
  | ok answer c₁ =>
      simp only
      cases performAll rest c₁ <;> rfl

variable [LawfulUnit υ]

/-- The cache is coherent and shows the given memory, up to the capacity of the store. -/
structure Shows (c : Cache υ) (m : Memory) : Prop where
  coherent : c.Coherent
  contents : ∀ a < c.store.size, c.contents a = m a

theorem empty_shows {geometry : CacheGeometry} {store : Store υ} (hgeometry : geometry.Valid)
    (hstore : store.Sound) : (empty geometry store).Shows store.contents :=
  ⟨(empty_spec hgeometry hstore).1, fun a _ => by rw [(empty_spec hgeometry hstore).2]⟩

/-- A cache that keeps what it shows. -/
theorem Shows.of_keeps {c c' : Cache υ} {m : Memory} (h : c.Shows m) (hkeeps : c.Keeps c') :
    c'.Shows m := by
  refine ⟨hkeeps.coherent h.coherent, ?_⟩
  intro a ha
  rw [hkeeps.contents]
  exact h.contents a (by rwa [← hkeeps.toFollows.size])

/-! ## One request -/

/-- What may come of a request to a cache that shows `m`: its answer and its effect, or an error
of a unit. -/
def Performs (c : Cache υ) (m : Memory) (request : CacheRequest) :
    EStateM.Result StorageError (Cache υ) (Option ByteArray) → Prop
  | .ok answer c' => answer = request.answer m ∧ c.Follows c' ∧ c'.Shows (request.effect m)
  | .error _ _ => LawfulUnit.WriteFails υ ∨ LawfulUnit.ReadFails υ

section

variable {c : Cache υ} {m : Memory} {addr : UInt32}

/-- A read answers the bytes that the cache shows, and keeps them. -/
theorem Shows.performs_read (hc : c.Shows m) {length : Nat}
    (hadmits : c.geometry.Admits c.store.size addr length) :
    c.Performs m (.read addr length) (perform (.read addr length) c) := by
  have hwellFormed := hc.coherent.toWellFormed
  have hstore := hadmits.store
  simp only [perform, bind, EStateM.bind]
  cases hresult : read addr length c with
  | ok bytes c' =>
      obtain ⟨hfollows, hread⟩ := read_ok hwellFormed hadmits hresult
      obtain ⟨hbytes, hcoherent, hcontents⟩ := hread hc.coherent
      have hanswer : bytes = m.read addr.toNat length := by
        rw [hbytes]
        apply Memory.read_congr
        intro i hi
        exact hc.contents _ (by omega)
      refine ⟨congrArg some hanswer, hfollows, hcoherent, ?_⟩
      intro a ha
      rw [hfollows.size] at ha
      rw [hcontents a ha]
      exact hc.contents a ha
  | error error c' =>
      exact unit_fails_of_lookup hwellFormed hadmits
        (lookup_error_of_read hwellFormed hadmits hresult)

/-- A write puts its bytes over those that the cache shows. -/
theorem Shows.performs_write (hc : c.Shows m) {data : ByteArray}
    (hadmits : c.geometry.Admits c.store.size addr data.size) :
    c.Performs m (.write addr data) (perform (.write addr data) c) := by
  have hwellFormed := hc.coherent.toWellFormed
  have hstore := hadmits.store
  simp only [perform, bind, EStateM.bind]
  cases hresult : write addr data c with
  | ok _ c' =>
      obtain ⟨hfollows, hwrite⟩ := write_ok hwellFormed hadmits hresult
      obtain ⟨hcoherent, hcontents⟩ := hwrite hc.coherent
      refine ⟨rfl, hfollows, hcoherent, ?_⟩
      intro a ha
      rw [hfollows.size] at ha
      rw [hcontents a ha, CacheRequest.effect, Memory.write, Memory.write, hc.contents a ha]
  | error error c' =>
      exact unit_fails_of_lookup hwellFormed hadmits
        (lookup_error_of_write hwellFormed hadmits hresult)

/-- A request to a coherent cache does what it does to the memory that the cache shows. -/
theorem perform_spec (hc : c.Shows m) {request : CacheRequest}
    (hrange : request.InRange c.geometry c.store.size) (hkeep : request ≠ .invalidate) :
    c.Performs m request (perform request c) := by
  have hwellFormed := hc.coherent.toWellFormed
  cases request with
  | read addr length => exact hc.performs_read hrange
  | write addr data => exact hc.performs_write hrange
  | flush =>
      have hspec := flush_spec hwellFormed
      simp only [perform, bind, EStateM.bind]
      revert hspec
      cases flush c with
      | ok _ c' =>
          intro hspec
          have hkeeps := hspec.of_ok
          exact ⟨rfl, hkeeps.toFollows, hc.of_keeps hkeeps⟩
      | error error c' =>
          intro hspec
          exact .inl hspec.of_error.2.2
  | invalidate => exact absurd rfl hkeep
  | resetCounters =>
      have hkeeps := keeps_resetCounters hwellFormed
      exact ⟨rfl, hkeeps.toFollows, hc.of_keeps hkeeps⟩

end

/-! ## Whole runs -/

omit [LawfulUnit υ] in
/-- A request that is no access finds nothing to do where no line holds a block. -/
theorem perform_of_vacant {c : Cache υ} (hc : c.Vacant) {request : CacheRequest}
    (hnone : request.addr? = none) :
    ∃ c', perform request c = .ok none c' ∧ c'.Vacant ∧ c'.geometry = c.geometry ∧
      c'.store = c.store := by
  cases request with
  | read addr length => cases hnone
  | write addr data => cases hnone
  | flush =>
      refine ⟨c, ?_, hc, rfl, rfl⟩
      simp only [perform, bind, EStateM.bind, flush_of_vacant hc]
      rfl
  | invalidate => exact ⟨c.invalidate, rfl, c.vacant_invalidate, rfl, rfl⟩
  | resetCounters => exact ⟨c.resetCounters, rfl, hc, rfl, rfl⟩

omit [LawfulUnit υ] in
theorem performAll_of_vacant {c : Cache υ} (hc : c.Vacant) (requests : List CacheRequest)
    (hnone : ∀ request ∈ requests, request.addr? = none) :
    ∃ answers c', performAll requests c = .ok answers c' ∧ answers.length = requests.length := by
  induction requests generalizing c with
  | nil => exact ⟨[], c, rfl, rfl⟩
  | cons request rest ih =>
      obtain ⟨c₁, hfirst, hc₁, -, -⟩ := perform_of_vacant hc (hnone request List.mem_cons_self)
      obtain ⟨answers, c', hrest, hlength⟩ :=
        ih hc₁ fun r hr => hnone r (List.mem_cons_of_mem request hr)
      refine ⟨none :: answers, c', ?_, congrArg Nat.succ hlength⟩
      rw [performAll_cons, hfirst]
      simp only [hrest]

section

variable {υ : Type} [StorageUnit υ] [ReliableUnit υ]

/-- Over reliable units a run succeeds and answers as the memory does that the cache shows. -/
theorem performAll_shows {c : Cache υ} {m : Memory} (hc : c.Shows m)
    (requests : List CacheRequest)
    (hrange : ∀ request ∈ requests, request.InRange c.geometry c.store.size)
    (hkeep : CacheRequest.invalidate ∉ requests) :
    ∃ c', performAll requests c = .ok (CacheRequest.answers m requests) c' ∧
      c.Follows c' ∧ c'.Shows (requests.foldl CacheRequest.effect m) := by
  induction requests generalizing c m with
  | nil => exact ⟨c, rfl, .refl hc.coherent.toWellFormed, hc⟩
  | cons request rest ih =>
      have hfirst := perform_spec hc (hrange request List.mem_cons_self)
        (fun h => hkeep (h ▸ List.mem_cons_self))
      rw [performAll_cons]
      revert hfirst
      cases perform request c with
      | error error c₁ =>
          rintro (hfails | hfails)
          · exact absurd hfails (ReliableUnit.not_writeFails υ)
          · exact absurd hfails (ReliableUnit.not_readFails υ)
      | ok answer c₁ =>
          rintro ⟨rfl, hfollows, hshows⟩
          -- geometry and capacity stay as they are, so the other requests are still in range
          have hrange' : ∀ r ∈ rest, r.InRange c₁.geometry c₁.store.size := by
            intro r hr
            rw [hfollows.geometry, hfollows.size]
            exact hrange r (List.mem_cons_of_mem request hr)
          obtain ⟨c', hrun, hfollows', hshows'⟩ :=
            ih hshows hrange' fun h => hkeep (List.mem_cons_of_mem request h)
          refine ⟨c', ?_, hfollows.trans hfollows', hshows'⟩
          simp only [hrun, CacheRequest.answers]

/-- Over reliable units a request to a coherent cache succeeds, also one that empties it. -/
theorem perform_succeeds {c : Cache υ} (hc : c.Coherent) {request : CacheRequest}
    (hrange : request.InRange c.geometry c.store.size) :
    ∃ answer c', perform request c = .ok answer c' ∧ c.Follows c' ∧ c'.Coherent := by
  have hwellFormed := hc.toWellFormed
  cases request with
  | read addr length =>
      obtain ⟨c', hread, hfollows, hcoherent, -⟩ := read_succeeds hc hrange
      exact ⟨_, c', by simp only [perform, bind, EStateM.bind, hread]; rfl, hfollows, hcoherent⟩
  | write addr data =>
      obtain ⟨c', hwrite, hfollows, hcoherent, -⟩ := write_succeeds hc hrange
      exact ⟨_, c', by simp only [perform, bind, EStateM.bind, hwrite]; rfl, hfollows, hcoherent⟩
  | flush =>
      obtain ⟨c', hflush, hkeeps⟩ := flush_succeeds hwellFormed
      exact ⟨_, c', by simp only [perform, bind, EStateM.bind, hflush]; rfl, hkeeps.toFollows,
        hkeeps.coherent hc⟩
  | invalidate =>
      obtain ⟨hfollows, hcoherent, -⟩ := invalidate_spec hwellFormed
      exact ⟨none, c.invalidate, rfl, hfollows, hcoherent⟩
  | resetCounters =>
      have hkeeps := keeps_resetCounters hwellFormed
      exact ⟨none, c.resetCounters, rfl, hkeeps.toFollows, hkeeps.coherent hc⟩

theorem performAll_succeeds {c : Cache υ} (hc : c.Coherent) (requests : List CacheRequest)
    (hrange : ∀ request ∈ requests, request.InRange c.geometry c.store.size) :
    ∃ answers c', performAll requests c = .ok answers c' := by
  induction requests generalizing c with
  | nil => exact ⟨[], c, rfl⟩
  | cons request rest ih =>
      obtain ⟨answer, c₁, hfirst, hfollows, hcoherent⟩ :=
        perform_succeeds hc (hrange request List.mem_cons_self)
      obtain ⟨answers, c', hrest⟩ := ih hcoherent fun r hr => by
        rw [hfollows.geometry, hfollows.size]
        exact hrange r (List.mem_cons_of_mem request hr)
      refine ⟨answer :: answers, c', ?_⟩
      rw [performAll_cons, hfirst]
      simp only [hrest]

/-- Over reliable units, whatever their number and capacity, and in any valid geometry, a run of
an empty cache succeeds, and every read answers at each address the byte written last, or the
store's byte if none has been. -/
theorem performAll_answers_lastWritten {geometry : CacheGeometry} {store : Store υ}
    (hgeometry : geometry.Valid) (hstore : store.UnitsSound) (requests : List CacheRequest)
    (hrange : ∀ request ∈ requests, request.Within geometry store.capacity)
    (hkeep : CacheRequest.invalidate ∉ requests) :
    ∃ answers c', performAll requests (empty geometry store) = .ok answers c' ∧
      answers.length = requests.length ∧
      ∀ (i : Nat) (addr : UInt32) (length : Nat), requests[i]? = some (.read addr length) →
        ∃ bytes, answers[i]? = some (some bytes) ∧ bytes.size = length ∧
          ∀ j < length, Bytes.byteAt bytes j =
            (CacheRequest.lastWritten (requests.take i) (addr.toNat + j)).getD
              (store.contents (addr.toNat + j)) := by
  rcases Nat.lt_or_ge store.size (2 ^ 64) with hsize | hsize
  · obtain ⟨c', hrun, -, -⟩ := performAll_shows (empty_shows hgeometry ⟨hstore, hsize⟩) requests
      (fun request h => CacheRequest.inRange_of_within hsize (hrange request h)) hkeep
    refine ⟨_, c', hrun, CacheRequest.length_answers _ _, ?_⟩
    intro i addr length hi
    rw [CacheRequest.getElem?_answers, hi, Option.map_some, CacheRequest.answer]
    refine ⟨_, rfl, Memory.size_read _ _ _, ?_⟩
    intro j hj
    rw [Memory.byteAt_read _ _ hj, CacheRequest.foldl_effect]
  · -- no access is in range of such a store, and the others find nothing to do
    have hnone := fun request h => CacheRequest.addr?_of_within hsize (hrange request h)
    obtain ⟨answers, c', hrun, hlength⟩ :=
      performAll_of_vacant (vacant_empty geometry store) requests hnone
    refine ⟨answers, c', hrun, hlength, ?_⟩
    intro i addr length hi
    have := hnone _ (List.mem_of_getElem? hi)
    cases this

/-- Two units of six bytes under two lines of four: the block from 4 on straddles the units, and
the one from 8 on takes the line of block 0. -/
theorem performAll_answers_lastWritten_straddling :
    ∃ answers c', performAll
        [.write 4 ⟨#[1, 2, 3, 4]⟩, .write 0 ⟨#[9]⟩, .read 8 4, .flush, .read 5 2, .read 0 2]
        (empty ⟨4, 2⟩ ⟨#[Medium.memory 6, Medium.memory 6], 6, 0, 0⟩) = .ok answers c' ∧
      ∃ bytes, answers[4]? = some (some bytes) ∧ bytes.size = 2 ∧
        Bytes.byteAt bytes 0 = 2 ∧ Bytes.byteAt bytes 1 = 3 := by
  have hvalid : CacheGeometry.Valid ⟨4, 2⟩ :=
    ⟨⟨2, rfl⟩, by decide, by decide, ⟨1, rfl⟩, by decide⟩
  have hsound : Store.UnitsSound ⟨#[Medium.memory 6, Medium.memory 6], 6, 0, 0⟩ :=
    Store.unitsSound_pair ⟨Medium.memory_intact 6, rfl⟩ ⟨Medium.memory_intact 6, rfl⟩
  obtain ⟨answers, c', hrun, -, hreads⟩ := performAll_answers_lastWritten hvalid hsound
    [.write 4 ⟨#[1, 2, 3, 4]⟩, .write 0 ⟨#[9]⟩, .read 8 4, .flush, .read 5 2, .read 0 2]
    (by decide) (by simp)
  obtain ⟨bytes, hbytes, hsize, hbyte⟩ := hreads 4 5 2 rfl
  exact ⟨answers, c', hrun, bytes, hbytes, hsize, hbyte 0 (by decide), hbyte 1 (by decide)⟩

end

end Cache

end RiscvMachine
