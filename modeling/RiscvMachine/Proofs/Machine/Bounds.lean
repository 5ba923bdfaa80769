import RiscvMachine.Proofs.Cache.Bounds
import RiscvMachine.Proofs.Hart.Replay
import RiscvMachine.Proofs.Machine.Reboot
import RiscvMachine.Proofs.Machine.Sizes

set_option autoImplicit false

/-! # Accesses are in bounds

The cache does not check what is asked of it: an access must not leave its line, nor the store.
That this is so is due to the alignment of the calls of the hart, to the place of RAM in them, and
to the validation of the configuration.

Every call on the bus comes down to accesses to the cache (`Platform.requests`), a printed string
byte by byte. Made in order, the accesses of all calls of an instruction do to the cache what the
instruction does (`Core.attempts_cacheRequests`), and each of them keeps to one line and to RAM
(`Core.cacheRequests_inRam`). So the sizes of the platform last through every session
(`Machine.acts_sized`), and the only failures are those of units (`Machine.serve_fails`). The
theorem at the end is `Machine.accesses_in_bounds`. Units may do what they like.
-/

namespace RiscvMachine

/-! ## What calls ask of the cache -/

namespace Platform

variable {υ : Type} [StorageUnit υ]

/-- The reads of a string that is printed: byte by byte up to a zero, the end of RAM or a
failure. -/
def stringRequests : Nat → UInt32 → Cache υ → List CacheRequest
  | 0, _, _ => []
  | n + 1, offset, cache => .read offset Width.byte.bytes ::
    match Cache.readNumber .byte offset cache with
    | .ok value cache => if value = 0 then [] else stringRequests n (offset + 1) cache
    | .error _ _ => []

/-- The accesses to the cache that a call comes down to. -/
def requests (p : Platform υ) : BusCall → List CacheRequest
  | .read width addr =>
    if isDevice addr then []
    else match ramOffset? p.ramSize addr width with
      | some offset => [.read offset width.bytes]
      | none => []
  | .write width addr value =>
    if isDevice addr then []
    else match ramOffset? p.ramSize addr width with
      | some offset => [.write offset (Bytes.littleEndian width.bytes value.toNat)]
      | none => []
  | .readCsr _ => []
  | .writeCsr number value =>
    if number = 0x138 then
      stringRequests (p.ramSize.toNat - (value - ramBase).toNat) (value - ramBase) p.cache
    else []

theorem attempt_read (width : Width) (offset : UInt32) (cache : Cache υ) :
    cache.attempt (.read offset width.bytes) = stateOf (Cache.readNumber width offset cache) := by
  simp only [Cache.attempt, Cache.perform, Cache.readNumber, bind, EStateM.bind]
  cases Cache.read offset width.bytes cache <;> rfl

theorem attempt_write (width : Width) (offset value : UInt32) (cache : Cache υ) :
    cache.attempt (.write offset (Bytes.littleEndian width.bytes value.toNat)) =
      stateOf (Cache.writeNumber width offset value cache) := by
  simp only [Cache.attempt, Cache.perform, Cache.writeNumber, bind, EStateM.bind]
  cases Cache.write offset (Bytes.littleEndian width.bytes value.toNat) cache <;> rfl

theorem attempts_stringRequests (n : Nat) (offset : UInt32) (cache : Cache υ)
    (output : ByteArray) :
    cache.attempts (stringRequests n offset cache) =
      (stateOf (DebugChannel.printString n offset (cache, output))).1 := by
  induction n generalizing offset cache output with
  | zero => rfl
  | succ n ih =>
      simp only [stringRequests, DebugChannel.printString, Cache.attempts, List.foldl_cons,
        attempt_read]
      cases Cache.readNumber .byte offset cache with
      | error error cache' => rfl
      | ok value cache' =>
          simp only
          split
          · rfl
          · exact ih _ _ _

/-- Of the registers of the debug channel, the one that prints a string reads memory. -/
theorem attempts_channelRequests (ramSize number value : UInt32) (cache : Cache υ)
    (console : GuestConsole) (output : ByteArray) :
    cache.attempts (requests ⟨cache, console, ramSize⟩ (.writeCsr number value)) =
      (stateOf (DebugChannel.write ramSize number value (cache, output))).1 := by
  unfold DebugChannel.write
  by_cases hstring : number = 0x138
  · subst hstring
    exact attempts_stringRequests _ _ _ output
  · simp only [requests, if_neg hstring]
    split
    · rfl
    split
    · rfl
    split <;> rfl

/-- The accesses of a call, made in order, leave the cache as the call does. -/
theorem attempts_requests (p : Platform υ) (call : BusCall) :
    p.cache.attempts (p.requests call) = (BusCall.after p call).cache := by
  obtain ⟨cache, ⟨keys, output⟩, ramSize⟩ := p
  cases call with
  | read width addr =>
      change _ = (stateOf (Platform.read width addr _)).cache
      by_cases hdevice : isDevice addr
      · simp only [requests, Platform.read, if_pos hdevice]
        rfl
      simp only [requests, Platform.read, if_neg hdevice, bind, EStateM.bind, get, getThe,
        MonadStateOf.get, EStateM.get]
      cases ramOffset? ramSize addr width with
      | none => rfl
      | some offset =>
          simp only [onCache, Cache.attempts, List.foldl_cons, List.foldl_nil, attempt_read]
          cases Cache.readNumber width offset cache <;> rfl
  | write width addr value =>
      change _ = (stateOf (Platform.write width addr value _)).cache
      by_cases hdevice : isDevice addr
      · simp only [requests, Platform.write, if_pos hdevice]
        rfl
      simp only [requests, Platform.write, if_neg hdevice, bind, EStateM.bind, get, getThe,
        MonadStateOf.get, EStateM.get]
      cases ramOffset? ramSize addr width with
      | none => rfl
      | some offset =>
          simp only [onCache, Cache.attempts, List.foldl_cons, List.foldl_nil, attempt_write]
          cases Cache.writeNumber width offset value cache <;> rfl
  | readCsr number => rfl
  | writeCsr number value =>
      change _ = (stateOf (Platform.writeCsr number value _)).cache
      -- a string is read byte by byte, and the accesses end where the printing does
      rw [attempts_channelRequests ramSize number value cache ⟨keys, output⟩ output]
      simp only [Platform.writeCsr]
      cases DebugChannel.write ramSize number value (cache, output) <;> rfl

end Platform

/-! ## Sizes -/

/-- RAM of this size, in front of a cache of this geometry over a store of this capacity. -/
structure Platform.Sized {υ : Type} (g : CacheGeometry) (capacity : Nat) (ramSize : UInt32)
    (p : Platform υ) : Prop where
  ramSize : p.ramSize = ramSize
  cache : p.cache.Sized g capacity

/-- Where an access stands and how long it is. -/
def CacheRequest.extent? : CacheRequest → Option (UInt32 × Nat)
  | .read addr length => some (addr, length)
  | .write addr data => some (addr, data.size)
  | _ => none

/-- An access that keeps to one line and to RAM. -/
def CacheRequest.InRam (g : CacheGeometry) (ramSize : Nat) (request : CacheRequest) : Prop :=
  ∃ addr length, request.extent? = some (addr, length) ∧ g.Admits ramSize addr length

/-- What the platform may answer with if it does not serve a call: that nothing is at the address,
or that a unit has failed. -/
def BusFault.IsUnit : BusFault → Prop
  | .unmapped => True
  | .storage error => ∃ unit, error = .io unit

namespace Platform

variable {υ : Type} [StorageUnit υ] {g : CacheGeometry} {capacity : Nat} {ramSize : UInt32}

theorem inRam_access (hg : g.Valid) {width : Width} {addr offset : UInt32}
    (haligned : width.aligned addr) (hoffset : ramOffset? ramSize addr width = some offset) :
    g.Admits ramSize.toNat offset width.bytes := by
  obtain ⟨hdvd, hin⟩ := ramOffset?_eq_some hoffset haligned
  exact hg.admits hdvd hin

/-- The walk along a string stays in RAM. -/
theorem stringRequests_inRam (hg : g.Valid) {ramSize n : Nat} {offset : UInt32}
    (hn : n ≤ ramSize - offset.toNat) (cache : Cache υ) :
    ∀ request ∈ stringRequests n offset cache, request.InRam g ramSize := by
  induction n generalizing offset cache with
  | zero => exact fun _ h => absurd h List.not_mem_nil
  | succ n ih =>
      -- the next offset may have wrapped around, and has the more room then
      have hnext : (offset + 1).toNat ≤ offset.toNat + 1 := by
        rw [UInt32.toNat_add, UInt32.toNat_one]
        exact Nat.mod_le _ _
      intro request hrequest
      rcases List.mem_cons.mp hrequest with rfl | hrest
      · have hin : offset.toNat + Width.byte.bytes ≤ ramSize := by
          change offset.toNat + 1 ≤ ramSize
          omega
        exact ⟨offset, _, rfl, hg.admits (Nat.one_dvd _) hin⟩
      · revert hrest
        cases Cache.readNumber .byte offset cache with
        | error error cache' => exact fun hrest => absurd hrest List.not_mem_nil
        | ok value cache' =>
            simp only
            split
            · exact fun hrest => absurd hrest List.not_mem_nil
            · exact ih (by omega) cache' request

/-- Aligned calls come down to accesses that keep to one line and to RAM. -/
theorem requests_inRam (hg : g.Valid) {p : Platform υ} (hp : p.ramSize = ramSize) {call : BusCall}
    (haligned : call.Aligned) :
    ∀ request ∈ p.requests call, request.InRam g ramSize.toNat := by
  subst hp
  intro request hrequest
  cases call with
  | read width addr =>
      simp only [requests] at hrequest
      split at hrequest
      · cases hrequest
      split at hrequest
      · rename_i offset hoffset
        obtain rfl := List.mem_singleton.mp hrequest
        exact ⟨offset, _, rfl, inRam_access hg haligned hoffset⟩
      · cases hrequest
  | write width addr value =>
      simp only [requests] at hrequest
      split at hrequest
      · cases hrequest
      split at hrequest
      · rename_i offset hoffset
        obtain rfl := List.mem_singleton.mp hrequest
        refine ⟨offset, _, rfl, ?_⟩
        rw [Bytes.size_littleEndian]
        exact inRam_access hg haligned hoffset
      · cases hrequest
  | readCsr number => cases hrequest
  | writeCsr number value =>
      simp only [requests] at hrequest
      split at hrequest
      · exact stringRequests_inRam hg le_rfl _ request hrequest
      · cases hrequest

/-! ### What a call comes to -/

omit [StorageUnit υ] in
/-- A request that is safe for the cache leaves the platform sized as it is. -/
theorem onCache_ends {α : Type} {request : EStateM StorageError (Cache υ) α}
    (hrequest : Cache.Safe g capacity request) {p : Platform υ} (hp : p.Sized g capacity ramSize) :
    Ends (fun _ p' => p'.Sized g capacity ramSize)
      (fun fault p' => fault.IsUnit ∧ p'.Sized g capacity ramSize) (onCache request p) := by
  obtain ⟨cache, console, size⟩ := p
  obtain ⟨hsize, hcache⟩ := hp
  have hspec := hrequest cache hcache
  unfold onCache
  simp only
  revert hspec
  cases request cache with
  | ok answer cache' => exact fun hspec => .ok ⟨hsize, hspec.of_ok⟩
  | error error cache' => exact fun hspec => .error ⟨hspec.of_error.2, hsize, hspec.of_error.1⟩

theorem printString_ends (hg : g.Valid) {n : Nat} {offset : UInt32}
    (hn : n ≤ capacity - offset.toNat) {cache : Cache υ} (hcache : cache.Sized g capacity)
    (output : ByteArray) :
    Ends (fun _ state => state.1.Sized g capacity)
      (fun error state => (∃ unit, error = .io unit) ∧ state.1.Sized g capacity)
      (DebugChannel.printString n offset (cache, output)) := by
  induction n generalizing offset cache output with
  | zero => exact .ok hcache
  | succ n ih =>
      have hnext : (offset + 1).toNat ≤ offset.toNat + 1 := by
        rw [UInt32.toNat_add, UInt32.toNat_one]
        exact Nat.mod_le _ _
      have hin : g.Admits capacity offset Width.byte.bytes :=
        hg.admits (Nat.one_dvd _) (show offset.toNat + 1 ≤ capacity by omega)
      have hread := Cache.readNumber_safe hg hin cache hcache
      simp only [DebugChannel.printString]
      revert hread
      cases Cache.readNumber .byte offset cache with
      | error error cache' => exact fun hread => .error ⟨hread.of_error.2, hread.of_error.1⟩
      | ok value cache' =>
          intro hread
          simp only
          split
          · exact .ok hread.of_ok
          · exact ih (by omega) hread.of_ok _

variable (hg : g.Valid) (hroom : ramSize.toNat ≤ capacity)

include hg hroom

theorem read_ends {width : Width} {addr : UInt32} (haligned : width.aligned addr)
    {p : Platform υ} (hp : p.Sized g capacity ramSize) :
    Ends (fun _ p' => p'.Sized g capacity ramSize)
      (fun fault p' => fault.IsUnit ∧ p'.Sized g capacity ramSize) (Bus.read width addr p) := by
  change Ends _ _ (Platform.read width addr p)
  unfold Platform.read
  split
  · exact .ok ⟨hp.ramSize, hp.cache⟩
  simp only [bind, EStateM.bind, get, getThe, MonadStateOf.get, EStateM.get, hp.ramSize]
  cases hoffset : ramOffset? ramSize addr width with
  | none => exact .error ⟨trivial, hp⟩
  | some offset =>
      have hin := (inRam_access hg haligned hoffset).mono hroom
      exact onCache_ends (Cache.readNumber_safe hg hin) hp

theorem write_ends {width : Width} {addr : UInt32} (value : UInt32) (haligned : width.aligned addr)
    {p : Platform υ} (hp : p.Sized g capacity ramSize) :
    Ends (fun _ p' => p'.Sized g capacity ramSize)
      (fun fault p' => fault.IsUnit ∧ p'.Sized g capacity ramSize)
      (Bus.write width addr value p) := by
  change Ends _ _ (Platform.write width addr value p)
  unfold Platform.write
  split
  · exact .ok ⟨hp.ramSize, hp.cache⟩
  simp only [bind, EStateM.bind, get, getThe, MonadStateOf.get, EStateM.get, hp.ramSize]
  cases hoffset : ramOffset? ramSize addr width with
  | none => exact .error ⟨trivial, hp⟩
  | some offset =>
      have hin := (inRam_access hg haligned hoffset).mono hroom
      exact onCache_ends (Cache.writeNumber_safe hg value hin) hp

theorem writeCsr_ends (number value : UInt32) {p : Platform υ}
    (hp : p.Sized g capacity ramSize) :
    Ends (fun _ p' => p'.Sized g capacity ramSize)
      (fun fault p' => fault.IsUnit ∧ p'.Sized g capacity ramSize)
      (Bus.writeCsr number value p) := by
  obtain ⟨cache, ⟨keys, output⟩, size⟩ := p
  obtain ⟨rfl, hcache⟩ := hp
  have hwrite : Ends (fun _ state => state.1.Sized g capacity)
      (fun error state => (∃ unit, error = .io unit) ∧ state.1.Sized g capacity)
      (DebugChannel.write size number value (cache, output)) := by
    unfold DebugChannel.write
    split
    · exact .ok hcache
    split
    · exact .ok hcache
    split
    · exact printString_ends hg (Nat.sub_le_sub_right hroom _) hcache output
    split
    · exact .ok hcache
    · exact .ok hcache
  change Ends _ _ (Platform.writeCsr number value ⟨cache, ⟨keys, output⟩, size⟩)
  unfold Platform.writeCsr
  simp only
  revert hwrite
  cases DebugChannel.write size number value (cache, output) with
  | ok _ state => exact fun hwrite => .ok ⟨rfl, hwrite.of_ok⟩
  | error error state => exact fun hwrite => .error ⟨hwrite.of_error.1, rfl, hwrite.of_error.2⟩

/-- Aligned calls are answered alike, of course, and fail for no other reason than a unit. -/
theorem sized_simulation :
    BusSimulation BusFault.IsUnit
      fun p p' : Platform υ => p = p' ∧ p.Sized g capacity ramSize := by
  have hagree {α : Type} {result : EStateM.Result BusFault (Platform υ) α}
      (h : Ends (fun _ p' => p'.Sized g capacity ramSize)
        (fun fault p' => fault.IsUnit ∧ p'.Sized g capacity ramSize) result) :
      Agree BusFault.IsUnit
        (fun p p' : Platform υ => p = p' ∧ p.Sized g capacity ramSize) result result := by
    cases h with
    | ok hp => exact ⟨rfl, rfl, hp⟩
    | error hp => exact ⟨rfl, hp.1, rfl, hp.2⟩
  exact
    { read := by
        rintro width addr haligned p _ ⟨rfl, hp⟩
        exact hagree (read_ends hg hroom haligned hp)
      write := by
        rintro width addr value haligned p _ ⟨rfl, hp⟩
        exact hagree (write_ends hg hroom value haligned hp)
      readCsr := by
        rintro number p _ ⟨rfl, hp⟩
        exact ⟨rfl, rfl, hp.ramSize, hp.cache⟩
      writeCsr := by
        rintro number value p _ ⟨rfl, hp⟩
        exact hagree (writeCsr_ends hg hroom number value hp) }

/-- Aligned calls leave the platform sized as it is. -/
theorem Sized.after {p : Platform υ} (hp : p.Sized g capacity ramSize) {call : BusCall}
    (haligned : call.Aligned) : (BusCall.after p call).Sized g capacity ramSize := by
  have hsimulation := sized_simulation (υ := υ) hg hroom
  cases call with
  | read width addr => exact (hsimulation.read haligned p p ⟨rfl, hp⟩).stateOf.2
  | write width addr value => exact (hsimulation.write value haligned p p ⟨rfl, hp⟩).stateOf.2
  | readCsr number => exact (hsimulation.readCsr number p p ⟨rfl, hp⟩).stateOf.2
  | writeCsr number value => exact (hsimulation.writeCsr number value p p ⟨rfl, hp⟩).stateOf.2

end Platform

/-! ## Instructions -/

/-- Whatever is noted of calls is noted of one of them, on a bus of which all holds that is kept by
aligned calls. -/
theorem BusCall.exists_of_mem_notes {σ α : Type} [Bus σ] {P : σ → Prop}
    {note : σ → BusCall → List α}
    (hafter : ∀ {bus : σ} {call : BusCall}, call.Aligned → P bus → P (after bus call))
    {calls : List BusCall} {bus : σ} (haligned : ∀ call ∈ calls, call.Aligned) (hbus : P bus)
    {a : α} (ha : a ∈ notes note bus calls) :
    ∃ bus' call, P bus' ∧ call.Aligned ∧ a ∈ note bus' call := by
  induction calls generalizing bus with
  | nil => cases ha
  | cons call rest ih =>
      have hcall := haligned call List.mem_cons_self
      rcases List.mem_append.mp ha with ha | ha
      · exact ⟨bus, call, hbus, hcall, ha⟩
      · exact ih (fun call' hcall' => haligned call' (List.mem_cons_of_mem call hcall'))
          (hafter hcall hbus) ha

namespace Core

variable {υ : Type} [StorageUnit υ] {g : CacheGeometry} {capacity : Nat} {ramSize : UInt32}

/-- The accesses to the cache that an instruction comes down to, in order. -/
def cacheRequests (c : Core (Platform υ)) : List CacheRequest :=
  BusCall.notes Platform.requests c.bus c.busCalls

/-- The accesses of an instruction, made in order, leave the cache as the instruction does. -/
theorem attempts_cacheRequests (c : Core (Platform υ)) :
    c.bus.cache.attempts c.cacheRequests = c.after.bus.cache := by
  have hnotes (calls : List BusCall) (p : Platform υ) :
      p.cache.attempts (BusCall.notes Platform.requests p calls) =
        (BusCall.replay p calls).cache := by
    induction calls generalizing p with
    | nil => rfl
    | cons call rest ih =>
        rw [BusCall.notes, Cache.attempts, List.foldl_append]
        change Cache.attempts (p.cache.attempts (p.requests call)) _ = _
        rw [Platform.attempts_requests, ih]
        rfl
  rw [← c.replay_calls]
  exact hnotes c.busCalls c.bus

/-- The accesses of an instruction keep to one line and to RAM. -/
theorem cacheRequests_inRam (hg : g.Valid) (hroom : ramSize.toNat ≤ capacity)
    {c : Core (Platform υ)} (hc : c.bus.Sized g capacity ramSize) :
    ∀ request ∈ c.cacheRequests, request.InRam g ramSize.toNat := by
  intro request hrequest
  obtain ⟨p, call, hp, haligned, hmem⟩ := BusCall.exists_of_mem_notes
    (P := fun p : Platform υ => p.Sized g capacity ramSize)
    (fun haligned hp => hp.after hg hroom haligned) c.calls_aligned hc hrequest
  exact Platform.requests_inRam hg hp.ramSize haligned request hmem

end Core

/-- An access that the cache can serve: it keeps to one line and to RAM, which keeps to the store,
its block goes to one of the lines, and its bytes lie among those of the lines. -/
structure Cache.Bounds {υ : Type} (c : Cache υ) (ramSize : Nat) (addr : UInt32) (length : Nat) :
    Prop where
  line : c.geometry.within addr + length ≤ c.geometry.lineSize.toNat
  ram : addr.toNat + length ≤ ramSize
  store : ∃ capacity, c.store.capacity = .ok capacity ∧ ramSize ≤ capacity.toNat
  place : ∃ block start, c.geometry.blockOf addr = .ok block ∧
    c.geometry.index block < c.lines.size ∧
    c.geometry.offsetOf (c.geometry.index block) (c.geometry.within addr) = .ok start ∧
    start.toNat + length ≤ c.lines.size * c.geometry.lineSize.toNat

namespace Cache

variable {υ : Type} [StorageUnit υ] {g : CacheGeometry} {capacity : Nat}

omit [StorageUnit υ] in
theorem Sized.bounds (hg : g.Valid) {ramSize : Nat} (hroom : ramSize ≤ capacity) {c : Cache υ}
    (hc : c.Sized g capacity) {addr : UInt32} {length : Nat} (h : g.Admits ramSize addr length) :
    c.Bounds ramSize addr length := by
  obtain rfl := hc.geometry
  have hsize : c.store.size < 2 ^ 64 := hc.storeSize ▸ hc.capacity_lt
  have hindex := hg.index_lt (c.geometry.block addr)
  have hline : c.geometry.within addr + length ≤ c.geometry.lineSize.toNat := by
    rw [CacheGeometry.within_toNat hg]
    exact h.line
  refine ⟨hline, h.store, ⟨_, Store.capacity_eq hsize, ?_⟩, c.geometry.block addr,
    c.geometry.start addr, hg.blockOf_eq addr, hindex.trans_eq hc.lineCount.symm,
    hg.offsetOf_eq addr, ?_⟩
  · rw [Store.toNat_size hsize, hc.storeSize]
    exact hroom
  · rw [(hg.start_spec addr).1, hc.lineCount]
    calc c.geometry.index (c.geometry.block addr) * c.geometry.lineSize.toNat +
          c.geometry.within addr + length
        ≤ c.geometry.index (c.geometry.block addr) * c.geometry.lineSize.toNat +
          c.geometry.lineSize.toNat := by omega
      _ = (c.geometry.index (c.geometry.block addr) + 1) * c.geometry.lineSize.toNat :=
          (Nat.succ_mul _ _).symm
      _ ≤ c.geometry.lineCount.toNat * c.geometry.lineSize.toNat := Nat.mul_le_mul_right _ hindex

/-- An access that keeps to RAM leaves the cache sized as it is, also if it fails. -/
theorem Sized.attempt (hg : g.Valid) {ramSize : Nat} (hroom : ramSize ≤ capacity) {c : Cache υ}
    (hc : c.Sized g capacity) {request : CacheRequest} (hin : request.InRam g ramSize) :
    (c.attempt request).Sized g capacity := by
  obtain ⟨addr, length, hextent, hadmits⟩ := hin
  have hrange := hadmits.mono hroom
  cases request with
  | read addr' length' =>
      cases hextent
      have hread := read_safe hg hrange c hc
      simp only [Cache.attempt, perform, bind, EStateM.bind]
      revert hread
      cases read addr length c with
      | ok bytes c' => exact Ends.of_ok
      | error error c' => exact fun hread => hread.of_error.1
  | write addr' data =>
      cases hextent
      have hwrite := write_safe hg hrange c hc
      simp only [Cache.attempt, perform, bind, EStateM.bind]
      revert hwrite
      cases write addr data c with
      | ok _ c' => exact Ends.of_ok
      | error error c' => exact fun hwrite => hwrite.of_error.1
  | flush => cases hextent
  | invalidate => cases hextent
  | resetCounters => cases hextent

theorem Sized.attempts (hg : g.Valid) {ramSize : Nat} (hroom : ramSize ≤ capacity) {c : Cache υ}
    (hc : c.Sized g capacity) {requests : List CacheRequest}
    (hin : ∀ request ∈ requests, request.InRam g ramSize) :
    (c.attempts requests).Sized g capacity := by
  induction requests generalizing c with
  | nil => exact hc
  | cons request rest ih =>
      have hfirst := hc.attempt hg hroom (hin request List.mem_cons_self)
      exact ih hfirst fun request' hmem => hin request' (List.mem_cons_of_mem request hmem)

end Cache

/-- Every access of an instruction is one that the cache can serve as it stands by then. -/
theorem Core.cacheRequests_bounds {υ : Type} [StorageUnit υ] {g : CacheGeometry} {capacity : Nat}
    {ramSize : UInt32} (hg : g.Valid) (hroom : ramSize.toNat ≤ capacity) {c : Core (Platform υ)}
    (hc : c.bus.Sized g capacity ramSize) {before after : List CacheRequest}
    {request : CacheRequest} (hrequests : c.cacheRequests = before ++ request :: after) :
    ∃ addr length, request.extent? = some (addr, length) ∧
      (c.bus.cache.attempts before).Bounds ramSize.toNat addr length := by
  have hin := cacheRequests_inRam hg hroom hc
  rw [hrequests] at hin
  obtain ⟨addr, length, hextent, hadmits⟩ := hin request (List.mem_append_cons_self)
  refine ⟨addr, length, hextent, Cache.Sized.bounds hg hroom ?_ hadmits⟩
  exact hc.cache.attempts hg hroom fun request' hmem => hin request' (List.mem_append_left _ hmem)

/-! ## Sessions -/

namespace Machine

variable {υ : Type} [StorageUnit υ] {g : CacheGeometry} {capacity : Nat} {ramSize : UInt32}

/-- The hart knows the size of RAM, and the platform has it. -/
def SizedAlong (g : CacheGeometry) (capacity : Nat) (ramSize : UInt32)
    (_past : List (Core (Platform υ))) (c : Core (Platform υ)) : Prop :=
  c.hart.ramSize = ramSize ∧ c.bus.Sized g capacity ramSize

variable (hg : g.Valid) (hroom : ramSize.toNat ≤ capacity)

include hg hroom

theorem kept_sized : Kept (SizedAlong (υ := υ) g capacity ramSize) := by
  have hafter {p : Platform υ} (call : BusCall) (haligned : call.Aligned)
      (hp : p.Sized g capacity ramSize) : (BusCall.after p call).Sized g capacity ramSize :=
    hp.after hg hroom haligned
  have hinvariant : Core.Invariant (SizedAlong (υ := υ) g capacity ramSize []) :=
    { hart := fun hremains h => ⟨hremains.ramSize.trans h.1, h.2⟩
      read := fun haligned h => ⟨h.1, hafter (.read _ _) haligned h.2⟩
      write := fun value haligned h => ⟨h.1, hafter (.write _ _ value) haligned h.2⟩
      readCsr := fun number h => ⟨h.1, hafter (.readCsr number) trivial h.2⟩
      writeCsr := fun number value h => ⟨h.1, hafter (.writeCsr number value) trivial h.2⟩ }
  refine ⟨⟨fun h => hinvariant.after h, fun hturn h => ?_⟩, fun console h => ?_,
    fun {_ _ p} h => ?_⟩
  · cases hturn <;> exact h
  · exact ⟨h.1, h.2.ramSize, h.2.cache⟩
  · have hflush := Cache.flush_safe hg p.cache h.2.cache
    refine ⟨h.1, h.2.ramSize, ?_⟩
    simp only
    revert hflush
    cases Cache.flush p.cache with
    | ok _ cache => exact Ends.of_ok
    | error error cache => exact fun hflush => hflush.of_error.1

omit hg hroom in
/-- What a boot does to the machine keeps the sizes as well. -/
theorem bootable_sized :
    Bootable fun m : Machine υ => SizedAlong g capacity ramSize [] m.core where
  invalidate h := ⟨h.1, h.2.ramSize, h.2.cache.invalidate⟩
  place {m} offset bytes h := by
    rw [stateOf_place]
    have hsize : (m.cache.store.attempt (.write offset bytes)).size = capacity :=
      (Store.size_write offset bytes m.cache.store).trans h.2.cache.storeSize
    exact ⟨h.1, h.2.ramSize, h.2.cache.geometry, hsize, h.2.cache.capacity_lt, h.2.cache.lineCount,
      h.2.cache.line⟩
  start _ h := h
  resetCounters h := ⟨h.1, h.2.ramSize, h.2.cache.geometry, h.2.cache.storeSize,
    h.2.cache.capacity_lt, h.2.cache.lineCount, h.2.cache.line⟩

/-- The sizes last through a session, whatever fails in it. -/
theorem acts_sized {m : Machine υ} (hm : SizedAlong g capacity ramSize [] m.core)
    (session : List SessionAction) : SizedAlong g capacity ramSize [] (m.acts session).core := by
  induction session generalizing m with
  | nil => exact hm
  | cons action rest ih =>
      refine ih (m := m.act action) ?_
      cases action with
      | boot source => exact bootable_sized.boot hm source
      | serve request => exact (serve_along (kept_sized hg hroom) request hm).2
      | await cycles => exact hm
      | useDeviceTree tree => exact hm
      | resetCounters => exact bootable_sized.resetCounters hm

/-- A request that fails has failed for a unit. -/
theorem serve_fails {m m' : Machine υ} (hm : SizedAlong g capacity ramSize [] m.core)
    {request : MachineRequest} {error : MachineError} (h : serve request m = .error error m') :
    ∃ unit, error = .storage (.io unit) := by
  obtain ⟨config, hart, ⟨cache, ⟨keys, output⟩, size⟩, tree⟩ := m
  cases request with
  | step limit elapsed =>
      have hsimulation := Platform.sized_simulation (υ := υ) hg hroom
      have hstep := Core.step_simulates hsimulation limit elapsed
        (⟨hart, cache, ⟨keys, output⟩, size⟩ : Core (Platform υ)) _ ⟨rfl, rfl, hm.2⟩
      simp only [serve, bind, EStateM.bind, step] at h
      revert h hstep
      cases Core.step limit elapsed (⟨hart, cache, ⟨keys, output⟩, size⟩ : Core (Platform υ)) with
      | ok outcome core =>
          intro h
          cases h
      | error error core =>
          intro h hstep
          cases h
          -- the step ends as one over a bus that can fail by its units only
          obtain ⟨unit, rfl⟩ := hstep.2.1
          exact ⟨unit, rfl⟩
  | flush =>
      have hflush := Cache.flush_safe hg cache hm.2.cache
      simp only [serve, bind, EStateM.bind, flush, onMemory, onCache] at h
      revert h hflush
      cases Cache.flush cache with
      | ok _ cache' =>
          intro h
          cases h
      | error error cache' =>
          intro h hflush
          cases h
          obtain ⟨unit, rfl⟩ := hflush.of_error.2
          exact ⟨unit, rfl⟩
  | sendKey byte => cases h
  | takeOutput => cases h

omit [StorageUnit υ] hg hroom in
/-- A new machine over a store has the sizes that are configured. -/
theorem new_sized (config : Config) {store : Store υ} (hsize : store.size < 2 ^ 64)
    (tree : DeviceTree) :
    SizedAlong config.cache store.size config.ramSize []
      (new config (.empty config.cache store) tree).core :=
  ⟨rfl, rfl, Cache.empty_sized config.cache hsize⟩

end Machine

/-! ## Accesses in bounds -/

/-- Whether a call reaches into the window of devices. -/
def BusCall.reachesDevice : BusCall → Bool
  | .read _ addr => Platform.isDevice addr
  | .write _ addr _ => Platform.isDevice addr
  | .readCsr _ => false
  | .writeCsr _ _ => false

/-- What lies in RAM is no device. -/
theorem Platform.isDevice_eq_false {addr : UInt32} (h : ramBase.toNat ≤ addr.toNat) :
    isDevice addr = false := by
  have hend : ¬ addr < deviceEnd := by
    rw [UInt32.lt_iff_toNat_lt]
    exact Nat.not_lt.mpr (le_trans (by decide) h)
  rw [isDevice, decide_eq_false hend, Bool.and_false]

/-- A fetch reads the word at the program counter, which lies wholly in RAM. -/
theorem Core.fetch_bounds {σ : Type} [Bus σ] {config : Config} (h : config.Accepted) {c : Core σ}
    (hc : c.hart.ramSize = config.ramSize) {event : BusEvent} (hevent : event ∈ c.fetchCalls) :
    event.call = .read .word c.hart.pc ∧ ramBase.toNat ≤ c.hart.pc.toNat ∧
      c.hart.pc.toNat + 4 ≤ ramBase.toNat + config.ramSize.toNat := by
  rcases c.fetchCalls_eq with hnone | ⟨fault, hfetch, haligned, hlt⟩
  · rw [hnone] at hevent
    exact absurd hevent List.not_mem_nil
  · rw [hfetch] at hevent
    obtain rfl := List.mem_singleton.mp hevent
    rw [hc] at hlt
    exact ⟨rfl, fetch_in_ram h.ramSize_mod_four h.ramSize_le haligned hlt⟩

namespace Machine

/-- What is asked of a bus and of the cache behind it, for a configuration that validation accepts.

Over any bus, and so whatever the word that is fetched, every call of an instruction is naturally
aligned, and its fetch, with which the calls begin, lies wholly in RAM.

If lines are not too large and their bytes are counted in 64 bits, then in any session on a machine
so configured no fetch of any instruction reaches a device, and the accesses that the instruction
comes down to, printed strings included, are all in bounds in the cache as each of them finds it.
Whatever fails has failed for a unit: nothing is ever asked of the store that is out of its range.
This holds of any units, and the machine that is built is such a machine. -/
theorem accesses_in_bounds {config : Config} (hvalid : config.validate = .ok ()) :
    (∀ {σ : Type} [Bus σ] (c : Core σ), c.hart.ramSize = config.ramSize →
      (∀ event ∈ c.calls, event.call.Aligned) ∧ c.fetchCalls <+: c.calls ∧
      ∀ event ∈ c.fetchCalls, event.call = .read .word c.hart.pc ∧
        ramBase.toNat ≤ c.hart.pc.toNat ∧
        c.hart.pc.toNat + 4 ≤ ramBase.toNat + config.ramSize.toNat) ∧
    (config.cache.lineSize.toNat ≤ 2 ^ 31 →
      config.cache.lineSize.toNat * config.cache.lineCount.toNat < 2 ^ 64 →
      ∀ {υ : Type} [StorageUnit υ] (store : Store υ) (tree : DeviceTree)
        (session : List SessionAction),
      store.size = config.backing.unitCount.toNat * config.backing.unitCapacity.toNat →
      let m := (new config (.empty config.cache store) tree).acts session
      (∀ limit elapsed, ∀ c ∈ Core.stepStates limit elapsed m.core,
        (∀ event ∈ c.fetchCalls, event.call.reachesDevice = false) ∧
        c.bus.cache.attempts c.cacheRequests = c.after.bus.cache ∧
        ∀ before request after, c.cacheRequests = before ++ request :: after →
          ∃ addr length, request.extent? = some (addr, length) ∧
            (c.bus.cache.attempts before).Bounds config.ramSize.toNat addr length) ∧
      ∀ request error m', serve request m = .error error m' →
        ∃ unit, error = .storage (.io unit)) ∧
    ∀ file dir? m dir?', build config file dir? = .ok m dir?' →
      ∃ store tree, m = new config (.empty config.cache store) tree ∧
        store.size = config.backing.unitCount.toNat * config.backing.unitCapacity.toNat := by
  have haccepted : config.Accepted := (Config.validate_eq_ok_iff config).mp hvalid
  refine ⟨?_, ?_, ?_⟩
  · intro σ _ c hc
    refine ⟨fun event hevent => c.calls_aligned event.call (List.mem_map_of_mem hevent),
      c.fetchCalls_prefix, fun event => Core.fetch_bounds haccepted hc⟩
  · intro hline hlines υ _ store tree session hcapacity m
    have hg : config.cache.Valid :=
      ⟨haccepted.lineSize_isPowerOfTwo, UInt64.le_iff_toNat_le.mp haccepted.four_le_lineSize,
        hline, haccepted.lineCount_isPowerOfTwo, hlines⟩
    have hroom : config.ramSize.toNat ≤ store.size := by
      rw [hcapacity]
      exact haccepted.ramSize_le_units
    have hm : SizedAlong config.cache store.size config.ramSize [] m.core :=
      acts_sized hg hroom (new_sized config (hcapacity.trans_lt haccepted.units_lt) tree) session
    refine ⟨fun limit elapsed c hc => ?_, fun request error m' => serve_fails hg hroom hm⟩
    -- the sizes last along the states of a step, so the state at hand has them
    obtain ⟨before, after, hstates⟩ := List.append_of_mem hc
    have halong := (Core.step_along (kept_sized hg hroom).toKept limit elapsed hm).1
    rw [hstates] at halong
    obtain ⟨hram, hbus⟩ := halong.at
    refine ⟨fun event hevent => ?_, c.attempts_cacheRequests,
      fun before request after => Core.cacheRequests_bounds hg hroom hbus⟩
    obtain ⟨hcall, hbase, -⟩ := Core.fetch_bounds haccepted hram hevent
    rw [hcall]
    exact Platform.isDevice_eq_false hbase
  · intro file dir? m dir?' hbuild
    obtain ⟨store, cache, tree, rfl, hnew, hsize, hunit⟩ := units_of_build hbuild
    obtain ⟨rfl, -⟩ := Cache.new_eq_ok_iff.mp hnew
    refine ⟨store, tree, rfl, ?_⟩
    rw [Store.size, hsize, hunit]

/-- The guest that stores its register does so at the end of a unit and at the start of the next.
The two accesses of its first instruction, the fetch and the store, are in bounds. -/
theorem accesses_in_bounds_store :
    smallConfig.validate = .ok () ∧
    ∃ c fetch store, c ∈ Core.stepStates 1 0
        ((new smallConfig smallCache smallTree).acts
          [.boot storingGuest]).core ∧
      c.cacheRequests = [fetch, store] ∧ fetch.extent? = some (0, 4) ∧
      store.extent? = some (20, 4) ∧ (c.bus.cache.attempts [fetch]).Bounds 32 20 4 := by
  let booted := (new smallConfig smallCache smallTree).acts
    [.boot storingGuest]
  have hvalid : smallConfig.validate = .ok () := by decide +kernel
  obtain ⟨-, hguest, -⟩ := accesses_in_bounds hvalid
  obtain ⟨hbounds, -⟩ := hguest (by decide) (by decide) (.ofMemory smallConfig.backing) smallTree
    [.boot storingGuest] (by decide +kernel)
  have hextents : (Core.stepStates 1 0 booted.core).map
      (fun c => c.cacheRequests.map CacheRequest.extent?) =
        [[some (0, 4), some (20, 4)]] := by
    decide +kernel
  obtain ⟨c, hstates, hextents⟩ := List.map_eq_singleton_iff.mp hextents
  obtain ⟨fetch, rest, hrequests, hfetch, hextents⟩ := List.map_eq_cons_iff.mp hextents
  obtain ⟨store, rfl, hstore⟩ := List.map_eq_singleton_iff.mp hextents
  have hmem : c ∈ Core.stepStates 1 0 booted.core := by
    rw [hstates]
    exact List.mem_singleton_self c
  obtain ⟨addr, length, hextent, hin⟩ := (hbounds 1 0 c hmem).2.2 [fetch] store [] hrequests
  rw [hstore] at hextent
  cases hextent
  exact ⟨hvalid, c, fetch, store, hmem, hrequests, hfetch, hstore, hin⟩

end Machine

end RiscvMachine
