import RiscvMachine.Proofs.Cache.Failure
import RiscvMachine.Proofs.Storage.Requests

set_option autoImplicit false

/-! # Sequences of requests to the backing store

Units of one capacity, joined, stay one flat space of bytes over every sequence of requests,
whichever requests fail (`Store.attempts_flat`). The calls on the units are read off units that keep
a log (`Logged`), over which everything else is the same (`Store.attempts_unlogged`).
-/

namespace RiscvMachine

inductive StoreRequest
  | read (addr : UInt32) (length : Nat)
  | write (addr : UInt32) (data : ByteArray)

/-! ## Runs of requests -/

namespace Store

variable {υ : Type} [StorageUnit υ]

/-- The store after a request, whether or not it succeeds. -/
def attempt (s : Store υ) : StoreRequest → Store υ
  | .read addr length => stateOf (Store.read addr length s)
  | .write addr data => stateOf (Store.write addr data s)

def attempts (s : Store υ) (requests : List StoreRequest) : Store υ :=
  requests.foldl attempt s

/-- What the requests preserve one by one, a run of them preserves. -/
theorem attempts_keeps {P : Store υ → Prop} (hstep : ∀ s request, P s → P (s.attempt request))
    (requests : List StoreRequest) {s : Store υ} (hs : P s) : P (s.attempts requests) := by
  induction requests generalizing s with
  | nil => exact hs
  | cons request rest ih => exact ih (hstep s request hs)

/-- A request is counted once, as a read or as a write, or not at all. -/
theorem attempt_counts (s : Store υ) (request : StoreRequest) :
    (s.attempt request).Counts s.reads s.writes ∨
      (s.attempt request).Counts (s.reads + 1) s.writes ∨
      (s.attempt request).Counts s.reads (s.writes + 1) := by
  cases request with
  | read addr length =>
      change (stateOf (Store.read addr length s)).Counts _ _ ∨ _
      cases hrefusal : s.refusal? addr length with
      | none => exact .inr (.inl (read_counts hrefusal))
      | some error =>
          left
          rw [Store.read, hrefusal]
          exact ⟨rfl, rfl⟩
  | write addr data =>
      change (stateOf (Store.write addr data s)).Counts _ _ ∨ _
      cases hrefusal : s.refusal? addr data.size with
      | none => exact .inr (.inr (write_counts hrefusal))
      | some error =>
          left
          rw [Store.write, hrefusal]
          exact ⟨rfl, rfl⟩

/-- No more is counted than has been asked for, so that up to 2^64 requests the counters are
exact. -/
theorem attempts_counts (s : Store υ) (requests : List StoreRequest) :
    (s.attempts requests).reads.toNat + (s.attempts requests).writes.toNat ≤
      s.reads.toNat + s.writes.toNat + requests.length := by
  induction requests generalizing s with
  | nil => exact Nat.le_refl _
  | cons request rest ih =>
      have hrest := ih (s.attempt request)
      have hadd (n : UInt64) : (n + 1).toNat ≤ n.toNat + 1 := by
        rw [UInt64.toNat_add]
        exact Nat.mod_le _ _
      have hreads := hadd s.reads
      have hwrites := hadd s.writes
      rw [List.length_cons]
      change ((s.attempt request).attempts rest).reads.toNat +
        ((s.attempt request).attempts rest).writes.toNat ≤ _
      rcases attempt_counts s request with ⟨h₁, h₂⟩ | ⟨h₁, h₂⟩ | ⟨h₁, h₂⟩
      all_goals
        rw [h₁, h₂] at hrest
        omega

variable [LawfulUnit υ]

theorem attempt_follows {s : Store υ} (hs : s.Sound) (request : StoreRequest) :
    s.Follows (s.attempt request) := by
  cases request with
  | read addr length =>
      change s.Follows (stateOf (Store.read addr length s))
      rcases Nat.lt_or_ge s.size (addr.toNat + length) with hbehind | hwithin
      · rw [(servesRead hs addr length).refused hbehind]
        exact .refl hs
      · have hspec := read_spec hs hwithin
        revert hspec
        cases Store.read addr length s with
        | ok bytes s' => exact fun ⟨_, hfollows, _⟩ => hfollows
        | error failure s' => exact fun ⟨_, _, _, _, _, hfollows, _⟩ => hfollows
  | write addr data =>
      change s.Follows (stateOf (Store.write addr data s))
      rcases Nat.lt_or_ge s.size (addr.toNat + data.size) with hbehind | hwithin
      · rw [(servesWrite hs addr data).refused hbehind]
        exact .refl hs
      · have hspec := write_spec hs hwithin
        revert hspec
        cases Store.write addr data s with
        | ok _ s' => exact fun ⟨hfollows, _⟩ => hfollows
        | error error s' => exact fun ⟨_, _, _, _, hfollows, _⟩ => hfollows

theorem follows_attempts {s : Store υ} (hs : s.Sound) (requests : List StoreRequest) :
    s.Follows (s.attempts requests) :=
  attempts_keeps (fun _ request h => h.trans (attempt_follows h.sound request)) requests (.refl hs)

end Store

/-! ## The calls on the units -/

/-- A unit and the ranges of the calls made on it, each an offset and a length. -/
structure Logged (υ : Type) where
  unit : υ
  calls : List (Nat × Nat)

namespace Logged

variable {υ : Type}

/-- Makes a call on the unit and notes its range. -/
def note {ε α : Type} (offset length : Nat) (request : EStateM ε υ α) :
    EStateM ε (Logged υ) α := fun u =>
  match request u.unit with
  | .ok answer unit => .ok answer ⟨unit, u.calls ++ [(offset, length)]⟩
  | .error failure unit => .error failure ⟨unit, u.calls ++ [(offset, length)]⟩

instance [StorageUnit υ] : StorageUnit (Logged υ) where
  capacity u := StorageUnit.capacity u.unit
  read offset length := note offset length (StorageUnit.read offset length)
  write offset data := note offset data.size (StorageUnit.write offset data)

theorem read_eq [StorageUnit υ] (offset length : Nat) :
    StorageUnit.read (υ := Logged υ) offset length =
      note offset length (StorageUnit.read offset length) :=
  rfl

theorem write_eq [StorageUnit υ] (offset : Nat) (data : ByteArray) :
    StorageUnit.write (υ := Logged υ) offset data =
      note offset data.size (StorageUnit.write offset data) :=
  rfl

/-- All calls on the unit lie within the capacity. -/
def Within (capacity : Nat) (u : Logged υ) : Prop :=
  ∀ call ∈ u.calls, call.1 + call.2 ≤ capacity

theorem Within.note {ε α : Type} {capacity offset length : Nat} {u : Logged υ}
    (h : u.Within capacity) (hcall : offset + length ≤ capacity) (request : EStateM ε υ α) :
    (stateOf (Logged.note offset length request u)).Within capacity := by
  have hcalls : (stateOf (Logged.note offset length request u)).calls =
      u.calls ++ [(offset, length)] := by
    unfold Logged.note
    cases request u.unit <;> rfl
  intro call hmem
  rw [hcalls, List.mem_append, List.mem_singleton] at hmem
  rcases hmem with hmem | rfl
  · exact h call hmem
  · exact hcall

end Logged

namespace Store

variable {υ : Type}

/-- The store with an empty log in each unit. -/
def logged (s : Store υ) : Store (Logged υ) :=
  ⟨s.units.map fun u => ⟨u, []⟩, s.unitCapacity, s.reads, s.writes⟩

def unlogged (s : Store (Logged υ)) : Store υ :=
  ⟨s.units.map Logged.unit, s.unitCapacity, s.reads, s.writes⟩

theorem unlogged_logged (s : Store υ) : s.logged.unlogged = s := by
  simp [logged, unlogged, Function.comp_def]

def Unlogs (s : Store υ) (t : Store (Logged υ)) : Prop :=
  s = t.unlogged

/-- A call on a unit that is not there does nothing. -/
theorem onUnit_of_none {ε α : Type} {s : Store υ} {i : Nat} (call : EStateM ε υ α)
    (h : s.units[i]? = none) : onUnit i call s = (none, s) := by
  have hi : ¬ i < s.units.size := Nat.not_lt.mpr (Array.getElem?_eq_none_iff.mp h)
  unfold onUnit Array.modifyM
  simp only [hi, ↓reduceDIte]
  rfl

/-- Noting a call changes nothing else. -/
theorem onUnit_unlogged {ε α : Type} (i offset length : Nat) (call : EStateM ε υ α)
    (t : Store (Logged υ)) :
    onUnit i call t.unlogged =
      ((onUnit i (Logged.note offset length call) t).1,
        (onUnit i (Logged.note offset length call) t).2.unlogged) := by
  cases hunit : t.units[i]? with
  | none =>
      rw [onUnit_of_none _ hunit, onUnit_of_none _ (by simp [unlogged, hunit])]
  | some u =>
      have hunlogged : t.unlogged.units[i]? = some u.unit := by simp [unlogged, hunit]
      rw [onUnit_eq _ _ hunit, onUnit_eq _ _ hunlogged]
      unfold Logged.note
      cases call u.unit <;> simp [setUnit, unlogged, Array.map_setIfInBounds]

variable [StorageUnit υ]

theorem readSpans_unlogs (spans : List Span) (arrived : ByteArray) :
    Simulates (fun _ => True) (Unlogs (υ := υ)) (readSpans spans arrived)
      (readSpans spans arrived) := by
  induction spans generalizing arrived with
  | nil => exact Simulates.pure arrived
  | cons span rest ih =>
      rintro _ t rfl
      simp only [readSpans, onUnit_unlogged span.unit span.offset span.length, Logged.read_eq]
      rcases onUnit span.unit (Logged.note span.offset span.length
        (StorageUnit.read span.offset span.length)) t with ⟨_ | _ | bytes, t'⟩
      · exact ⟨rfl, trivial, rfl⟩
      · exact ⟨rfl, trivial, rfl⟩
      · exact ih _ _ t' rfl

theorem writeSpans_unlogs (data : ByteArray) (spans : List Span) (done : Nat) :
    Simulates (fun _ => True) (Unlogs (υ := υ)) (writeSpans data spans done)
      (writeSpans data spans done) := by
  induction spans generalizing done with
  | nil => exact Simulates.pure ()
  | cons span rest ih =>
      rintro _ t rfl
      simp only [writeSpans, Logged.write_eq,
        onUnit_unlogged span.unit span.offset (data.extract done (done + span.length)).size]
      rcases onUnit span.unit (Logged.note span.offset (data.extract done (done + span.length)).size
        (StorageUnit.write span.offset (data.extract done (done + span.length)))) t with
        ⟨_ | _ | _, t'⟩
      · exact ⟨rfl, trivial, rfl⟩
      · exact ⟨rfl, trivial, rfl⟩
      · exact ih _ _ t' rfl

omit [StorageUnit υ] in
theorem refusal?_unlogged (t : Store (Logged υ)) (addr : UInt32) (length : Nat) :
    t.unlogged.refusal? addr length = t.refusal? addr length := by
  have hcapacity : t.unlogged.capacity = t.capacity := by
    simp only [capacity, unlogged, Array.size_map]
  rw [refusal?, refusal?, hcapacity]

/-- A read answers the same with and without the logs. -/
theorem read_unlogs (addr : UInt32) (length : Nat) :
    Simulates (fun _ => True) (Unlogs (υ := υ)) (Store.read addr length)
      (Store.read addr length) := by
  rintro _ t rfl
  simp only [Store.read, refusal?_unlogged]
  cases t.refusal? addr length with
  | some error => exact ⟨rfl, trivial, rfl⟩
  | none => exact readSpans_unlogs _ _ _ { t with reads := t.reads + 1 } rfl

/-- A write answers the same with and without the logs. -/
theorem write_unlogs (addr : UInt32) (data : ByteArray) :
    Simulates (fun _ => True) (Unlogs (υ := υ)) (Store.write addr data)
      (Store.write addr data) := by
  rintro _ t rfl
  simp only [Store.write, refusal?_unlogged]
  cases t.refusal? addr data.size with
  | some error => exact ⟨rfl, trivial, rfl⟩
  | none => exact writeSpans_unlogs _ _ _ _ { t with writes := t.writes + 1 } rfl

theorem attempt_unlogged (t : Store (Logged υ)) (request : StoreRequest) :
    (t.attempt request).unlogged = t.unlogged.attempt request := by
  cases request with
  | read addr length => exact (read_unlogs addr length _ t rfl).stateOf.symm
  | write addr data => exact (write_unlogs addr data _ t rfl).stateOf.symm

/-- A run over units that keep a log is the run over the units themselves. -/
theorem attempts_unlogged (t : Store (Logged υ)) (requests : List StoreRequest) :
    (t.attempts requests).unlogged = t.unlogged.attempts requests := by
  induction requests generalizing t with
  | nil => rfl
  | cons request rest ih =>
      have hstep := ih (t.attempt request)
      rw [attempt_unlogged] at hstep
      exact hstep

/-- All calls that have been made lie within the capacity of the units. -/
structure CallsWithin (capacity : Nat) (t : Store (Logged υ)) : Prop where
  unitCapacity : t.unitCapacity.toNat = capacity
  within : ∀ u ∈ t.units, u.Within capacity

omit [StorageUnit υ] in
theorem logged_callsWithin (s : Store υ) : s.logged.CallsWithin s.unitCapacity.toNat := by
  refine ⟨rfl, ?_⟩
  intro u hu
  obtain ⟨v, -, rfl⟩ := Array.mem_map.mp hu
  exact fun call hcall => nomatch hcall

omit [StorageUnit υ] in
theorem CallsWithin.onUnit {ε α : Type} {capacity : Nat} {t : Store (Logged υ)}
    (h : t.CallsWithin capacity) (i : Nat) {offset length : Nat}
    (hcall : offset + length ≤ capacity) (call : EStateM ε υ α) :
    (Store.onUnit i (Logged.note offset length call) t).2.CallsWithin capacity := by
  cases hunit : t.units[i]? with
  | none =>
      rw [onUnit_of_none _ hunit]
      exact h
  | some u =>
      have hstate : (Store.onUnit i (Logged.note offset length call) t).2 =
          t.setUnit i (stateOf (Logged.note offset length call u)) := by
        rw [onUnit_eq _ _ hunit]
        cases Logged.note offset length call u <;> rfl
      rw [hstate]
      refine ⟨h.unitCapacity, ?_⟩
      intro v hv
      rcases Array.mem_or_eq_of_mem_setIfInBounds hv with hv | rfl
      · exact h.within v hv
      · exact (h.within u (Array.mem_of_getElem? hunit)).note hcall call

theorem CallsWithin.attempt {capacity : Nat} {t : Store (Logged υ)} (request : StoreRequest)
    (h : t.CallsWithin capacity) : (t.attempt request).CallsWithin capacity := by
  cases request with
  | read addr length =>
      change (stateOf (Store.read addr length t)).CallsWithin capacity
      unfold Store.read
      cases t.refusal? addr length with
      | some error => exact h
      | none =>
          simp only [h.unitCapacity]
          refine readSpans_keeps (P := CallsWithin capacity) ?_ _ ⟨h.unitCapacity, h.within⟩
          intro span hspan t' h'
          rw [Logged.read_eq]
          exact h'.onUnit _ (Span.mem_split hspan).2 _
  | write addr data =>
      change (stateOf (Store.write addr data t)).CallsWithin capacity
      unfold Store.write
      cases t.refusal? addr data.size with
      | some error => exact h
      | none =>
          simp only [h.unitCapacity]
          refine writeSpans_keeps (P := CallsWithin capacity) ?_ _ _ ⟨h.unitCapacity, h.within⟩
          intro span hspan bytes hsize t' h'
          rw [Logged.write_eq]
          exact h'.onUnit _ (by have := (Span.mem_split hspan).2; omega) _

/-! ## Whole runs -/

/-- The loop over the parts of a range: it divides by the capacity of the units only if that is
not zero, every round serves at least one byte, and together the rounds serve all of them. -/
structure Progresses (s : Store υ) (addr length : Nat) : Prop where
  divisor : 0 < length → 0 < s.unitCapacity.toNat
  rounds : ∀ span ∈ Span.split s.unitCapacity.toNat addr length, 0 < span.length
  sum : ((Span.split s.unitCapacity.toNat addr length).map Span.length).sum = length

omit [StorageUnit υ] in
theorem progresses {s : Store υ} {addr length : Nat} (h : addr + length ≤ s.size) :
    s.Progresses addr length := by
  have hpos : 0 < length → 0 < s.unitCapacity.toNat := by
    intro hlength
    rw [size] at h
    exact Nat.pos_of_mul_pos_left (show 0 < s.units.size * s.unitCapacity.toNat by omega)
  exact ⟨hpos, fun span hspan => (Span.mem_split hspan).1, Span.sum_split hpos⟩

/-- Units of one capacity are joined without fail. -/
theorem ofUnits_eq {units : Array υ} {unitCapacity : UInt32} (hunits : 0 < units.size)
    (hcapacity : ∀ u ∈ units, StorageUnit.capacity u = unitCapacity) :
    ofUnits units = .ok ⟨units, unitCapacity, 0, 0⟩ := by
  have hfirst : units[0]? = some units[0] := Array.getElem?_eq_getElem hunits
  have hexpected := hcapacity units[0] (Array.getElem_mem hunits)
  have hsame : units.findIdx? (fun u => StorageUnit.capacity u != unitCapacity) = none := by
    rw [Array.findIdx?_eq_none_iff]
    intro u hu
    rw [hcapacity u hu]
    exact bne_self_eq_false _
  simp only [ofUnits, hfirst, hexpected, hsame]

/-- The backing store is one flat space of bytes. Take units of one capacity that keep bytes, fewer
than 2^64, and fail when they like, joined, after any requests: a request that ends behind the last
byte changes nothing; any other is counted once, reads or replaces exactly the bytes of its range,
and ends at the first unit that fails, with the bytes in front of that unit transferred. The loop
over the units ends, and all calls on them lie within their capacity. The counters start again after
2^64 requests. -/
theorem attempts_flat [LawfulUnit υ] {units : Array υ} {unitCapacity : UInt32}
    (hunits : 0 < units.size) (hsize : units.size * unitCapacity.toNat < 2 ^ 64)
    (hcapacity : ∀ u ∈ units, StorageUnit.capacity u = unitCapacity)
    (hsound : ∀ u ∈ units, LawfulUnit.Sound u) (earlier : List StoreRequest) :
    ∃ s₀, ofUnits units = .ok s₀ ∧ s₀.units = units ∧
      let s := s₀.attempts earlier
      s.size = units.size * unitCapacity.toNat ∧
        (∀ addr length, s.ServesRead addr length) ∧ (∀ addr data, s.ServesWrite addr data) ∧
        s.reads.toNat + s.writes.toNat ≤ earlier.length ∧
        (∀ addr length, addr + length ≤ s.size → s.Progresses addr length) ∧
        (s₀.logged.attempts earlier).unlogged = s ∧
        ∀ u ∈ (s₀.logged.attempts earlier).units, ∀ call ∈ u.calls,
          call.1 + call.2 ≤ unitCapacity.toNat := by
  refine ⟨⟨units, unitCapacity, 0, 0⟩, ofUnits_eq hunits hcapacity, rfl, ?_⟩
  intro s
  have hs₀ : Store.Sound ⟨units, unitCapacity, 0, 0⟩ :=
    .of_mem hsize fun u hu => ⟨hsound u hu, hcapacity u hu⟩
  have hfollows := follows_attempts hs₀ earlier
  have hcounts := attempts_counts ⟨units, unitCapacity, 0, 0⟩ earlier
  rw [Nat.add_right_comm] at hcounts
  have hwithin := attempts_keeps (P := CallsWithin unitCapacity.toNat)
    (fun _ request h => h.attempt request) earlier (logged_callsWithin ⟨units, unitCapacity, 0, 0⟩)
  refine ⟨hfollows.size, servesRead hfollows.sound, servesWrite hfollows.sound, ?_,
    fun _ _ => progresses, ?_, hwithin.within⟩
  · simpa using hcounts
  · rw [attempts_unlogged, unlogged_logged]

/-- Two units of four bytes, the second of which fails at its first call. -/
def fading : Array (Flaky Medium) :=
  #[⟨.memory 4, []⟩, ⟨.memory 4, [true]⟩]

/-- A read past the end is not counted. Of a write over the border between the units, the second of
which fails, the byte in the first one is replaced, and that counts as a write. -/
theorem attempts_flat_straddling :
    ∃ s₀, ofUnits fading = .ok s₀ ∧
      let s := s₀.attempts [.read 6 10]
      ∃ s', Store.write 3 ⟨#[8, 9]⟩ s = .error (.io 1) s' ∧
        s'.joined = ⟨#[0, 0, 0, 8, 0, 0, 0, 0]⟩ ∧ s'.Counts 0 1 := by
  have hmem : ∀ u ∈ fading, u.unit = .memory 4 := by
    intro u hu
    rcases List.mem_cons.mp (Array.mem_toList_iff.mpr hu) with rfl | hu
    · rfl
    · cases List.mem_singleton.mp hu
      rfl
  have hcapacity : ∀ u ∈ fading, StorageUnit.capacity u = 4 :=
    fun u hu => congrArg (fun m : Medium => m.capacity) (hmem u hu)
  have hsound : ∀ u ∈ fading, LawfulUnit.Sound u := by
    intro u hu
    change u.unit.Intact
    rw [hmem u hu]
    exact Medium.memory_intact 4
  obtain ⟨s₀, hbuilt, -, -, -, hwrites, -⟩ :=
    attempts_flat (by decide) (by decide) hcapacity hsound [.read 6 10]
  refine ⟨s₀, hbuilt, ?_⟩
  cases hbuilt.symm.trans (ofUnits_eq (by decide) hcapacity)
  -- the second unit refuses its byte, the first one does not
  obtain ⟨s', hfailed, hjoined, hcounts⟩ := (hwrites 3 ⟨#[8, 9]⟩).failed (by decide) 1 (by
    refine ⟨⟨_, rfl, by decide, _, rfl⟩, ?_⟩
    rintro earlier hlt ⟨u, hu, -, u', hwrite⟩
    obtain rfl : earlier = 0 := by omega
    cases hu
    cases hwrite)
  exact ⟨s', hfailed, hjoined.trans (by decide +kernel), hcounts⟩

/-- Units of 2^64 bytes or more cannot be counted in 64 bits, and then even the first four of them
cannot be read. -/
theorem read_gives_up_oversized :
    let units := Array.replicate (2 ^ 32 + 2) (Medium.memory 4294967295)
    (∀ u ∈ units, StorageUnit.capacity u = 4294967295) ∧ 4 ≤ units.size * 4294967295 ∧
      ∃ s₀, ofUnits units = .ok s₀ ∧
        Store.read 0 4 s₀ = .error ⟨.panic .multiplication, ByteArray.empty⟩ s₀ := by
  intro units
  have hcapacity : ∀ u ∈ units, StorageUnit.capacity u = 4294967295 := by
    intro u hu
    rw [Array.eq_of_mem_replicate hu]
    rfl
  have hunits : units.size = 2 ^ 32 + 2 := Array.size_replicate
  refine ⟨hcapacity, by rw [hunits]; decide, _, ofUnits_eq (by rw [hunits]; decide) hcapacity, ?_⟩
  have htotal : 2 ^ 64 ≤ Store.size ⟨units, 4294967295, 0, 0⟩ := by
    rw [size, hunits]
    decide
  rw [Store.read, refusal?, capacity_eq_error htotal]

end Store

end RiscvMachine
