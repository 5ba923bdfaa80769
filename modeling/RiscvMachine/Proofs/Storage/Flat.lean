import RiscvMachine.Proofs.Storage.Laws
import RiscvMachine.Storage.Store

set_option autoImplicit false

/-! # The backing store is one flat memory

Joined units show one memory (`Store.contents`): address `a` is byte `a % capacity` of unit
`a / capacity`. Requests that lie within the store read and write that memory, whatever units
they touch. A request that fails has done its work up to the start of the unit that failed.

The argument is one step and one run: a call on one unit (`onUnit_eq`, `contents_setUnit`), and
the induction over the spans that a range is split into (`readSpans_split`, `writeSpans_split`).
-/

namespace RiscvMachine

namespace Store

variable {υ : Type}

/-! ## The number of bytes -/

def size (s : Store υ) : Nat := s.units.size * s.unitCapacity.toNat

/-- The store can tell its size if that fits in 64 bits. -/
theorem capacity_eq {s : Store υ} (h : s.size < 2 ^ 64) : s.capacity = .ok (UInt64.ofNat s.size) :=
  if_pos h

theorem toNat_size {s : Store υ} (h : s.size < 2 ^ 64) : (UInt64.ofNat s.size).toNat = s.size :=
  UInt64.toNat_ofNat_of_lt h

/-- A store of 2^64 bytes or more gives up. -/
theorem capacity_eq_error {s : Store υ} (h : 2 ^ 64 ≤ s.size) :
    s.capacity = .error .multiplication :=
  if_neg (Nat.not_lt.mpr h)

/-- A store that tells its size tells the number of bytes in all units. -/
theorem toNat_of_capacity {s : Store υ} {n : UInt64} (h : s.capacity = .ok n) :
    s.size < 2 ^ 64 ∧ n.toNat = s.size := by
  rcases Nat.lt_or_ge s.size (2 ^ 64) with hlt | hge
  · rw [capacity_eq hlt] at h
    cases h
    exact ⟨hlt, toNat_size hlt⟩
  · rw [capacity_eq_error hge] at h
    cases h

/-! ## Calls on one unit -/

def setUnit (s : Store υ) (i : Nat) (u : υ) : Store υ :=
  { s with units := s.units.setIfInBounds i u }

theorem size_setUnit (s : Store υ) (i : Nat) (u : υ) :
    (s.setUnit i u).size = s.size := by
  simp [size, setUnit]

theorem onUnit_eq {ε α : Type} (s : Store υ) {i : Nat} {u : υ} (call : EStateM ε υ α)
    (h : s.units[i]? = some u) :
    onUnit i call s =
      match call u with
      | .ok answer u' => (some (.ok answer), s.setUnit i u')
      | .error failure u' => (some (.error failure), s.setUnit i u') := by
  obtain ⟨hi, rfl⟩ := Array.getElem?_eq_some_iff.mp h
  unfold onUnit setUnit Array.modifyM
  simp only [hi, ↓reduceDIte, bind, StateT.bind, pure, StateT.pure]
  cases call s.units[i] <;> simp [Array.setIfInBounds, hi]

variable [StorageUnit υ]

theorem readSpans_cons {s : Store υ} {u : υ} (span : Span) (h : s.units[span.unit]? = some u)
    (rest : List Span) (arrived : ByteArray) :
    readSpans (span :: rest) arrived s =
      match StorageUnit.read span.offset span.length u with
      | .ok bytes u' => readSpans rest (arrived ++ bytes) (s.setUnit span.unit u')
      | .error bytes u' => .error ⟨.io span.unit, arrived ++ bytes⟩ (s.setUnit span.unit u') := by
  simp only [readSpans, onUnit_eq s _ h]
  cases StorageUnit.read span.offset span.length u <;> rfl

theorem writeSpans_cons {s : Store υ} {u : υ} (span : Span) (h : s.units[span.unit]? = some u)
    (data : ByteArray) (rest : List Span) (done : Nat) :
    writeSpans data (span :: rest) done s =
      match StorageUnit.write span.offset (data.extract done (done + span.length)) u with
      | .ok () u' => writeSpans data rest (done + span.length) (s.setUnit span.unit u')
      | .error () u' => .error (.io span.unit) (s.setUnit span.unit u') := by
  simp only [writeSpans, onUnit_eq s _ h]
  cases StorageUnit.write span.offset (data.extract done (done + span.length)) u <;> rfl

variable [LawfulUnit υ]

/-- Every unit is sound and has the capacity of the store's units. -/
def UnitsSound (s : Store υ) : Prop :=
  ∀ (i : Nat) (u : υ), s.units[i]? = some u →
    LawfulUnit.Sound u ∧ StorageUnit.capacity u = s.unitCapacity

theorem unitsSound_pair {u v : υ} {capacity : UInt32} {reads writes : UInt64}
    (hu : LawfulUnit.Sound u ∧ StorageUnit.capacity u = capacity)
    (hv : LawfulUnit.Sound v ∧ StorageUnit.capacity v = capacity) :
    UnitsSound ⟨#[u, v], capacity, reads, writes⟩ := by
  rintro (_ | _ | i) w hw
  · cases hw
    exact hu
  · cases hw
    exact hv
  · cases hw

/-- Every unit is sound, and the store can tell its size. -/
structure Sound (s : Store υ) : Prop where
  units : s.UnitsSound
  size_lt : s.size < 2 ^ 64

def contents (s : Store υ) : Memory := fun a =>
  match s.units[a / s.unitCapacity.toNat]? with
  | some u => LawfulUnit.contents u (a % s.unitCapacity.toNat)
  | none => 0

/-- `s'` is a sound store with as many units of the same capacity as `s`. -/
structure Follows (s s' : Store υ) : Prop where
  sound : s'.Sound
  unitCapacity : s'.unitCapacity = s.unitCapacity
  unitCount : s'.units.size = s.units.size

theorem Follows.refl {s : Store υ} (h : s.Sound) : s.Follows s := ⟨h, rfl, rfl⟩

theorem Follows.trans {s s' s'' : Store υ} (h : s.Follows s') (h' : s'.Follows s'') :
    s.Follows s'' :=
  ⟨h'.sound, h'.unitCapacity.trans h.unitCapacity, h'.unitCount.trans h.unitCount⟩

theorem Follows.size {s s' : Store υ} (h : s.Follows s') : s'.size = s.size := by
  rw [Store.size, Store.size, h.unitCapacity, h.unitCount]

theorem Sound.of_mem {s : Store υ} (hsize : s.size < 2 ^ 64)
    (h : ∀ u ∈ s.units, LawfulUnit.Sound u ∧ StorageUnit.capacity u = s.unitCapacity) :
    s.Sound :=
  ⟨fun _ u hu => h u (Array.mem_of_getElem? hu), hsize⟩

/-- Sound units in place of sound units, of the same number and capacity. -/
theorem Sound.of_units {s s' : Store υ} (hs : s.Sound) (hunits : s'.UnitsSound)
    (hcapacity : s'.unitCapacity = s.unitCapacity) (hcount : s'.units.size = s.units.size) :
    s'.Sound := by
  refine ⟨hunits, ?_⟩
  rw [Store.size, hcapacity, hcount]
  exact hs.size_lt

theorem follows_setUnit {s : Store υ} (hs : s.Sound) {i : Nat} {u u' : υ}
    (hi : s.units[i]? = some u) (hsound : LawfulUnit.Sound u')
    (hcapacity : StorageUnit.capacity u' = StorageUnit.capacity u) :
    s.Follows (s.setUnit i u') := by
  refine ⟨hs.of_units ?_ rfl (by simp [setUnit]), rfl, by simp [setUnit]⟩
  intro j v hj
  rw [setUnit, Array.getElem?_setIfInBounds] at hj
  by_cases hij : i = j
  · subst hij
    obtain ⟨hlt, -⟩ := Array.getElem?_eq_some_iff.mp hi
    rw [if_pos rfl, if_pos hlt] at hj
    cases hj
    exact ⟨hsound, hcapacity.trans (hs.units i u hi).2⟩
  · rw [if_neg hij] at hj
    exact hs.units j v hj

/-- A new state of one unit changes the memory within that unit only. -/
theorem contents_setUnit {s : Store υ} {i : Nat} {u u' : υ} (hi : s.units[i]? = some u)
    (a : Nat) :
    (s.setUnit i u').contents a =
      if a / s.unitCapacity.toNat = i then LawfulUnit.contents u' (a % s.unitCapacity.toNat)
      else s.contents a := by
  obtain ⟨hlt, -⟩ := Array.getElem?_eq_some_iff.mp hi
  simp only [contents, setUnit, Array.getElem?_setIfInBounds]
  by_cases ha : a / s.unitCapacity.toNat = i
  · rw [if_pos ha, if_pos ha.symm, ← ha]
    rw [ha] at *
    rw [if_pos hlt]
  · rw [if_neg ha, if_neg (Ne.symm ha)]

/-- A unit that keeps its bytes leaves the memory as it is. -/
theorem contents_setUnit_of_eq {s : Store υ} {i : Nat} {u u' : υ} (hi : s.units[i]? = some u)
    (h : LawfulUnit.contents u' = LawfulUnit.contents u) :
    (s.setUnit i u').contents = s.contents := by
  funext a
  rw [contents_setUnit hi]
  split
  · rename_i ha
    rw [h, contents, ha, hi]
  · rfl

/-! ## Ranges within one unit -/

theorem contents_read_of_unit {s : Store υ} {addr n : Nat} {u : υ}
    (hu : s.units[addr / s.unitCapacity.toNat]? = some u)
    (hn : addr % s.unitCapacity.toNat + n ≤ s.unitCapacity.toNat) :
    (LawfulUnit.contents u).read (addr % s.unitCapacity.toNat) n = s.contents.read addr n := by
  apply Memory.read_congr
  intro i hi
  obtain ⟨hdiv, hmod⟩ := div_mod_add hn hi
  rw [contents, hdiv, hmod, hu]

theorem contents_write_of_unit {s : Store υ} {addr : Nat} {u u' : υ} {data : ByteArray}
    (hu : s.units[addr / s.unitCapacity.toNat]? = some u)
    (hdata : addr % s.unitCapacity.toNat + data.size ≤ s.unitCapacity.toNat)
    (hwrite : LawfulUnit.contents u'
      = (LawfulUnit.contents u).write (addr % s.unitCapacity.toNat) data) :
    (s.setUnit (addr / s.unitCapacity.toNat) u').contents = s.contents.write addr data := by
  funext a
  rw [contents_setUnit hu, hwrite]
  have haddr := Nat.div_add_mod addr s.unitCapacity.toNat
  have ha := Nat.div_add_mod a s.unitCapacity.toNat
  by_cases hunit : a / s.unitCapacity.toNat = addr / s.unitCapacity.toNat
  · rw [if_pos hunit]
    rw [hunit] at ha
    by_cases hmem : addr ≤ a ∧ a < addr + data.size
    · rw [Memory.write_of_mem hmem, Memory.write_of_mem (by omega)]
      congr 1
      omega
    · rw [Memory.write_of_not_mem (by omega), Memory.write_of_not_mem (by omega), contents,
        hunit, hu]
  · rw [if_neg hunit, Memory.write_of_not_mem]
    by_contra hmem
    exact hunit (div_eq_of_mem hdata (by omega))

/-! ## Spans -/

/-- What reading a range may come to, behind the bytes that had arrived before. -/
def ReadsRange (s : Store υ) (addr length : Nat) (arrived : ByteArray) :
    EStateM.Result ReadFailure (Store υ) ByteArray → Prop
  | .ok bytes s' =>
    bytes = arrived ++ s.contents.read addr length ∧ s.Follows s' ∧ s'.contents = s.contents
  | .error failure s' =>
    ∃ unit, failure.error = .io unit ∧ addr / s.unitCapacity.toNat ≤ unit ∧
      unit * s.unitCapacity.toNat - addr < length ∧
      failure.arrived
        = arrived ++ s.contents.read addr (unit * s.unitCapacity.toNat - addr) ∧
      s.Follows s' ∧ s'.contents = s.contents ∧ LawfulUnit.ReadFails υ

/-- What writing the bytes of `data` from index `done` on to a range may come to. -/
def WritesRange (s : Store υ) (addr length : Nat) (data : ByteArray) (done : Nat) :
    EStateM.Result StorageError (Store υ) Unit → Prop
  | .ok () s' =>
    s.Follows s' ∧ s'.contents = s.contents.write addr (data.extract done (done + length))
  | .error error s' =>
    ∃ unit, error = .io unit ∧ addr / s.unitCapacity.toNat ≤ unit ∧
      unit * s.unitCapacity.toNat - addr < length ∧ s.Follows s' ∧
      s'.contents = s.contents.write addr
        (data.extract done (done + (unit * s.unitCapacity.toNat - addr))) ∧
      LawfulUnit.WriteFails υ

theorem ReadsRange.of_follows {s s' : Store υ} {addr length : Nat} {arrived : ByteArray}
    (hfollows : s.Follows s') (hcontents : s'.contents = s.contents)
    {result : EStateM.Result ReadFailure (Store υ) ByteArray}
    (h : s'.ReadsRange addr length arrived result) : s.ReadsRange addr length arrived result := by
  cases result with
  | ok bytes s'' =>
      obtain ⟨hbytes, hfollows', hcontents'⟩ := h
      rw [hcontents] at hbytes hcontents'
      exact ⟨hbytes, hfollows.trans hfollows', hcontents'⟩
  | error failure s'' =>
      obtain ⟨unit, herror, hunit, hbehind, harrived, hfollows', hcontents', hfails⟩ := h
      rw [hfollows.unitCapacity] at hunit hbehind harrived
      rw [hcontents] at harrived hcontents'
      exact ⟨unit, herror, hunit, hbehind, harrived, hfollows.trans hfollows', hcontents', hfails⟩

theorem WritesRange.of_follows {s s' : Store υ} {addr length done : Nat} {data : ByteArray}
    (hfollows : s.Follows s') (hcontents : s'.contents = s.contents)
    {result : EStateM.Result StorageError (Store υ) Unit}
    (h : s'.WritesRange addr length data done result) :
    s.WritesRange addr length data done result := by
  cases result with
  | ok _ s'' =>
      obtain ⟨hfollows', hcontents'⟩ := h
      rw [hcontents] at hcontents'
      exact ⟨hfollows.trans hfollows', hcontents'⟩
  | error error s'' =>
      obtain ⟨unit, herror, hunit, hbehind, hfollows', hcontents', hfails⟩ := h
      rw [hfollows.unitCapacity] at hunit hbehind hcontents'
      rw [hcontents] at hcontents'
      exact ⟨unit, herror, hunit, hbehind, hfollows.trans hfollows', hcontents', hfails⟩

omit [StorageUnit υ] [LawfulUnit υ] in
/-- The unit of an address within the store. -/
theorem exists_unit {s : Store υ} {addr : Nat} (h : addr < s.size) :
    ∃ u, s.units[addr / s.unitCapacity.toNat]? = some u := by
  rw [size, Nat.mul_comm] at h
  exact ⟨_, Array.getElem?_eq_getElem (Nat.div_lt_of_lt_mul h)⟩

/-- The length of the first span of a range. -/
def firstSpan (s : Store υ) (addr length : Nat) : Nat :=
  min length (s.unitCapacity.toNat - addr % s.unitCapacity.toNat)

omit [LawfulUnit υ] [StorageUnit υ] in
theorem firstSpan_le (s : Store υ) (addr length : Nat) : s.firstSpan addr length ≤ length :=
  Nat.min_le_left _ _

omit [LawfulUnit υ] [StorageUnit υ] in
/-- Behind the first span a unit starts, if anything is left of the range. -/
theorem next_span {s : Store υ} {addr length unit : Nat} (hpos : 0 < s.unitCapacity.toNat)
    (hunit : (addr + s.firstSpan addr length) / s.unitCapacity.toNat ≤ unit)
    (hbehind : unit * s.unitCapacity.toNat - (addr + s.firstSpan addr length)
      < length - s.firstSpan addr length) :
    addr / s.unitCapacity.toNat ≤ unit ∧
      s.firstSpan addr length + (unit * s.unitCapacity.toNat - (addr + s.firstSpan addr length))
        = unit * s.unitCapacity.toNat - addr := by
  have hmod := Nat.mod_lt addr hpos
  -- something is left behind the first span, so the span ends where its unit does
  have hspan : s.firstSpan addr length = s.unitCapacity.toNat - addr % s.unitCapacity.toNat := by
    unfold firstSpan at hbehind ⊢
    omega
  rw [hspan] at hunit ⊢
  have haddr := Nat.div_add_mod addr s.unitCapacity.toNat
  have hend : addr + (s.unitCapacity.toNat - addr % s.unitCapacity.toNat)
      = (addr / s.unitCapacity.toNat + 1) * s.unitCapacity.toNat := by
    rw [Nat.add_mul, Nat.one_mul, Nat.mul_comm]
    omega
  rw [hend, Nat.mul_div_cancel _ hpos] at hunit
  have hle := Nat.mul_le_mul_right s.unitCapacity.toNat hunit
  constructor <;> omega

/-- A range is read by reading its first span and then the rest. -/
theorem ReadsRange.behind {s s' : Store υ} {addr length : Nat} {arrived : ByteArray}
    (hpos : 0 < s.unitCapacity.toNat) (hfollows : s.Follows s')
    (hcontents : s'.contents = s.contents)
    {result : EStateM.Result ReadFailure (Store υ) ByteArray}
    (h : s'.ReadsRange (addr + s.firstSpan addr length) (length - s.firstSpan addr length)
      (arrived ++ s.contents.read addr (s.firstSpan addr length)) result) :
    s.ReadsRange addr length arrived result := by
  have hle := s.firstSpan_le addr length
  cases result with
  | ok bytes s'' =>
      obtain ⟨hbytes, hfollows', hcontents'⟩ := h
      refine ⟨?_, hfollows.trans hfollows', hcontents'.trans hcontents⟩
      rw [hbytes, hcontents, ByteArray.append_assoc, ← Memory.read_add]
      congr 2
      omega
  | error failure s'' =>
      obtain ⟨unit, herror, hunit, hbehind, harrived, hfollows', hcontents', hfails⟩ := h
      rw [hfollows.unitCapacity] at hunit hbehind harrived
      obtain ⟨hfirst, hlength⟩ := next_span hpos hunit hbehind
      refine ⟨unit, herror, hfirst, by omega, ?_, hfollows.trans hfollows',
        hcontents'.trans hcontents, hfails⟩
      rw [harrived, hcontents, ByteArray.append_assoc, ← Memory.read_add, hlength]

/-- A range is written by writing its first span and then the rest. -/
theorem WritesRange.behind {s s' : Store υ} {addr length done : Nat} {data : ByteArray}
    (hpos : 0 < s.unitCapacity.toNat) (hdata : done + length ≤ data.size)
    (hfollows : s.Follows s')
    (hcontents : s'.contents = s.contents.write addr
      (data.extract done (done + s.firstSpan addr length)))
    {result : EStateM.Result StorageError (Store υ) Unit}
    (h : s'.WritesRange (addr + s.firstSpan addr length) (length - s.firstSpan addr length) data
      (done + s.firstSpan addr length) result) :
    s.WritesRange addr length data done result := by
  have hle := s.firstSpan_le addr length
  cases result with
  | ok _ s'' =>
      obtain ⟨hfollows', hcontents'⟩ := h
      refine ⟨hfollows.trans hfollows', ?_⟩
      rw [hcontents', hcontents, ← Memory.write_extract_add _ _ _ (by omega)]
      congr 3
      omega
  | error error s'' =>
      obtain ⟨unit, herror, hunit, hbehind, hfollows', hcontents', hfails⟩ := h
      rw [hfollows.unitCapacity] at hunit hbehind hcontents'
      obtain ⟨hfirst, hlength⟩ := next_span hpos hunit hbehind
      refine ⟨unit, herror, hfirst, by omega, hfollows.trans hfollows', ?_, hfails⟩
      rw [hcontents', hcontents, ← Memory.write_extract_add _ _ _ (by omega), hlength]

omit [LawfulUnit υ] [StorageUnit υ] in
/-- The unit in which a range starts does not lie behind the start. -/
theorem first_unit_start (s : Store υ) (addr : Nat) :
    addr / s.unitCapacity.toNat * s.unitCapacity.toNat - addr = 0 := by
  have := Nat.div_mul_le_self addr s.unitCapacity.toNat
  omega

omit [StorageUnit υ] [LawfulUnit υ] in
/-- There is nothing to split where no bytes are left or the units hold none. -/
theorem length_eq_zero_of_split {s : Store υ} {capacity addr length : Nat}
    (hcap : s.unitCapacity.toNat = capacity) (hrange : addr + length ≤ s.size)
    (hnone : length = 0 ∨ capacity = 0) : length = 0 := by
  rcases hnone with h | h
  · exact h
  · rw [Store.size, hcap, h, Nat.mul_zero] at hrange
    omega

/-- Reading a range span by span. -/
theorem readSpans_split {s : Store υ} (hs : s.Sound) {capacity addr length : Nat}
    {arrived : ByteArray} (hcap : s.unitCapacity.toNat = capacity)
    (hrange : addr + length ≤ s.size) :
    s.ReadsRange addr length arrived (readSpans (Span.split capacity addr length) arrived s) := by
  -- the induction follows the cut, and what has arrived grows with every span
  fun_induction Span.split capacity addr length generalizing s arrived with
  | case1 addr length hnone =>
      obtain rfl : length = 0 := length_eq_zero_of_split hcap hrange hnone
      exact ⟨by simp, .refl hs, rfl⟩
  | case2 addr length hsome offset n =>
      rename_i ih
      subst hcap
      have hpos : 0 < s.unitCapacity.toNat := by omega
      have hwithin : offset + n ≤ s.unitCapacity.toNat := by
        have := Nat.mod_lt addr hpos
        omega
      obtain ⟨u, hu⟩ := exists_unit (show addr < s.size by omega)
      obtain ⟨hsound, hcapacity⟩ := hs.units _ u hu
      have hcall : offset + n ≤ (StorageUnit.capacity u).toNat := by rwa [hcapacity]
      rw [readSpans_cons ⟨addr / s.unitCapacity.toNat, offset, n⟩ hu]
      cases hread : StorageUnit.read offset n u with
      | ok bytes u' =>
          obtain ⟨hbytes, hsound', hcapacity', hkept⟩ := LawfulUnit.read_ok hsound hcall hread
          rw [contents_read_of_unit hu hwithin] at hbytes
          subst hbytes
          have hfollows := follows_setUnit hs hu hsound' hcapacity'
          exact ReadsRange.behind hpos hfollows (contents_setUnit_of_eq hu hkept)
            (ih hfollows.sound (by rw [hfollows.unitCapacity]) (by rw [hfollows.size]; omega))
      | error bytes u' =>
          -- nothing of this span has arrived
          obtain ⟨rfl, hsound', hcapacity', hkept⟩ := LawfulUnit.read_error hsound hcall hread
          have hstart := s.first_unit_start addr
          refine ⟨addr / s.unitCapacity.toNat, rfl, Nat.le_refl _, by omega, ?_,
            follows_setUnit hs hu hsound' hcapacity', contents_setUnit_of_eq hu hkept,
            u, u', offset, n, _, hsound, hcall, hread⟩
          rw [hstart, Memory.read_zero]

/-- Writing a range span by span. -/
theorem writeSpans_split {s : Store υ} (hs : s.Sound) {capacity addr length done : Nat}
    {data : ByteArray} (hcap : s.unitCapacity.toNat = capacity)
    (hrange : addr + length ≤ s.size) (hdata : done + length ≤ data.size) :
    s.WritesRange addr length data done
      (writeSpans data (Span.split capacity addr length) done s) := by
  fun_induction Span.split capacity addr length generalizing s done with
  | case1 addr length hnone =>
      obtain rfl : length = 0 := length_eq_zero_of_split hcap hrange hnone
      exact ⟨.refl hs, by simp⟩
  | case2 addr length hsome offset n =>
      rename_i ih
      subst hcap
      have hpos : 0 < s.unitCapacity.toNat := by omega
      have hsize : (data.extract done (done + n)).size = n := by
        rw [ByteArray.size_extract]
        omega
      have hwithin : offset + n ≤ s.unitCapacity.toNat := by
        have := Nat.mod_lt addr hpos
        omega
      obtain ⟨u, hu⟩ := exists_unit (show addr < s.size by omega)
      obtain ⟨hsound, hcapacity⟩ := hs.units _ u hu
      have hcall : offset + (data.extract done (done + n)).size
          ≤ (StorageUnit.capacity u).toNat := by
        rwa [hsize, hcapacity]
      rw [writeSpans_cons ⟨addr / s.unitCapacity.toNat, offset, n⟩ hu]
      cases hwrite : StorageUnit.write offset (data.extract done (done + n)) u with
      | ok _ u' =>
          obtain ⟨hsound', hcapacity', hkept⟩ := LawfulUnit.write_ok hsound hcall hwrite
          have hfollows := follows_setUnit hs hu hsound' hcapacity'
          have hcontents : (s.setUnit (addr / s.unitCapacity.toNat) u').contents
              = s.contents.write addr (data.extract done (done + n)) :=
            contents_write_of_unit hu (by rwa [hsize]) hkept
          have hleft : done + n + (length - n) ≤ data.size := by omega
          exact WritesRange.behind hpos hdata hfollows hcontents
            (ih hfollows.sound (by rw [hfollows.unitCapacity])
              (by rw [hfollows.size]; omega) hleft)
      | error _ u' =>
          -- nothing of this span has been written
          obtain ⟨hsound', hcapacity', hkept⟩ := LawfulUnit.write_error hsound hcall hwrite
          have hstart := s.first_unit_start addr
          refine ⟨addr / s.unitCapacity.toNat, rfl, Nat.le_refl _, by omega,
            follows_setUnit hs hu hsound' hcapacity', ?_,
            u, u', offset, _, hsound, hcall, hwrite⟩
          rw [contents_setUnit_of_eq hu hkept, hstart]
          simp

/-! ## Requests -/

omit [LawfulUnit υ] [StorageUnit υ] in
/-- A store that can tell its size refuses what ends behind it. -/
theorem refusal?_eq {s : Store υ} (hsize : s.size < 2 ^ 64) (addr : UInt32) (length : Nat) :
    s.refusal? addr length =
      if s.size < addr.toNat + length then some (.outOfRange addr length s.size) else none := by
  rw [refusal?, capacity_eq hsize]
  simp only [toNat_size hsize]

omit [LawfulUnit υ] [StorageUnit υ] in
theorem refusal?_eq_none {s : Store υ} (hsize : s.size < 2 ^ 64) {addr : UInt32} {length : Nat}
    (h : addr.toNat + length ≤ s.size) : s.refusal? addr length = none := by
  rw [refusal?_eq hsize, if_neg (Nat.not_lt.mpr h)]

/-- Counting a request leaves the units alone. -/
theorem follows_count {s : Store υ} (hs : s.Sound) (reads writes : UInt64) :
    s.Follows { s with reads := reads, writes := writes } :=
  ⟨⟨hs.units, hs.size_lt⟩, rfl, rfl⟩

/-- A read within the store answers the bytes of its memory, or fails at the unit named in the
error with the bytes in front of that unit. -/
theorem read_spec {s : Store υ} (hs : s.Sound) {addr : UInt32} {length : Nat}
    (h : addr.toNat + length ≤ s.size) :
    s.ReadsRange addr.toNat length ByteArray.empty (Store.read addr length s) := by
  simp only [Store.read, refusal?_eq_none hs.size_lt h]
  have hcount := follows_count hs (s.reads + 1) s.writes
  exact .of_follows hcount rfl (readSpans_split hcount.sound rfl h)

/-- A write within the store replaces the bytes of its memory, or fails at the unit named in the
error with the bytes in front of that unit replaced. -/
theorem write_spec {s : Store υ} (hs : s.Sound) {addr : UInt32} {data : ByteArray}
    (h : addr.toNat + data.size ≤ s.size) :
    s.WritesRange addr.toNat data.size data 0 (Store.write addr data s) := by
  simp only [Store.write, refusal?_eq_none hs.size_lt h]
  have hcount := follows_count hs s.reads (s.writes + 1)
  exact .of_follows hcount rfl
    (writeSpans_split hcount.sound rfl h (Nat.le_of_eq (Nat.zero_add _)))

/-- A write within the store succeeds if no unit fails. -/
theorem write_succeeds {υ : Type} [StorageUnit υ] [ReliableUnit υ] {s : Store υ} (hs : s.Sound)
    {addr : UInt32} {data : ByteArray} (h : addr.toNat + data.size ≤ s.size) :
    ∃ s', Store.write addr data s = .ok () s' ∧ s.Follows s' ∧
      s'.contents = s.contents.write addr.toNat data := by
  have hspec := write_spec hs h
  revert hspec
  cases Store.write addr data s with
  | ok _ s' =>
      rintro ⟨hfollows, hcontents⟩
      rw [Nat.zero_add, ByteArray.extract_zero_size] at hcontents
      exact ⟨s', rfl, hfollows, hcontents⟩
  | error error s' =>
      rintro ⟨unit, -, -, -, -, -, hfails⟩
      exact absurd hfails (ReliableUnit.not_writeFails υ)

end Store

end RiscvMachine
