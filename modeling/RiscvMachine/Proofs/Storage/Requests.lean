import RiscvMachine.Proofs.Cache.Failure
import RiscvMachine.Proofs.Computation

set_option autoImplicit false

/-! # Requests to the backing store

What a request does to the bytes of the joined units, whichever of them fail (`Store.servesRead`,
`Store.servesWrite`). A range is cut into one part for each unit that it touches (`Span.part`), the
parts are served in the order of the units, and the first unit that refuses its part ends the
request (`Store.FirstRefusal`). Since each unit is called once, whether it refuses can be told from
its state before the request.
-/

namespace RiscvMachine

/-! ## The parts of a range -/

namespace Span

/-- The part of a range that lies in a unit. Its length is zero if the range does not touch the
unit. -/
def part (capacity addr length unit : Nat) : Span where
  unit := unit
  offset := addr - unit * capacity
  length := min (addr + length) ((unit + 1) * capacity) - max addr (unit * capacity)

/-- The spans of a range each have a byte at least and end within their unit. -/
theorem mem_split {capacity addr length : Nat} {span : Span}
    (h : span ∈ split capacity addr length) :
    0 < span.length ∧ span.offset + span.length ≤ capacity := by
  fun_induction split capacity addr length with
  | case1 addr length hnone => cases h
  | case2 addr length hsome offset n =>
      rename_i ih
      rcases List.mem_cons.mp h with rfl | h
      · have := Nat.mod_lt addr (show 0 < capacity by omega)
        change 0 < n ∧ offset + n ≤ capacity
        omega
      · exact ih h

/-- Together the spans have the length of the range. -/
theorem sum_split {capacity addr length : Nat} (h : 0 < length → 0 < capacity) :
    ((split capacity addr length).map Span.length).sum = length := by
  fun_induction split capacity addr length with
  | case1 addr length hnone => simp; omega
  | case2 addr length hsome offset n =>
      rename_i ih
      rw [List.map_cons, List.sum_cons, ih (fun _ => by omega)]
      change n + (length - n) = length
      omega

/-- The first part of a range. -/
theorem part_first {capacity addr : Nat} (hpos : 0 < capacity) (length : Nat) :
    part capacity addr length (addr / capacity) =
      ⟨addr / capacity, addr % capacity, min length (capacity - addr % capacity)⟩ := by
  have haddr := Nat.div_add_mod' addr capacity
  have hmod := Nat.mod_lt addr hpos
  rw [part, Nat.succ_mul]
  congr 1 <;> omega

/-- Units in front of a range have no part in it. -/
theorem part_of_lt {capacity addr length unit : Nat} (h : unit < addr / capacity) :
    (part capacity addr length unit).length = 0 := by
  have hle : (unit + 1) * capacity ≤ addr :=
    (Nat.mul_le_mul_right capacity h).trans (Nat.div_mul_le_self addr capacity)
  simp only [part]
  omega

/-- Behind its first part a range is cut as before. -/
theorem part_behind {capacity addr : Nat} (hpos : 0 < capacity) (length : Nat) {unit : Nat}
    (h : addr / capacity < unit) :
    part capacity (addr + min length (capacity - addr % capacity))
      (length - min length (capacity - addr % capacity)) unit = part capacity addr length unit := by
  have haddr := Nat.div_add_mod' addr capacity
  have hle : (addr / capacity + 1) * capacity ≤ unit * capacity := Nat.mul_le_mul_right capacity h
  have hmod := Nat.mod_lt addr hpos
  rw [Nat.succ_mul] at hle
  simp only [part, Nat.succ_mul]
  congr 1 <;> omega

/-- Behind its first part nothing is left of a range in the unit where it starts. -/
theorem part_behind_first {capacity addr : Nat} (hpos : 0 < capacity) (length : Nat) :
    (part capacity (addr + min length (capacity - addr % capacity))
      (length - min length (capacity - addr % capacity)) (addr / capacity)).length = 0 := by
  have haddr := Nat.div_add_mod' addr capacity
  have hmod := Nat.mod_lt addr hpos
  simp only [part, Nat.succ_mul]
  omega

end Span

namespace Store

variable {υ : Type}

/-! ## The unit that ends a request -/

/-- The unit refuses its part of the range; `refuses` tells when a unit refuses a span. -/
def RefusedIn (s : Store υ) (refuses : Span → υ → Prop) (addr length unit : Nat) : Prop :=
  ∃ u, s.units[unit]? = some u ∧ 0 < (Span.part s.unitCapacity.toNat addr length unit).length ∧
    refuses (Span.part s.unitCapacity.toNat addr length unit) u

/-- The first unit that refuses its part of the range; `none` if none does. -/
def FirstRefusal (s : Store υ) (refuses : Span → υ → Prop) (addr length : Nat) :
    Option Nat → Prop
  | none => ∀ unit, ¬ s.RefusedIn refuses addr length unit
  | some unit => s.RefusedIn refuses addr length unit ∧
      ∀ earlier < unit, ¬ s.RefusedIn refuses addr length earlier

variable {s : Store υ} {refuses : Span → υ → Prop} {addr length : Nat}

theorem FirstRefusal.unique {first first' : Option Nat}
    (h : s.FirstRefusal refuses addr length first)
    (h' : s.FirstRefusal refuses addr length first') : first = first' := by
  cases first with
  | none =>
      cases first' with
      | none => rfl
      | some unit => exact absurd h'.1 (h unit)
  | some unit =>
      cases first' with
      | none => exact absurd h.1 (h' unit)
      | some unit' =>
          rcases Nat.lt_trichotomy unit unit' with hlt | rfl | hgt
          · exact absurd h.1 (h'.2 unit hlt)
          · rfl
          · exact absurd h'.1 (h.2 unit' hgt)

/-- An empty range is not refused anywhere. -/
theorem firstRefusal_empty : s.FirstRefusal refuses addr 0 none := by
  rintro unit ⟨u, -, hlength, -⟩
  simp only [Span.part] at hlength
  omega

theorem not_refusedIn_of_lt {unit : Nat} (h : unit < addr / s.unitCapacity.toNat) :
    ¬ s.RefusedIn refuses addr length unit := by
  rintro ⟨u, -, hlength, -⟩
  rw [Span.part_of_lt h] at hlength
  omega

/-- The unit in which the range starts refuses. -/
theorem firstRefusal_first {u : υ} (hpos : 0 < s.unitCapacity.toNat) (hlength : 0 < length)
    (hu : s.units[addr / s.unitCapacity.toNat]? = some u)
    (hrefuses : refuses ⟨addr / s.unitCapacity.toNat, addr % s.unitCapacity.toNat,
      s.firstSpan addr length⟩ u) :
    s.FirstRefusal refuses addr length (some (addr / s.unitCapacity.toNat)) := by
  refine ⟨⟨u, hu, ?_, ?_⟩, fun _ => not_refusedIn_of_lt⟩
  · rw [Span.part_first hpos]
    have := Nat.mod_lt addr hpos
    simp only
    omega
  · rw [Span.part_first hpos]
    exact hrefuses

/-- The unit in which the range starts does not refuse, so the first one to refuse is the first in
the rest of the range. -/
theorem FirstRefusal.behind {u u' : υ} {first : Option Nat} (hpos : 0 < s.unitCapacity.toNat)
    (hu : s.units[addr / s.unitCapacity.toNat]? = some u)
    (hserves : ¬ refuses ⟨addr / s.unitCapacity.toNat, addr % s.unitCapacity.toNat,
      s.firstSpan addr length⟩ u)
    (h : (s.setUnit (addr / s.unitCapacity.toNat) u').FirstRefusal refuses
      (addr + s.firstSpan addr length) (length - s.firstSpan addr length) first) :
    s.FirstRefusal refuses addr length first := by
  -- the units behind are as they were, and so are their parts
  have hiff : ∀ unit, (s.setUnit (addr / s.unitCapacity.toNat) u').RefusedIn refuses
      (addr + s.firstSpan addr length) (length - s.firstSpan addr length) unit ↔
      s.RefusedIn refuses addr length unit := by
    intro unit
    rcases Nat.lt_trichotomy unit (addr / s.unitCapacity.toNat) with hlt | rfl | hgt
    · have hle : unit < (addr + s.firstSpan addr length) / s.unitCapacity.toNat :=
        hlt.trans_le (Nat.div_le_div_right (Nat.le_add_right _ _))
      exact iff_of_false (not_refusedIn_of_lt hle) (not_refusedIn_of_lt hlt)
    · refine iff_of_false ?_ ?_
      · rintro ⟨-, -, hlength, -⟩
        rw [setUnit, firstSpan, Span.part_behind_first hpos] at hlength
        exact absurd hlength (Nat.lt_irrefl 0)
      · rintro ⟨v, hv, -, hrefuses⟩
        cases hu.symm.trans hv
        rw [Span.part_first hpos] at hrefuses
        exact hserves hrefuses
    · simp only [RefusedIn, setUnit, firstSpan, Array.getElem?_setIfInBounds,
        if_neg (Nat.ne_of_lt hgt), Span.part_behind hpos length hgt]
  cases first with
  | none => exact fun unit => mt (hiff unit).mpr (h unit)
  | some unit => exact ⟨(hiff unit).mp h.1, fun w hw => mt (hiff w).mpr (h.2 w hw)⟩

/-! ## Which unit ends a request -/

section

variable [StorageUnit υ]

def ReadRefuses (span : Span) (u : υ) : Prop :=
  ∃ arrived u', StorageUnit.read span.offset span.length u = .error arrived u'

/-- The unit fails to write its part of `data`, which is meant for the range from `start` on. -/
def WriteRefuses (capacity start : Nat) (data : ByteArray) (span : Span) (u : υ) : Prop :=
  ∃ u', StorageUnit.write span.offset
    (data.extract (span.unit * capacity + span.offset - start)
      (span.unit * capacity + span.offset - start + span.length)) u = .error () u'

theorem readSpans_first {s : Store υ} {capacity addr length : Nat} {arrived : ByteArray}
    (hcap : s.unitCapacity.toNat = capacity) (hrange : addr + length ≤ s.size) :
    Ends (fun _ _ => s.FirstRefusal ReadRefuses addr length none)
      (fun failure _ => ∃ unit, failure.error = .io unit ∧
        s.FirstRefusal ReadRefuses addr length (some unit))
      (readSpans (Span.split capacity addr length) arrived s) := by
  fun_induction Span.split capacity addr length generalizing s arrived with
  | case1 addr length hnone =>
      obtain rfl : length = 0 := length_eq_zero_of_split hcap hrange hnone
      exact .ok firstRefusal_empty
  | case2 addr length hsome offset =>
      rename_i n ih
      subst hcap
      have hpos : 0 < s.unitCapacity.toNat := by omega
      have hn : n ≤ length := Nat.min_le_left _ _
      obtain ⟨u, hu⟩ := exists_unit (show addr < s.size by omega)
      -- the rest of the range is cut for a store in which this unit has been called
      rw [readSpans_cons ⟨addr / s.unitCapacity.toNat, offset, n⟩ hu]
      cases hread : StorageUnit.read offset n u with
      | ok bytes u' =>
          have hserves : ¬ ReadRefuses ⟨addr / s.unitCapacity.toNat, offset, n⟩ u := by
            rintro ⟨arrived', u'', herror⟩
            cases hread.symm.trans herror
          refine (ih (s := s.setUnit (addr / s.unitCapacity.toNat) u') rfl
            (by rw [size_setUnit]; omega)).imp ?_ ?_
          · exact fun _ _ h => h.behind hpos hu hserves
          · rintro _ _ ⟨unit, herror, h⟩
            exact ⟨unit, herror, h.behind hpos hu hserves⟩
      | error bytes u' =>
          exact .error ⟨_, rfl, firstRefusal_first hpos (by omega) hu ⟨bytes, u', hread⟩⟩

theorem writeSpans_first {s : Store υ} {capacity start addr length : Nat} {data : ByteArray}
    (hcap : s.unitCapacity.toNat = capacity) (hrange : addr + length ≤ s.size)
    (hstart : start ≤ addr) :
    Ends (fun _ _ => s.FirstRefusal (WriteRefuses capacity start data) addr length none)
      (fun error _ => ∃ unit, error = .io unit ∧
        s.FirstRefusal (WriteRefuses capacity start data) addr length (some unit))
      (writeSpans data (Span.split capacity addr length) (addr - start) s) := by
  fun_induction Span.split capacity addr length generalizing s with
  | case1 addr length hnone =>
      obtain rfl : length = 0 := length_eq_zero_of_split hcap hrange hnone
      exact .ok firstRefusal_empty
  | case2 addr length hsome offset =>
      rename_i n ih
      subst hcap
      have hpos : 0 < s.unitCapacity.toNat := by omega
      have hn : n ≤ length := Nat.min_le_left _ _
      have haddr : addr / s.unitCapacity.toNat * s.unitCapacity.toNat + offset = addr :=
        Nat.div_add_mod' addr _
      obtain ⟨u, hu⟩ := exists_unit (show addr < s.size by omega)
      rw [writeSpans_cons ⟨addr / s.unitCapacity.toNat, offset, n⟩ hu]
      cases hwrite : StorageUnit.write offset
          (data.extract (addr - start) (addr - start + n)) u with
      | ok _ u' =>
          have hserves : ¬ WriteRefuses s.unitCapacity.toNat start data
              ⟨addr / s.unitCapacity.toNat, offset, n⟩ u := by
            rintro ⟨u'', herror⟩
            simp only [haddr] at herror
            cases hwrite.symm.trans herror
          -- the data behind this span is where the next span looks for it
          rw [show addr - start + n = addr + n - start by omega]
          refine (ih (s := s.setUnit (addr / s.unitCapacity.toNat) u') rfl
            (by rw [size_setUnit]; omega) (by omega)).imp ?_ ?_
          · exact fun _ _ h => h.behind hpos hu hserves
          · rintro _ _ ⟨unit, herror, h⟩
            exact ⟨unit, herror, h.behind hpos hu hserves⟩
      | error _ u' =>
          have hrefuses : WriteRefuses s.unitCapacity.toNat start data
              ⟨addr / s.unitCapacity.toNat, offset, n⟩ u := by
            refine ⟨u', ?_⟩
            simp only [haddr]
            exact hwrite
          exact .error ⟨_, rfl, firstRefusal_first hpos (by omega) hu hrefuses⟩

/-! ## What every call on a unit preserves -/

/-- What the calls on the spans preserve, reading them preserves. -/
theorem readSpans_keeps {P : Store υ → Prop} {spans : List Span}
    (hcall : ∀ span ∈ spans, ∀ s, P s →
      P (onUnit span.unit (StorageUnit.read span.offset span.length) s).2)
    (arrived : ByteArray) {s : Store υ} (hs : P s) :
    P (stateOf (readSpans spans arrived s)) := by
  induction spans generalizing arrived s with
  | nil => exact hs
  | cons span rest ih =>
      have hfirst := hcall span (List.mem_cons_self ..) s hs
      simp only [readSpans]
      revert hfirst
      rcases onUnit span.unit (StorageUnit.read span.offset span.length) s with
        ⟨_ | _ | bytes, s'⟩
      · exact id
      · exact id
      · exact fun hfirst => ih (fun span h => hcall span (List.mem_cons_of_mem _ h)) _ hfirst

/-- What the calls on the spans preserve, writing them preserves. -/
theorem writeSpans_keeps {P : Store υ → Prop} {spans : List Span}
    (hcall : ∀ span ∈ spans, ∀ bytes : ByteArray, bytes.size ≤ span.length → ∀ s, P s →
      P (onUnit span.unit (StorageUnit.write span.offset bytes) s).2)
    (data : ByteArray) (done : Nat) {s : Store υ} (hs : P s) :
    P (stateOf (writeSpans data spans done s)) := by
  induction spans generalizing done s with
  | nil => exact hs
  | cons span rest ih =>
      have hsize : (data.extract done (done + span.length)).size ≤ span.length := by
        rw [ByteArray.size_extract]
        omega
      have hfirst := hcall span (List.mem_cons_self ..) _ hsize s hs
      simp only [writeSpans]
      revert hfirst
      rcases onUnit span.unit (StorageUnit.write span.offset
        (data.extract done (done + span.length))) s with ⟨_ | _ | _, s'⟩
      · exact id
      · exact id
      · exact fun hfirst =>
          ih (fun span h => hcall span (List.mem_cons_of_mem _ h)) _ hfirst

def Counts (reads writes : UInt64) (s : Store υ) : Prop :=
  s.reads = reads ∧ s.writes = writes

omit [StorageUnit υ] in
theorem Counts.onUnit {ε α : Type} {reads writes : UInt64} {s : Store υ} (h : s.Counts reads writes)
    (i : Nat) (call : EStateM ε υ α) : (Store.onUnit i call s).2.Counts reads writes := by
  cases s
  exact h

/-- A read that is not refused is counted, whatever comes of it. -/
theorem read_counts {s : Store υ} {addr : UInt32} {length : Nat}
    (h : s.refusal? addr length = none) :
    (stateOf (Store.read addr length s)).Counts (s.reads + 1) s.writes := by
  simp only [Store.read, h]
  exact readSpans_keeps (fun _ _ _ h => h.onUnit _ _) _ ⟨rfl, rfl⟩

/-- A write that is not refused is counted, whatever comes of it. -/
theorem write_counts {s : Store υ} {addr : UInt32} {data : ByteArray}
    (h : s.refusal? addr data.size = none) :
    (stateOf (Store.write addr data s)).Counts s.reads (s.writes + 1) := by
  simp only [Store.write, h]
  exact writeSpans_keeps (fun _ _ _ _ _ h => h.onUnit _ _) _ _ ⟨rfl, rfl⟩

end

/-! ## The bytes of all units -/

/-- Memories of one size, one after the other, as one memory. -/
def chain (memories : List Memory) (size : Nat) : Memory := fun a =>
  match memories[a / size]? with
  | some m => m (a % size)
  | none => 0

theorem foldr_read (memories : List Memory) (size : Nat) :
    memories.foldr (fun m rest => m.read 0 size ++ rest) ByteArray.empty =
      (chain memories size).read 0 (memories.length * size) := by
  induction memories with
  | nil => simp
  | cons m rest ih =>
      rw [List.foldr_cons, ih, List.length_cons, Nat.succ_mul, Nat.add_comm, Memory.read_add]
      congr 1
      · apply Memory.read_congr
        intro a ha
        rw [Nat.zero_add, chain, Nat.div_eq_of_lt ha, Nat.mod_eq_of_lt ha]
        rfl
      · apply Memory.read_congr
        intro a ha
        have hpos : 0 < size := Nat.pos_of_mul_pos_left (Nat.zero_lt_of_lt ha)
        simp only [chain, Nat.zero_add, Nat.add_div_left a hpos, Nat.add_mod_left,
          List.getElem?_cons_succ]

/-- A stretch of a memory, cut out of a longer one. -/
theorem read_eq_extract (m : Memory) {addr n size : Nat} (h : addr + n ≤ size) :
    m.read addr n = (m.read 0 size).extract addr (addr + n) := by
  apply Bytes.ext_byteAt
  · rw [Memory.size_read, ByteArray.size_extract, Memory.size_read]
    omega
  · intro i hi
    rw [Memory.size_read] at hi
    rw [Memory.byteAt_read m addr hi, Bytes.byteAt_extract, if_pos (by omega),
      Memory.byteAt_read m 0 (by omega), Nat.zero_add]

/-- A memory after a write, cut at the ends of what has been written. -/
theorem read_write (m : Memory) {addr size : Nat} {data : ByteArray}
    (h : addr + data.size ≤ size) :
    (m.write addr data).read 0 size =
      (m.read 0 size).extract 0 addr ++ data ++
        (m.read 0 size).extract (addr + data.size) size := by
  have hfront : ((m.read 0 size).extract 0 addr).size = addr := by
    rw [ByteArray.size_extract, Memory.size_read]
    omega
  apply Bytes.ext_byteAt
  · rw [ByteArray.size_append, ByteArray.size_append, hfront, ByteArray.size_extract,
      Memory.size_read, Memory.size_read]
    omega
  · intro i hi
    rw [Memory.size_read] at hi
    rw [Memory.byteAt_read _ 0 hi, Nat.zero_add, Bytes.byteAt_append, Bytes.byteAt_append,
      ByteArray.size_append, hfront, Bytes.byteAt_extract, Bytes.byteAt_extract]
    rcases Nat.lt_or_ge i addr with hlt | hge
    · rw [Memory.write_of_not_mem (.inl hlt), if_pos (by omega), if_pos hlt, if_pos (by omega),
        Memory.byteAt_read m 0 (by omega), Nat.zero_add, Nat.zero_add]
    rcases Nat.lt_or_ge i (addr + data.size) with hin | hbehind
    · rw [Memory.write_of_mem ⟨hge, hin⟩, if_pos hin, if_neg (Nat.not_lt.mpr hge)]
    · rw [Memory.write_of_not_mem (.inr hbehind), if_neg (Nat.not_lt.mpr hbehind),
        if_pos (by omega), Memory.byteAt_read m 0 (by omega)]
      congr 1
      omega

section

variable [StorageUnit υ] [LawfulUnit υ]

/-- The bytes of the units, one unit after the other. -/
def joined (s : Store υ) : ByteArray :=
  s.units.toList.foldr
    (fun u rest => (LawfulUnit.contents u).read 0 s.unitCapacity.toNat ++ rest) ByteArray.empty

/-- The bytes of the units are those of the memory that the store shows. -/
theorem joined_eq (s : Store υ) : s.joined = s.contents.read 0 s.size := by
  have hchain :
      s.contents = chain (s.units.toList.map LawfulUnit.contents) s.unitCapacity.toNat := by
    funext a
    simp only [contents, chain, List.getElem?_map, Array.getElem?_toList]
    cases s.units[a / s.unitCapacity.toNat]? <;> rfl
  have hflat := foldr_read (s.units.toList.map LawfulUnit.contents) s.unitCapacity.toNat
  rw [List.foldr_map, List.length_map, Array.length_toList] at hflat
  rw [joined, hflat, hchain]
  rfl

/-- A stretch of the memory that the store shows, cut out of the bytes of the units. -/
theorem contents_read_eq {s : Store υ} {addr length : Nat} (h : addr + length ≤ s.size) :
    s.contents.read addr length = s.joined.extract addr (addr + length) := by
  rw [joined_eq, read_eq_extract _ h]

/-- The bytes of the units where the store's memory has been written. -/
theorem joined_of_write {s s' : Store υ} {addr : Nat} {data : ByteArray} (hfollows : s.Follows s')
    (hcontents : s'.contents = s.contents.write addr data) (h : addr + data.size ≤ s.size) :
    s'.joined =
      s.joined.extract 0 addr ++ data ++ s.joined.extract (addr + data.size) s.size := by
  rw [joined_eq, joined_eq, hfollows.size, hcontents, read_write _ h]

theorem joined_of_contents {s s' : Store υ} (hfollows : s.Follows s')
    (hcontents : s'.contents = s.contents) : s'.joined = s.joined := by
  rw [joined_eq, joined_eq, hfollows.size, hcontents]

/-! ## One request -/

structure ServesRead (s : Store υ) (addr : UInt32) (length : Nat) : Prop where
  /-- A range that ends behind the last byte is refused, and nothing changes. -/
  refused : s.size < addr.toNat + length →
    Store.read addr length s = .error ⟨.outOfRange addr length s.size, ByteArray.empty⟩ s
  /-- If no unit fails, the read answers the bytes of the range. -/
  answered : addr.toNat + length ≤ s.size →
    s.FirstRefusal ReadRefuses addr.toNat length none →
    ∃ s', Store.read addr length s = .ok (s.joined.extract addr.toNat (addr.toNat + length)) s' ∧
      s'.joined = s.joined ∧ s'.Counts (s.reads + 1) s.writes
  /-- If a unit fails, the bytes of the range that lie in the units in front of the first one to
  fail have arrived. -/
  failed : addr.toNat + length ≤ s.size → ∀ unit,
    s.FirstRefusal ReadRefuses addr.toNat length (some unit) →
    ∃ s', Store.read addr length s = .error ⟨.io unit, s.joined.extract addr.toNat
        (max addr.toNat (unit * s.unitCapacity.toNat))⟩ s' ∧
      s'.joined = s.joined ∧ s'.Counts (s.reads + 1) s.writes

structure ServesWrite (s : Store υ) (addr : UInt32) (data : ByteArray) : Prop where
  /-- A range that ends behind the last byte is refused, and nothing changes. -/
  refused : s.size < addr.toNat + data.size →
    Store.write addr data s = .error (.outOfRange addr data.size s.size) s
  /-- If no unit fails, the bytes of the range are replaced and no others. -/
  answered : addr.toNat + data.size ≤ s.size →
    s.FirstRefusal (WriteRefuses s.unitCapacity.toNat addr.toNat data) addr.toNat data.size none →
    ∃ s', Store.write addr data s = .ok () s' ∧
      s'.joined = s.joined.extract 0 addr.toNat ++ data ++
        s.joined.extract (addr.toNat + data.size) s.size ∧
      s'.Counts s.reads (s.writes + 1)
  /-- If a unit fails, the bytes of the range that lie in the units in front of the first one to
  fail have been replaced. -/
  failed : addr.toNat + data.size ≤ s.size → ∀ unit,
    s.FirstRefusal (WriteRefuses s.unitCapacity.toNat addr.toNat data) addr.toNat data.size
      (some unit) →
    ∃ s', Store.write addr data s = .error (.io unit) s' ∧
      s'.joined = s.joined.extract 0 addr.toNat ++
        data.extract 0 (unit * s.unitCapacity.toNat - addr.toNat) ++
        s.joined.extract (max addr.toNat (unit * s.unitCapacity.toNat)) s.size ∧
      s'.Counts s.reads (s.writes + 1)

omit [LawfulUnit υ] in
/-- A read within the store ends at the first unit that refuses its part. -/
theorem read_first {s : Store υ} (hsize : s.size < 2 ^ 64) {addr : UInt32} {length : Nat}
    (h : addr.toNat + length ≤ s.size) :
    Ends (fun _ _ => s.FirstRefusal ReadRefuses addr.toNat length none)
      (fun failure _ => ∃ unit, failure.error = .io unit ∧
        s.FirstRefusal ReadRefuses addr.toNat length (some unit)) (Store.read addr length s) := by
  simp only [Store.read, refusal?_eq_none hsize h]
  exact readSpans_first (s := { s with reads := s.reads + 1 }) rfl h

omit [LawfulUnit υ] in
/-- A write within the store ends at the first unit that refuses its part. -/
theorem write_first {s : Store υ} (hsize : s.size < 2 ^ 64) {addr : UInt32} {data : ByteArray}
    (h : addr.toNat + data.size ≤ s.size) :
    Ends (fun _ _ => s.FirstRefusal (WriteRefuses s.unitCapacity.toNat addr.toNat data)
        addr.toNat data.size none)
      (fun error _ => ∃ unit, error = .io unit ∧
        s.FirstRefusal (WriteRefuses s.unitCapacity.toNat addr.toNat data) addr.toNat data.size
          (some unit)) (Store.write addr data s) := by
  simp only [Store.write, refusal?_eq_none hsize h]
  rw [← Nat.sub_self addr.toNat]
  exact writeSpans_first (s := { s with writes := s.writes + 1 }) rfl h (Nat.le_refl addr.toNat)

theorem servesRead {s : Store υ} (hs : s.Sound) (addr : UInt32) (length : Nat) :
    s.ServesRead addr length := by
  refine ⟨fun h => by simp only [Store.read, refusal?_eq hs.size_lt, if_pos h], ?_, ?_⟩
  · intro h hnone
    have hspec := read_spec hs h
    have hcounts := read_counts (refusal?_eq_none hs.size_lt h)
    have hfirst := read_first hs.size_lt h
    revert hspec hcounts hfirst
    cases Store.read addr length s with
    | ok bytes s' =>
        rintro ⟨hbytes, hfollows, hcontents⟩ hcounts -
        rw [ByteArray.empty_append, contents_read_eq h] at hbytes
        exact ⟨s', hbytes ▸ rfl, joined_of_contents hfollows hcontents, hcounts⟩
    | error failure s' =>
        rintro - - hfirst
        obtain ⟨unit, -, hsome⟩ := hfirst.of_error
        cases hnone.unique hsome
  · intro h unit hsome
    have hspec := read_spec hs h
    have hcounts := read_counts (refusal?_eq_none hs.size_lt h)
    have hfirst := read_first hs.size_lt h
    revert hspec hcounts hfirst
    cases Store.read addr length s with
    | ok bytes s' =>
        rintro - - hfirst
        cases hsome.unique hfirst.of_ok
    | error failure s' =>
        rintro ⟨unit', herror, -, hbehind, harrived, hfollows, hcontents, -⟩ hcounts hfirst
        obtain ⟨unit'', herror', hsome'⟩ := hfirst.of_error
        cases hsome.unique hsome'
        cases herror.symm.trans herror'
        -- the bytes that lie in front of the unit have arrived
        rw [ByteArray.empty_append, contents_read_eq (by omega), add_tsub_eq_max] at harrived
        obtain ⟨error, arrived⟩ := failure
        cases herror
        cases harrived
        exact ⟨s', rfl, joined_of_contents hfollows hcontents, hcounts⟩

theorem servesWrite {s : Store υ} (hs : s.Sound) (addr : UInt32) (data : ByteArray) :
    s.ServesWrite addr data := by
  refine ⟨fun h => by simp only [Store.write, refusal?_eq hs.size_lt, if_pos h], ?_, ?_⟩
  · intro h hnone
    have hspec := write_spec hs h
    have hcounts := write_counts (refusal?_eq_none hs.size_lt h)
    have hfirst := write_first hs.size_lt h
    revert hspec hcounts hfirst
    cases Store.write addr data s with
    | ok _ s' =>
        rintro ⟨hfollows, hcontents⟩ hcounts -
        rw [Nat.zero_add, ByteArray.extract_zero_size] at hcontents
        exact ⟨s', rfl, joined_of_write hfollows hcontents h, hcounts⟩
    | error error s' =>
        rintro - - hfirst
        obtain ⟨unit, -, hsome⟩ := hfirst.of_error
        cases hnone.unique hsome
  · intro h unit hsome
    have hspec := write_spec hs h
    have hcounts := write_counts (refusal?_eq_none hs.size_lt h)
    have hfirst := write_first hs.size_lt h
    revert hspec hcounts hfirst
    cases Store.write addr data s with
    | ok _ s' =>
        rintro - - hfirst
        cases hsome.unique hfirst.of_ok
    | error error s' =>
        rintro ⟨unit', herror, -, hbehind, hfollows, hcontents, -⟩ hcounts hfirst
        obtain ⟨unit'', herror', hsome'⟩ := hfirst.of_error
        cases hsome.unique hsome'
        cases herror.symm.trans herror'
        cases herror
        -- the bytes that lie in front of the unit have been written
        have hsize : (data.extract 0 (unit * s.unitCapacity.toNat - addr.toNat)).size =
            unit * s.unitCapacity.toNat - addr.toNat := by
          rw [ByteArray.size_extract]
          omega
        rw [Nat.zero_add] at hcontents
        have hjoined := joined_of_write hfollows hcontents (by omega)
        rw [hsize, add_tsub_eq_max] at hjoined
        exact ⟨s', rfl, hjoined, hcounts⟩

end

end Store

end RiscvMachine
