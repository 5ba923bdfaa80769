import RiscvMachine.Proofs.Cache.Flush

set_option autoImplicit false

/-! # Making a cache

A cache is made if its sizes are powers of two and the bytes of its lines can be had
(`new_eq_ok_iff`). That leaves two kinds of cache that serve no access: those whose lines have more
than 2^31 bytes, and those over a store that cannot tell its size (`Refuses`). As long as their
lines are vacant, every lookup gives up and leaves lines and store alone (`lookup_of_refuses`), and
a flush has nothing to do (`flush_of_vacant`).
-/

namespace RiscvMachine.Cache

variable {υ : Type} [StorageUnit υ]

omit [StorageUnit υ] in
/-- A cache is made just if its sizes are powers of two, a line has four bytes at least, and there
is memory for the states and the bytes of all lines. It is empty. -/
theorem new_eq_ok_iff {g : CacheGeometry} {store : Store υ} {c : Cache υ} :
    new g store = .ok c ↔ c = empty g store ∧ 4 ≤ g.lineSize.toNat ∧
      g.lineSize.toNat.isPowerOfTwo ∧ g.lineCount.toNat.isPowerOfTwo ∧
      g.lineCount.toNat * lineStateSize < 2 ^ 63 ∧
      g.lineCount.toNat * g.lineSize.toNat < 2 ^ 63 := by
  have hfour : g.lineSize < 4 ↔ ¬ 4 ≤ g.lineSize.toNat := by
    rw [UInt64.lt_iff_toNat_lt, Nat.not_le]
    rfl
  constructor
  · intro h
    simp only [new] at h
    split at h
    · cases h
    · rename_i hsize
      rw [not_or, hfour, Decidable.not_not, Bool.not_eq_true', Bool.not_eq_false,
        isPowerOfTwo_iff] at hsize
      split at h
      · cases h
      · rename_i hcount
        rw [Bool.not_eq_true', Bool.not_eq_false, isPowerOfTwo_iff] at hcount
        obtain ⟨_, hstates, h⟩ := ok_of_except_bind h
        obtain ⟨bytes, hbytes, h⟩ := ok_of_except_bind h
        obtain ⟨_, hallocate, h⟩ := ok_of_except_bind h
        cases h
        -- both allocations have been made, the second one of the product
        have htotal := Checked.allocate_eq_ok hallocate
        rw [(Checked.multiply_eq_ok hbytes).2, Nat.mul_one] at htotal
        exact ⟨rfl, hsize.1, hsize.2, hcount, Checked.allocate_eq_ok hstates, htotal⟩
  · rintro ⟨rfl, hsize, hlineSize, hlineCount, hstates, htotal⟩
    have hbytes : g.lineCount.toNat * g.lineSize.toNat < 2 ^ 64 := by omega
    rw [← isPowerOfTwo_iff] at hlineSize hlineCount
    simp only [new, hfour, hsize, hlineSize, hlineCount, not_true_eq_false, Bool.not_true,
      Bool.false_eq_true, or_self, if_false]
    rw [Checked.allocate_of_lt hstates, Checked.multiply_of_lt hbytes]
    have hexact : (UInt64.ofNat (g.lineCount.toNat * g.lineSize.toNat)).toNat = _ :=
      UInt64.toNat_ofNat_of_lt hbytes
    have hallocate : Checked.allocate (g.lineCount.toNat * g.lineSize.toNat) 1 = .ok () :=
      Checked.allocate_of_lt (by rwa [Nat.mul_one])
    simp only [bind, Except.bind, hexact, hallocate]
    rfl

omit [StorageUnit υ] in
/-- A cache that has been made is valid if its lines have at most 2^31 bytes. -/
theorem valid_of_new {g : CacheGeometry} {store : Store υ} {c : Cache υ}
    (h : new g store = .ok c) (hsize : g.lineSize.toNat ≤ 2 ^ 31) : g.Valid := by
  obtain ⟨-, hfour, hlineSize, hlineCount, -, htotal⟩ := new_eq_ok_iff.mp h
  refine ⟨hlineSize, hfour, hsize, hlineCount, ?_⟩
  rw [Nat.mul_comm]
  omega

/-! ## Caches that serve no access -/

/-- In lines that are too large nothing is looked up. -/
theorem lookup_wide {c : Cache υ} (hsize : c.geometry.lineSize.toNat.isPowerOfTwo)
    (hwide : 2 ^ 31 < c.geometry.lineSize.toNat) (addr : UInt32) (length : Nat) :
    lookup addr length c = .error (.panic .shiftRight) c := by
  unfold lookup
  simp only [bind, EStateM.bind, get, getThe, MonadStateOf.get, EStateM.get,
    CacheGeometry.blockOf_eq_error hsize hwide, orPanic]
  rfl

theorem readNumber_wide {c : Cache υ} (hsize : c.geometry.lineSize.toNat.isPowerOfTwo)
    (hwide : 2 ^ 31 < c.geometry.lineSize.toNat) (width : Width) (addr : UInt32) :
    readNumber width addr c = .error (.panic .shiftRight) c := by
  simp only [readNumber, read, bind, EStateM.bind, lookup_wide hsize hwide]

/-- Lines of more than 2^31 bytes, or a store of 2^64 bytes or more. -/
def Refuses (c : Cache υ) : Prop :=
  c.geometry.lineSize.toNat.isPowerOfTwo ∧ 2 ^ 31 < c.geometry.lineSize.toNat ∨
    2 ^ 64 ≤ c.store.size

theorem flush_of_vacant {c : Cache υ} (hc : c.Vacant) : flush c = .ok () c := by
  apply flush_of_clean
  intro i line block hline
  rw [hc i line hline]
  exact nofun

omit [StorageUnit υ] in
/-- A block cannot be sought in a store that cannot tell its size. -/
theorem rangeOf_of_size {c : Cache υ} (h : 2 ^ 64 ≤ c.store.size) (block : UInt32) :
    ∃ why, c.rangeOf block = .error why := by
  unfold rangeOf
  rw [Store.capacity_eq_error h]
  cases c.geometry.baseOf block with
  | ok base => exact ⟨_, rfl⟩
  | error why => exact ⟨_, rfl⟩

theorem fill_of_size {c : Cache υ} (h : 2 ^ 64 ≤ c.store.size) (index : Nat) (block : UInt32) :
    ∃ why, fill index block c = .error (.panic why) c := by
  obtain ⟨why, hrange⟩ := rangeOf_of_size h block
  exact ⟨why, by rw [fill, hrange]⟩

/-- A lookup gives up before anything has come into a line. -/
theorem lookup_of_refuses {c : Cache υ} (hc : c.Vacant) (h : c.Refuses) (addr : UInt32)
    (length : Nat) :
    ∃ why hits accesses, lookup addr length c = .error (.panic why) (c.count hits accesses) := by
  unfold lookup
  simp only [bind, EStateM.bind, modify, modifyGet, MonadStateOf.modifyGet, get, getThe,
    MonadStateOf.get, EStateM.get]
  cases hblock : c.geometry.blockOf addr with
  | error why => exact ⟨why, c.hits, c.accesses, rfl⟩
  | ok block =>
      simp only [orPanic, pure, EStateM.pure]
      -- the access crosses its line, or the block is sought in the store
      split
      · exact ⟨_, c.hits, c.accesses, rfl⟩
      · have hstore : 2 ^ 64 ≤ (c.count c.hits (c.accesses + 1)).store.size := by
          rcases h with ⟨hsize, hwide⟩ | hstore
          · rw [CacheGeometry.blockOf_eq_error hsize hwide] at hblock
            cases hblock
          · exact hstore
        obtain ⟨why, hfill⟩ := fill_of_size hstore (c.geometry.index block) block
        refine ⟨why, c.hits, c.accesses + 1, ?_⟩
        rw [count] at hfill
        -- the line is vacant, so that nothing is written back before the block is sought
        have hresidency : (c.lines[c.geometry.index block]?.map Line.residency).getD .vacant =
            .vacant := by
          cases hline : c.lines[c.geometry.index block]? with
          | none => rfl
          | some line => exact hc _ line hline
        simp only [EStateM.bind, EStateM.modifyGet, EStateM.get, hresidency, reduceCtorEq, or_self,
          if_false, hfill, count]

end RiscvMachine.Cache
