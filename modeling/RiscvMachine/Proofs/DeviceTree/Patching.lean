import RiscvMachine.DeviceTree.Template
import RiscvMachine.Proofs.Alignment
import RiscvMachine.Proofs.Bytes
import RiscvMachine.Proofs.Panic

set_option autoImplicit false

/-! # Filling in the size of RAM

A device tree has one cell that is written again at every boot, in place. While the cell lies in
the tree, that changes its four bytes only, however often it is done
(`DeviceTree.patchAll_patched`), and where the tree goes in RAM depends on its size alone
(`DeviceTree.placement_isGreatest`).

The cell of a custom tree lies where its owner says. The tree is taken if that is a multiple of four
inside the tree, and then the cell can be written (`DeviceTree.ofBlob_patchable`). The end of the
cell is reckoned in 64 bits, which the last multiple of four overflows.
-/

namespace RiscvMachine

namespace DeviceTree

/-! ## The RAM-size cell -/

/-- The cell is out of reach if its end cannot be reckoned, or lies behind the tree. -/
theorem cellOffset_eq_ok_iff {t : DeviceTree} {offset : Nat} :
    t.cellOffset = .ok offset ↔ offset = t.ramSizeOffset.toNat ∧
      t.ramSizeOffset.toNat + 4 < 2 ^ 64 ∧ t.ramSizeOffset.toNat + 4 ≤ t.blob.size := by
  unfold cellOffset
  by_cases hlt : t.ramSizeOffset.toNat + 4 < 2 ^ 64
  · have hstop : (UInt64.ofNat (t.ramSizeOffset.toNat + 4)).toNat = t.ramSizeOffset.toNat + 4 :=
      UInt64.toNat_ofNat_of_lt' hlt
    simp only [Checked.add_of_lt hlt, bind, Except.bind, hstop]
    by_cases hpast : t.blob.size < t.ramSizeOffset.toNat + 4
    · rw [if_pos hpast]
      exact ⟨nofun, fun h => by omega⟩
    · rw [if_neg hpast]
      simp only [pure, Except.pure, Except.ok.injEq]
      omega
  · rw [Checked.add_of_le (Nat.not_lt.mp hlt)]
    exact ⟨nofun, fun h => absurd h.2.1 hlt⟩

theorem withRamSize_eq_ok_iff {t t' : DeviceTree} {value : UInt32} :
    t.withRamSize value = .ok t' ↔
      (t.ramSizeOffset.toNat + 4 < 2 ^ 64 ∧ t.ramSizeOffset.toNat + 4 ≤ t.blob.size) ∧
        t' = { t with
          blob := Bytes.overlay t.blob t.ramSizeOffset.toNat (Bytes.bigEndian 4 value.toNat) } := by
  unfold withRamSize
  constructor
  · intro h
    obtain ⟨offset, hoffset, h⟩ := ok_of_except_bind h
    obtain ⟨rfl, hcell⟩ := cellOffset_eq_ok_iff.mp hoffset
    cases h
    exact ⟨hcell, rfl⟩
  · rintro ⟨hcell, rfl⟩
    rw [cellOffset_eq_ok_iff.mpr ⟨rfl, hcell⟩]
    rfl

section

variable {t t' : DeviceTree} {value : UInt32}

theorem ramSizeOffset_withRamSize (h : t.withRamSize value = .ok t') :
    t'.ramSizeOffset = t.ramSizeOffset := by
  obtain ⟨-, rfl⟩ := withRamSize_eq_ok_iff.mp h
  rfl

/-- Telling the size of RAM in a device tree does not make it larger. -/
theorem size_withRamSize (h : t.withRamSize value = .ok t') : t'.blob.size = t.blob.size := by
  obtain ⟨⟨-, hcell⟩, rfl⟩ := withRamSize_eq_ok_iff.mp h
  rw [Bytes.size_overlay, Bytes.size_bigEndian]
  omega

theorem ramSizeCell_withRamSize (h : t.withRamSize value = .ok t') :
    t'.ramSizeCell = .ok value := by
  obtain ⟨hcell, ht'⟩ := withRamSize_eq_ok_iff.mp h
  have hoffset : t'.cellOffset = .ok t.ramSizeOffset.toNat := by
    rw [cellOffset_eq_ok_iff, ramSizeOffset_withRamSize h, size_withRamSize h]
    exact ⟨rfl, hcell⟩
  rw [ramSizeCell, hoffset]
  show Except.ok (UInt32.ofNat (Bytes.bigEndianAt t'.blob t.ramSizeOffset.toNat 4)) = _
  rw [ht', Bytes.bigEndianAt_overlay]

end

/-- The tree after the values have been written to its cell, one after the other. -/
def patchAll (t : DeviceTree) (values : List UInt32) : Except Panic DeviceTree :=
  values.foldlM withRamSize t

/-- What becomes of the tree when the values are written to its cell. -/
structure Patched (t : DeviceTree) (values : List UInt32) (t' : DeviceTree) : Prop where
  offset : t'.ramSizeOffset = t.ramSizeOffset
  size : t'.blob.size = t.blob.size
  cell : ∀ value, values.getLast? = some value → t'.ramSizeCell = .ok value
  outside : ∀ i, ¬ (t.ramSizeOffset.toNat ≤ i ∧ i < t.ramSizeOffset.toNat + 4) →
    Bytes.byteAt t'.blob i = Bytes.byteAt t.blob i

/-- One more value. -/
theorem Patched.concat {t t' t'' : DeviceTree} {values : List UInt32} (h : t.Patched values t')
    {value : UInt32} (hpatch : t'.withRamSize value = .ok t'') :
    t.Patched (values ++ [value]) t'' where
  offset := (ramSizeOffset_withRamSize hpatch).trans h.offset
  size := (size_withRamSize hpatch).trans h.size
  cell last hlast := by
    rw [List.getLast?_concat, Option.some.injEq] at hlast
    rw [ramSizeCell_withRamSize hpatch, hlast]
  outside i hi := by
    obtain ⟨-, rfl⟩ := withRamSize_eq_ok_iff.mp hpatch
    rw [Bytes.byteAt_overlay, Bytes.size_bigEndian, h.offset, if_neg hi]
    exact h.outside i hi

/-- A cell that lies inside the tree can be written any number of times. -/
theorem patchAll_patched {t : DeviceTree} (hlt : t.ramSizeOffset.toNat + 4 < 2 ^ 64)
    (hcell : t.ramSizeOffset.toNat + 4 ≤ t.blob.size) (values : List UInt32) :
    ∃ t', t.patchAll values = .ok t' ∧ t.Patched values t' := by
  induction values using List.reverseRecOn with
  | nil => exact ⟨t, rfl, rfl, rfl, nofun, fun _ _ => rfl⟩
  | append_singleton values value ih =>
      obtain ⟨t', hall, hpatched⟩ := ih
      have hpatch : t'.withRamSize value = .ok _ :=
        withRamSize_eq_ok_iff.mpr ⟨by rw [hpatched.offset, hpatched.size]; exact ⟨hlt, hcell⟩, rfl⟩
      refine ⟨_, ?_, hpatched.concat hpatch⟩
      have hall' : values.foldlM withRamSize t = .ok t' := hall
      rw [patchAll, List.foldlM_append, hall', ← hpatch]
      simp only [List.foldlM_cons, List.foldlM_nil, bind_pure]
      rfl

/-! ## Where the tree goes -/

/-- How far up the tree goes in RAM of the given size: as high as it fits, at a multiple of
eight. -/
def top (t : DeviceTree) (ramSize : Nat) : Nat :=
  (ramSize - t.blob.size) / 8 * 8

theorem placement_eq_ok_iff {t : DeviceTree} {ramSize offset : UInt32} :
    t.placement ramSize = .ok offset ↔
      t.blob.size ≤ ramSize.toNat ∧ offset.toNat = t.top ramSize.toNat := by
  unfold placement
  by_cases hle : t.blob.size ≤ ramSize.toNat
  · have hblob : (UInt32.ofNat t.blob.size).toNat = t.blob.size :=
      UInt32.toNat_ofNat_of_lt' (hle.trans_lt ramSize.toNat_lt)
    have htop : ((ramSize - UInt32.ofNat t.blob.size) &&& 0xFFFFFFF8).toNat
        = t.top ramSize.toNat := by
      rw [toNat_and_mask (k := 3) (by decide) (by decide),
        UInt32.toNat_sub_of_le _ _ (UInt32.le_iff_toNat_le.mpr (hblob.trans_le hle)), hblob]
      rfl
    rw [if_pos hle, Except.ok.injEq, ← UInt32.toNat_inj, htop, eq_comm]
    exact ⟨fun h => ⟨hle, h⟩, fun h => h.2⟩
  · rw [if_neg hle]
    exact ⟨nofun, fun h => absurd h.1 hle⟩

theorem placement_eq_error {t : DeviceTree} {ramSize : UInt32} {error : DeviceTreeError}
    (h : t.placement ramSize = .error error) : error = .doesNotFit t.blob.size ramSize := by
  unfold placement at h
  split at h
  · cases h
  · cases h
    rfl

/-- A tree that is not larger than RAM has a place. -/
theorem placement_ok_iff {t : DeviceTree} {ramSize : UInt32} :
    (∃ offset, t.placement ramSize = .ok offset) ↔ t.blob.size ≤ ramSize.toNat := by
  constructor
  · rintro ⟨offset, hplaced⟩
    exact (placement_eq_ok_iff.mp hplaced).1
  · intro hle
    cases hplaced : t.placement ramSize with
    | ok offset => exact ⟨offset, rfl⟩
    | error error =>
        rw [placement, if_pos hle] at hplaced
        cases hplaced

/-- No multiple of eight further up leaves room for the tree. -/
theorem placement_isGreatest {t : DeviceTree} {ramSize offset : UInt32}
    (h : t.placement ramSize = .ok offset) :
    IsGreatest {n | 8 ∣ n ∧ n + t.blob.size ≤ ramSize.toNat} offset.toNat := by
  obtain ⟨hle, htop⟩ := placement_eq_ok_iff.mp h
  rw [htop, top]
  refine ⟨⟨⟨_, Nat.mul_comm _ 8⟩, by omega⟩, ?_⟩
  rintro n ⟨⟨k, rfl⟩, hroom⟩
  omega

/-- The device tree fits into RAM where it is placed. -/
theorem placement_fits {t t' : DeviceTree} {ramSize offset value : UInt32}
    (h : t.placement ramSize = .ok offset) (hpatch : t.withRamSize value = .ok t') :
    offset.toNat + t'.blob.size ≤ ramSize.toNat := by
  rw [size_withRamSize hpatch]
  exact (placement_isGreatest h).1.2

/-! ## Custom trees -/

/-- What becomes of a blob whose cell is said to be at the offset. -/
theorem ofBlob_eq (blob : ByteArray) (offset : UInt64) :
    ofBlob blob offset =
      if 4 ∣ offset.toNat then
        if offset.toNat + 4 = 2 ^ 64 then .error (.panic .addition)
        else if blob.size < offset.toNat + 4 then .error (.badOffset offset blob.size)
        else .ok ⟨blob, offset⟩
      else .error (.badOffset offset blob.size) := by
  have hlt : offset.toNat < 2 ^ 64 := offset.toNat_lt
  have hmod : offset % 4 ≠ 0 ↔ ¬ 4 ∣ offset.toNat := by
    rw [ne_eq, ← UInt64.toNat_inj, UInt64.toNat_mod, Nat.dvd_iff_mod_eq_zero]
    rfl
  unfold ofBlob
  by_cases hdvd : 4 ∣ offset.toNat
  · rw [if_neg (fun h => hmod.mp h hdvd), if_pos hdvd]
    by_cases hend : offset.toNat + 4 = 2 ^ 64
    · rw [if_pos hend, Checked.add_of_le (by omega)]
      rfl
    · -- a multiple of four that is not the last one of all lies below its end
      have hless : offset.toNat + 4 < 2 ^ 64 := by omega
      have hstop : (UInt64.ofNat (offset.toNat + 4)).toNat = offset.toNat + 4 :=
        UInt64.toNat_ofNat_of_lt' hless
      rw [if_neg hend, Checked.add_of_lt hless]
      show (if blob.size < (UInt64.ofNat (offset.toNat + 4)).toNat then _ else _) = _
      rw [hstop]
      rfl
  · rw [if_pos (hmod.mpr hdvd), if_neg hdvd]
    rfl

theorem ofBlob_eq_ok_iff {blob : ByteArray} {offset : UInt64} {t : DeviceTree} :
    ofBlob blob offset = .ok t ↔ t = ⟨blob, offset⟩ ∧ 4 ∣ offset.toNat ∧
      offset.toNat + 4 < 2 ^ 64 ∧ offset.toNat + 4 ≤ blob.size := by
  have hlt : offset.toNat < 2 ^ 64 := offset.toNat_lt
  rw [ofBlob_eq]
  split
  · split
    · exact ⟨nofun, fun h => by omega⟩
    split
    · exact ⟨nofun, fun h => by omega⟩
    · rw [Except.ok.injEq, eq_comm]
      exact ⟨fun h => ⟨h, by omega⟩, fun h => h.1⟩
  · exact ⟨nofun, fun h => absurd h.2.1 ‹_›⟩

theorem ofBlob_eq_error {blob : ByteArray} {offset : UInt64} {error : DeviceTreeError}
    (h : ofBlob blob offset = .error error) :
    error = if 4 ∣ offset.toNat ∧ offset.toNat + 4 = 2 ^ 64 then .panic .addition
      else .badOffset offset blob.size := by
  rw [ofBlob_eq] at h
  split at h
  · rename_i hdvd
    split at h
    · rename_i hend
      cases h
      exact (if_pos ⟨hdvd, hend⟩).symm
    · rename_i hend
      split at h
      · cases h
        exact (if_neg fun hboth => hend hboth.2).symm
      · cases h
  · rename_i hdvd
    cases h
    exact (if_neg fun hboth => hdvd hboth.1).symm

/-- A custom tree of fewer than 2^64 bytes is taken as it is if its cell lies inside at a multiple
of four. Otherwise it is refused, or, if the cell is the last one that 64 bits can address, its end
cannot be reckoned. The cell of a tree that was taken can be written any number of times, and read;
that changes no other byte, and not the size. And the tree has a place in RAM if it is not larger,
which is as far up as it fits at a multiple of eight. -/
theorem ofBlob_patchable {blob : ByteArray} (hsize : blob.size < 2 ^ 64) (offset : UInt64) :
    ((∃ t, ofBlob blob offset = .ok t) ↔ 4 ∣ offset.toNat ∧ offset.toNat + 4 ≤ blob.size) ∧
    (∀ error, ofBlob blob offset = .error error →
      error = if 4 ∣ offset.toNat ∧ offset.toNat + 4 = 2 ^ 64 then .panic .addition
        else .badOffset offset blob.size) ∧
    ∀ t, ofBlob blob offset = .ok t →
      t.blob = blob ∧ t.ramSizeOffset = offset ∧
      (∀ values, ∃ t', t.patchAll values = .ok t' ∧ t.Patched values t') ∧
      ∀ ramSize,
        ((∃ place, t.placement ramSize = .ok place) ↔ blob.size ≤ ramSize.toNat) ∧
        (∀ place, t.placement ramSize = .ok place →
          IsGreatest {n | 8 ∣ n ∧ n + blob.size ≤ ramSize.toNat} place.toNat) ∧
        ∀ error, t.placement ramSize = .error error → error = .doesNotFit blob.size ramSize := by
  refine ⟨?_, fun error => ofBlob_eq_error, ?_⟩
  · constructor
    · rintro ⟨t, htaken⟩
      obtain ⟨-, hdvd, -, hcell⟩ := ofBlob_eq_ok_iff.mp htaken
      exact ⟨hdvd, hcell⟩
    · rintro ⟨hdvd, hcell⟩
      exact ⟨_, ofBlob_eq_ok_iff.mpr ⟨rfl, hdvd, by omega, hcell⟩⟩
  · intro t htaken
    obtain ⟨rfl, -, hlt, hcell⟩ := ofBlob_eq_ok_iff.mp htaken
    exact ⟨rfl, rfl, patchAll_patched hlt hcell, fun ramSize =>
      ⟨placement_ok_iff, fun _ => placement_isGreatest, fun _ => placement_eq_error⟩⟩

/-- Twelve bytes with the cell at their end, written twice and placed in a hundred bytes of RAM. -/
theorem ofBlob_patchable_twelve :
    let t : DeviceTree := ⟨⟨#[0xD0, 0x0D, 0xFE, 0xED, 0, 0, 0, 12, 0, 0, 0, 0]⟩, 8⟩
    t.blob.size < 2 ^ 64 ∧ ofBlob t.blob 8 = .ok t ∧
      (∃ t', t.patchAll [0x1000, 0xFFF000] = .ok t' ∧ t'.ramSizeCell = .ok 0xFFF000) ∧
      t.placement 100 = .ok 88 ∧ IsGreatest {n | 8 ∣ n ∧ n + 12 ≤ 100} 88 := by
  intro t
  have hsize : t.blob.size < 2 ^ 64 := by decide
  have hplaced : t.placement 100 = .ok 88 := placement_eq_ok_iff.mpr ⟨by decide, by decide⟩
  have htaken : ofBlob t.blob 8 = .ok t :=
    ofBlob_eq_ok_iff.mpr ⟨rfl, by decide, by decide, by decide⟩
  obtain ⟨-, -, hpatches, hplace⟩ := (ofBlob_patchable hsize 8).2.2 t htaken
  obtain ⟨t', hall, hpatched⟩ := hpatches [0x1000, 0xFFF000]
  exact ⟨hsize, htaken, ⟨t', hall, hpatched.cell _ rfl⟩, hplaced, (hplace 100).2.1 88 hplaced⟩

end DeviceTree

end RiscvMachine
