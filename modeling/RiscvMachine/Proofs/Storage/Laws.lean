import RiscvMachine.Proofs.Memory
import RiscvMachine.Storage.Unit

set_option autoImplicit false

/-! # Laws of storage units

What the backing store may rely on when it calls a unit. A lawful unit keeps bytes: a call that
succeeds reads or replaces exactly the bytes it names, and a call that fails transfers nothing
(`LawfulUnit`). When a unit fails is left open. A reliable unit never fails (`ReliableUnit`).

The laws concern the sound states of a unit and ranges within its capacity. A medium is sound,
and then reliable, while its contents are as long as its capacity: always so in host memory, and
for a file as long as the host does not cut it.
-/

namespace RiscvMachine

/-- Units that keep bytes, and whose failing calls transfer nothing. -/
class LawfulUnit (υ : Type) [StorageUnit υ] where
  /-- The states that the laws are about. -/
  Sound : υ → Prop
  /-- The bytes that a unit keeps. -/
  contents : υ → Memory
  read_ok {u u' : υ} {offset length : Nat} {bytes : ByteArray} :
    Sound u → offset + length ≤ (StorageUnit.capacity u).toNat →
    StorageUnit.read offset length u = .ok bytes u' →
    bytes = (contents u).read offset length ∧ Sound u' ∧
      StorageUnit.capacity u' = StorageUnit.capacity u ∧ contents u' = contents u
  read_error {u u' : υ} {offset length : Nat} {arrived : ByteArray} :
    Sound u → offset + length ≤ (StorageUnit.capacity u).toNat →
    StorageUnit.read offset length u = .error arrived u' →
    arrived = ByteArray.empty ∧ Sound u' ∧
      StorageUnit.capacity u' = StorageUnit.capacity u ∧ contents u' = contents u
  write_ok {u u' : υ} {offset : Nat} {data : ByteArray} :
    Sound u → offset + data.size ≤ (StorageUnit.capacity u).toNat →
    StorageUnit.write offset data u = .ok () u' →
    Sound u' ∧ StorageUnit.capacity u' = StorageUnit.capacity u ∧
      contents u' = (contents u).write offset data
  write_error {u u' : υ} {offset : Nat} {data : ByteArray} :
    Sound u → offset + data.size ≤ (StorageUnit.capacity u).toNat →
    StorageUnit.write offset data u = .error () u' →
    Sound u' ∧ StorageUnit.capacity u' = StorageUnit.capacity u ∧ contents u' = contents u

def LawfulUnit.ReadFails (υ : Type) [StorageUnit υ] [LawfulUnit υ] : Prop :=
  ∃ (u u' : υ) (offset length : Nat) (arrived : ByteArray), LawfulUnit.Sound u ∧
    offset + length ≤ (StorageUnit.capacity u).toNat ∧
    StorageUnit.read offset length u = .error arrived u'

def LawfulUnit.WriteFails (υ : Type) [StorageUnit υ] [LawfulUnit υ] : Prop :=
  ∃ (u u' : υ) (offset : Nat) (data : ByteArray), LawfulUnit.Sound u ∧
    offset + data.size ≤ (StorageUnit.capacity u).toNat ∧
    StorageUnit.write offset data u = .error () u'

class ReliableUnit (υ : Type) [StorageUnit υ] extends LawfulUnit υ where
  read_succeeds {u : υ} {offset length : Nat} :
    Sound u → offset + length ≤ (StorageUnit.capacity u).toNat →
    ∃ bytes u', StorageUnit.read offset length u = .ok bytes u'
  write_succeeds {u : υ} {offset : Nat} {data : ByteArray} :
    Sound u → offset + data.size ≤ (StorageUnit.capacity u).toNat →
    ∃ u', StorageUnit.write offset data u = .ok () u'

theorem ReliableUnit.not_readFails (υ : Type) [StorageUnit υ] [ReliableUnit υ] :
    ¬ LawfulUnit.ReadFails υ := by
  rintro ⟨u, u', offset, length, arrived, hsound, hrange, hread⟩
  obtain ⟨bytes, u'', hok⟩ := ReliableUnit.read_succeeds hsound hrange
  rw [hok] at hread
  cases hread

theorem ReliableUnit.not_writeFails (υ : Type) [StorageUnit υ] [ReliableUnit υ] :
    ¬ LawfulUnit.WriteFails υ := by
  rintro ⟨u, u', offset, data, hsound, hrange, hwrite⟩
  obtain ⟨u'', hok⟩ := ReliableUnit.write_succeeds hsound hrange
  rw [hok] at hwrite
  cases hwrite

/-! ## Media -/

namespace Medium

/-- A medium whose contents have not been cut short. -/
def Intact (m : Medium) : Prop := m.capacity.toNat ≤ m.contents.length

theorem memory_intact (capacity : UInt32) : (memory capacity).Intact := Nat.le_refl _

/-- Reading an intact medium answers its bytes and changes nothing. -/
theorem read_eq {m : Medium} (h : m.Intact) {offset length : Nat}
    (hrange : offset + length ≤ m.capacity.toNat) :
    read offset length m = .ok (Memory.read m.contents.byteAt offset length) m := by
  have hfull : min length (m.contents.length - offset) = length := by
    rw [Intact] at h
    omega
  have hsize : (m.contents.read offset length).size = length := by
    rw [Extent.read, Bytes.size_slice, hfull]
  have hbytes : ∀ i < (m.contents.read offset length).size,
      Bytes.byteAt (m.contents.read offset length) i = m.contents.byteAt (offset + i) := by
    intro i hi
    rw [Extent.read, hfull, Bytes.byteAt_slice, if_pos (by omega)]
    rfl
  have hread := Memory.eq_read hbytes
  rw [hsize] at hread
  rw [read, if_neg (by omega), hread]

/-- Writing a medium replaces the bytes it names. -/
theorem write_contents (m : Medium) (offset : Nat) (data : ByteArray) :
    (m.contents.write offset data).byteAt = Memory.write m.contents.byteAt offset data := by
  funext a
  exact (Memory.write_eq_byteAt_overlay rfl offset data).symm

instance : ReliableUnit Medium where
  Sound := Intact
  contents m := m.contents.byteAt
  read_ok := by
    intro u u' offset length bytes hsound hrange hread
    have heq : StorageUnit.read offset length u = _ := read_eq hsound hrange
    rw [heq] at hread
    cases hread
    exact ⟨rfl, hsound, rfl, rfl⟩
  read_error := by
    intro u u' offset length arrived hsound hrange hread
    have heq : StorageUnit.read offset length u = _ := read_eq hsound hrange
    rw [heq] at hread
    cases hread
  write_ok := by
    intro u u' offset data hsound hrange hwrite
    cases hwrite
    exact ⟨Nat.le_trans hsound (Nat.le_max_left _ _), rfl, write_contents u offset data⟩
  write_error := by
    intro u u' offset data hsound hrange hwrite
    cases hwrite
  read_succeeds := fun hsound hrange => ⟨_, _, read_eq hsound hrange⟩
  write_succeeds := fun _ _ => ⟨_, rfl⟩

end Medium

end RiscvMachine
