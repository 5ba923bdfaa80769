import RiscvMachine.Storage.Extent

set_option autoImplicit false

/-! # Storage units

A unit is one chip or file of fixed capacity, addressed from zero. The backing store joins
units and asks only three things of them, so any type of states with these calls will do: a
unit may fail whenever and however it likes.

`Medium` is the unit that the machine is built with: guest memory on the host, or a file whose
length the host may change behind the machine's back.
-/

namespace RiscvMachine

/-- The calls of a storage unit whose states are `υ`. The ranges of calls lie within the
capacity. A failed read still tells which bytes arrived before it failed. -/
class StorageUnit (υ : Type) where
  capacity : υ → UInt32
  read : (offset length : Nat) → EStateM ByteArray υ ByteArray
  write : (offset : Nat) → (data : ByteArray) → EStateM Unit υ Unit

/-- A unit of the given capacity with its contents. -/
structure Medium where
  capacity : UInt32
  contents : Extent
  deriving Inhabited

namespace Medium

def memory (capacity : UInt32) : Medium :=
  ⟨capacity, Extent.zeros capacity.toNat⟩

/-- A unit over a file, which is cut or lengthened to the unit's capacity when it is opened. -/
def ofFile (capacity : UInt32) (file : Extent) : Medium :=
  ⟨capacity, file.resize capacity.toNat⟩

/-- A read fails where the contents end early, after the bytes that are there. -/
def read (offset length : Nat) : EStateM ByteArray Medium ByteArray := fun m =>
  let bytes := m.contents.read offset length
  if bytes.size < length then .error bytes m else .ok bytes m

/-- A write always succeeds. -/
def write (offset : Nat) (data : ByteArray) : EStateM Unit Medium Unit :=
  fun ⟨capacity, contents⟩ => .ok () ⟨capacity, contents.write offset data⟩

instance : StorageUnit Medium where
  capacity := Medium.capacity
  read := Medium.read
  write := Medium.write

end Medium

/-- The unit files of a directory, in the order of their numbers. -/
structure UnitDirectory where
  files : Array Extent
  deriving Inhabited

namespace UnitDirectory

/-- Opens the first `count` unit files, creating those that do not exist. -/
def openUnits (dir : UnitDirectory) (count : Nat) (capacity : UInt32) : Array Medium :=
  Array.ofFn fun i : Fin count =>
    Medium.ofFile capacity (dir.files[i.val]?.getD (Extent.zeros 0))

/-- The directory after the units over its first files have been used. -/
def keep (dir : UnitDirectory) (units : Array Medium) : UnitDirectory :=
  ⟨units.map Medium.contents ++ dir.files.extract units.size⟩

end UnitDirectory

end RiscvMachine
