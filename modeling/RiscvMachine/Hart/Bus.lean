import RiscvMachine.Bytes.Width
import RiscvMachine.Storage.Error

set_option autoImplicit false

/-! # The bus

What the hart can ask of its surroundings: reads and writes of memory and devices at naturally
aligned addresses, and the control registers that it does not hold itself. A bus is any type
of states with these four calls. A call leaves a state behind also when it fails.
-/

namespace RiscvMachine

inductive BusFault
  /-- Nothing answers at the address. The guest sees an exception. -/
  | unmapped
  /-- The backing store failed. The session ends. -/
  | storage (error : StorageError)
  deriving DecidableEq, Repr

/-- The calls of a bus whose states are `σ`. Values narrower than a word are zero-extended. -/
class Bus (σ : Type) where
  read : Width → UInt32 → EStateM BusFault σ UInt32
  write : Width → UInt32 → UInt32 → EStateM BusFault σ Unit
  readCsr : UInt32 → EStateM BusFault σ UInt32
  writeCsr : UInt32 → UInt32 → EStateM BusFault σ Unit

end RiscvMachine
