import RiscvMachine.Image.Stream
import RiscvMachine.Machine.Basic

set_option autoImplicit false

/-! # Booting

The image goes to the start of RAM and the device tree as high as it fits, both straight to the
store. No line of the cache may stand in front of them, so the cache is emptied first, without
writing anything back. What was written before a failure stays.
-/

namespace RiscvMachine

structure BootInfo where
  /-- The size of the image after decompression. -/
  imageLength : Nat
  /-- The guest's address of the device tree. -/
  deviceTreeAddr : UInt32
  /-- The RAM below the device tree, as told in it. -/
  usableRam : UInt32
  deriving DecidableEq, Repr

namespace Machine

variable {υ : Type} [StorageUnit υ]

/-- Writes bytes to the store at a RAM offset, past the cache. -/
def place (offset : UInt32) (bytes : ByteArray) : EStateM MachineError (Machine υ) Unit :=
  onMemory (Cache.onStore (Store.write offset bytes))

/-- Copies the rest of a stream to RAM in chunks, from `length` on, and tells where it ends. The
fuel bounds the chunks. -/
def loadChunks {decoders : Decoders} :
    Nat → (length : Nat) → ImageStream decoders → EStateM MachineError (Machine υ) Nat
  | 0, _, _ => throw (.image .unreadable)
  | fuel + 1, length, stream => fun m =>
    match ImageStream.readChunk m.config.imageChunkSize.toNat stream with
    | .error () _ => .error (.image .unreadable) m
    | .ok bytes stream =>
      if bytes.isEmpty then .ok length m
      else if m.config.ramSize.toNat < length + bytes.size then
        .error (.image (.tooLarge m.config.ramSize)) m
      else
        match place (UInt32.ofNat length) bytes m with
        | .ok () m => loadChunks fuel (length + bytes.size) stream m
        | .error error m => .error error m

/-- Copies an image to the start of RAM and tells its length. Every chunk but the last adds a
byte at least, and there is room for the size of RAM. -/
def loadImage (decoders : Decoders) (source : InputSource) :
    EStateM MachineError (Machine υ) Nat := fun m =>
  match ImageStream.ofSource? decoders source with
  | none => .error (.image .unreadable) m
  | some stream =>
    -- the buffer for a chunk
    match Checked.allocate m.config.imageChunkSize.toNat 1 with
    | .error why => .error (.image (.panic why)) m
    | .ok () => loadChunks (m.config.ramSize.toNat + 2) 0 stream m

/-- Puts the device tree behind an image of the given length and tells where. -/
def placeDeviceTree (imageLength : Nat) : EStateM MachineError (Machine υ) UInt32 := fun m =>
  match m.deviceTree.placement m.config.ramSize with
  | .error error => .error (.deviceTree error) m
  | .ok offset =>
    if offset.toNat < imageLength then
      .error (.image (.overlapsDeviceTree imageLength offset)) m
    else
      -- the RAM that the guest is told of ends where the tree starts
      match m.deviceTree.withRamSize offset with
      | .error why => .error (.deviceTree (.panic why)) m
      | .ok deviceTree =>
        match place offset deviceTree.blob m with
        | .ok () m => .ok offset m
        | .error error m => .error error m

/-- Loads an image and the device tree and puts the hart in the state in which a guest starts.
A machine can be booted any number of times. -/
def bootWith (decoders : Decoders) (source : InputSource) :
    EStateM MachineError (Machine υ) BootInfo := do
  -- the image goes past the cache, whose lines would hide it
  modify (mapCache Cache.invalidate)
  let imageLength ← loadImage decoders source
  let offset ← placeDeviceTree imageLength
  let deviceTreeAddr := offset + ramBase
  modify fun m => (m.onHart (Hart.boot · deviceTreeAddr)).resetCounters
  return ⟨imageLength, deviceTreeAddr, offset⟩

/-- Boots with the decoders of this library. -/
def boot (source : InputSource) : EStateM MachineError (Machine υ) BootInfo :=
  bootWith .standard source

/-- Boots from a file, given what it holds. Without the file nothing is changed. -/
def bootFile (contents : Option ByteArray) : EStateM MachineError (Machine υ) BootInfo :=
  match contents with
  | some bytes => boot (.ofBytes bytes)
  | none => throw (.image .unreadable)

end Machine

end RiscvMachine
