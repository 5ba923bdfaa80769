import RiscvMachine.Machine.Boot
import RiscvMachine.Proofs.Memory

set_option autoImplicit false

/-! # The flat machine

The machine that a guest is meant to see: the same hart and the same devices, and RAM as one
array of bytes, with no cache and no storage units. `FlatMachine.boot` starts it from what a
machine is set up with on the guest's side (`GuestSetup`), in which no line size and no unit
occurs.

Both machines serve the same requests of the host. `observeAll` tells what can be seen of a
machine after each of them: the answer, the whole state of the hart, the console, and the byte
that the hart would read at each address.
-/

namespace RiscvMachine

/-- RAM as one array of bytes, and the console. -/
structure FlatPlatform where
  ram : ByteArray
  console : GuestConsole
  ramSize : UInt32

namespace FlatPlatform

def onConsole {α : Type} (request : StateM GuestConsole α) : EStateM BusFault FlatPlatform α :=
  fun ⟨ram, console, ramSize⟩ =>
    let (answer, console) := request console
    .ok answer ⟨ram, console, ramSize⟩

def read (width : Width) (addr : UInt32) : EStateM BusFault FlatPlatform UInt32 := fun p =>
  if Platform.isDevice addr then onConsole (Platform.readDevice width addr) p
  else
    match Platform.ramOffset? p.ramSize addr width with
    | some offset => .ok (UInt32.ofNat (Bytes.littleEndianAt p.ram offset.toNat width.bytes)) p
    | none => .error .unmapped p

def write (width : Width) (addr value : UInt32) : EStateM BusFault FlatPlatform Unit := fun p =>
  if Platform.isDevice addr then
    onConsole (fun console => ((), Platform.writeDevice addr (width.truncate value) console)) p
  else
    match Platform.ramOffset? p.ramSize addr width with
    | some offset =>
      let bytes := Bytes.littleEndian width.bytes value.toNat
      .ok () { p with ram := Bytes.overlay p.ram offset.toNat bytes }
    | none => .error .unmapped p

/-- The string from index `i` on, up to a zero byte or the end of RAM. -/
def stringAt (ram : ByteArray) (i : Nat) : ByteArray :=
  ((ram.data.toList.drop i).takeWhile (· != 0)).toByteArray

/-- What a write to a control register prints. -/
def printed (ram : ByteArray) (number value : UInt32) : ByteArray :=
  if number = 0x136 then (Text.signedDecimal value.toInt32.toInt).toUTF8
  else if number = 0x137 then (Text.hex 8 value.toNat).toUTF8
  else if number = 0x138 then stringAt ram (value - ramBase).toNat
  else if number = 0x139 then ⟨#[value.toUInt8]⟩
  else ByteArray.empty

def writeCsr (number value : UInt32) : EStateM BusFault FlatPlatform Unit :=
  fun ⟨ram, ⟨keys, output⟩, ramSize⟩ =>
    .ok () ⟨ram, ⟨keys, output ++ printed ram number value⟩, ramSize⟩

instance : Bus FlatPlatform where
  read := read
  write := write
  readCsr number := onConsole (DebugChannel.read number)
  writeCsr := writeCsr

end FlatPlatform

/-- What a machine is set up with, as far as it concerns the guest. -/
structure GuestSetup where
  ramSize : UInt32
  faultPolicy : FaultPolicy
  keyboardCapacity : UInt64
  imageChunkSize : UInt64
  deviceTree : DeviceTree

def Machine.setup {υ : Type} (m : Machine υ) : GuestSetup :=
  ⟨m.config.ramSize, m.config.faultPolicy, m.config.keyboardCapacity, m.config.imageChunkSize,
    m.deviceTree⟩

/-- The rest of a stream, read in chunks. The fuel bounds the chunks. -/
def ImageStream.rest? {decoders : Decoders} (chunkSize : Nat) :
    Nat → ImageStream decoders → Option ByteArray
  | 0, _ => none
  | fuel + 1, stream =>
    match readChunk chunkSize stream with
    | .error () _ => none
    | .ok bytes stream =>
      if bytes.isEmpty then some ByteArray.empty
      else (rest? chunkSize fuel stream).map (bytes ++ ·)

/-- What a boot puts into RAM: the image at the start, and the device tree at an offset. -/
structure BootPlan where
  image : ByteArray
  offset : UInt32
  tree : ByteArray

namespace BootPlan

/-- What is told of a boot that goes by the plan. -/
def info (plan : BootPlan) : BootInfo :=
  ⟨plan.image.size, plan.offset + ramBase, plan.offset⟩

/-- A memory after image and device tree have been put into it. -/
def load (plan : BootPlan) (m : Memory) : Memory :=
  (m.write 0 plan.image).write plan.offset.toNat plan.tree

/-- RAM as zeros, with image and device tree put into it. -/
def ram (plan : BootPlan) (ramSize : UInt32) : ByteArray :=
  let loaded := Bytes.overlay (Bytes.zeros ramSize.toNat) 0 plan.image
  Bytes.overlay loaded plan.offset.toNat plan.tree

end BootPlan

namespace GuestSetup

/-- What the image holds after decompression, if it can be read. Each chunk but the last adds a
byte at least, so there is fuel for all that fits into RAM. -/
def image? (setup : GuestSetup) (source : InputSource) : Option ByteArray :=
  (ImageStream.ofSource? .standard source).bind fun stream =>
    stream.rest? setup.imageChunkSize.toNat (setup.ramSize.toNat + 2)

/-- What a boot puts where, if the image can be read and leaves room for the device tree. -/
def plan? (setup : GuestSetup) (source : InputSource) : Option BootPlan :=
  match setup.image? source, setup.deviceTree.placement setup.ramSize with
  | some image, .ok offset =>
    if offset.toNat < image.size then none
    else match setup.deviceTree.withRamSize offset with
      | .ok tree => some ⟨image, offset, tree.blob⟩
      | .error _ => none
  | _, _ => none

end GuestSetup

/-- A hart with flat RAM and the devices. -/
abbrev FlatMachine : Type := Core FlatPlatform

namespace FlatMachine

def start (setup : GuestSetup) (plan : BootPlan) : FlatMachine where
  hart := (Hart.new setup.ramSize setup.faultPolicy).boot (plan.offset + ramBase)
  bus := ⟨plan.ram setup.ramSize, .new setup.keyboardCapacity.toNat, setup.ramSize⟩

/-- Boots an image, if it can be read and leaves room for the device tree. -/
def boot (setup : GuestSetup) (source : InputSource) : Option (BootInfo × FlatMachine) :=
  (setup.plan? source).map fun plan => (plan.info, start setup plan)

end FlatMachine

/-! ## Requests and observations -/

inductive MachineRequest
  | step (limit : UInt32) (elapsed : UInt64)
  | sendKey (byte : UInt8)
  | flush
  | takeOutput

inductive MachineAnswer
  | outcome (outcome : Outcome)
  | output (bytes : ByteArray)
  | done

/-- The byte that the hart would read at an address, if anything answers there. -/
def Bus.byteSeen {σ : Type} [Bus σ] (bus : σ) (addr : UInt32) : Option UInt32 :=
  match Bus.read .byte addr bus with
  | .ok value _ => some value
  | .error _ _ => none

/-- What can be seen of a machine after a request. -/
structure Observation where
  answer : MachineAnswer
  hart : Hart
  console : GuestConsole
  byteSeen : UInt32 → Option UInt32

/-- Serves requests in order, up to the first that fails, and observes after each of them. -/
def observeAll {σ : Type} (serve : MachineRequest → EStateM MachineError σ MachineAnswer)
    (observe : σ → MachineAnswer → Observation) :
    List MachineRequest → EStateM MachineError σ (List Observation)
  | [] => pure []
  | request :: rest => do
    let answer ← serve request
    let observation := observe (← get) answer
    let observations ← observeAll serve observe rest
    return observation :: observations

namespace Machine

variable {υ : Type} [StorageUnit υ]

def serve : MachineRequest → EStateM MachineError (Machine υ) MachineAnswer
  | .step limit elapsed => do return .outcome (← step limit elapsed)
  | .sendKey byte => do
    modify (sendKey · byte)
    return .done
  | .flush => do
    flush
    return .done
  | .takeOutput => do return .output (← modifyGet takeOutput)

def observe (m : Machine υ) (answer : MachineAnswer) : Observation :=
  ⟨answer, m.hart, m.platform.console, Bus.byteSeen m.platform⟩

def observeAll : List MachineRequest → EStateM MachineError (Machine υ) (List Observation) :=
  RiscvMachine.observeAll serve observe

end Machine

namespace FlatMachine

/-- Advances time and executes instructions, as a machine does. -/
def step (limit : UInt32) (elapsed : UInt64) : EStateM MachineError FlatMachine Outcome :=
  fun r =>
    match Core.step limit elapsed r with
    | .ok outcome r => .ok outcome r
    | .error error r => .error (.storage error) r

def onConsole {α : Type} (request : StateM GuestConsole α) : StateM FlatMachine α :=
  fun ⟨hart, ⟨ram, console, ramSize⟩⟩ =>
    let (answer, console) := request console
    (answer, ⟨hart, ⟨ram, console, ramSize⟩⟩)

def serve : MachineRequest → EStateM MachineError FlatMachine MachineAnswer
  | .step limit elapsed => do return .outcome (← step limit elapsed)
  | .sendKey byte => do
    modifyGet (onConsole fun console => ((), { console with keys := console.keys.send byte }))
    return .done
  | .flush => return .done
  | .takeOutput => do return .output (← modifyGet (onConsole GuestConsole.take))

def observe (r : FlatMachine) (answer : MachineAnswer) : Observation :=
  ⟨answer, r.hart, r.bus.console, Bus.byteSeen r.bus⟩

def observeAll : List MachineRequest → EStateM MachineError FlatMachine (List Observation) :=
  RiscvMachine.observeAll serve observe

end FlatMachine

end RiscvMachine
