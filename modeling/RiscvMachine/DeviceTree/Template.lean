import RiscvMachine.DeviceTree.Token
import RiscvMachine.Panic

set_option autoImplicit false

/-! # The device tree handed to the guest

A flattened tree with one cell that receives the size of usable RAM at boot, and where in RAM
the tree is put. `describe` is the tree of this machine: one rv32ima hart without virtual
memory, RAM at 0x80000000, a serial line, a timer block and a power register.
-/

namespace RiscvMachine

/-- A flattened tree and the offset of its RAM-size cell. -/
structure DeviceTree where
  blob : ByteArray
  ramSizeOffset : UInt64
  deriving Inhabited

inductive DeviceTreeError
  /-- The file that holds it cannot be read. -/
  | unreadable
  /-- The RAM-size cell does not lie in the tree at a multiple of four. -/
  | badOffset (offset : UInt64) (size : Nat)
  /-- The tree is larger than RAM. -/
  | doesNotFit (size : Nat) (ramSize : UInt32)
  /-- The program gave up. -/
  | panic (why : Panic)
  deriving DecidableEq, Repr

open Text in
/-- The text of the error; there is none for a file that cannot be read. -/
def DeviceTreeError.message? : DeviceTreeError → Option String
  | .unreadable => none
  | .badOffset offset size =>
    some (s!"device tree error: RAM size offset 0x{hex 1 offset.toNat} outside a " ++
      s!"{decimal size} byte blob")
  | .doesNotFit size ramSize =>
    some (s!"device tree error: {decimal size} byte blob does not fit in " ++
      s!"{decimal ramSize.toNat} bytes of RAM")
  | .panic why => some why.message

namespace DeviceTree

/-- The boot arguments that a guest is given unless others are set. -/
def defaultBootArguments : String :=
  "earlycon=uart8250,mmio,0x10000000,1000000 console=ttyS0"

/-- The tokens in front of the cells that describe RAM. -/
def describeStart (bootArguments : String) : List Token :=
  [.beginNode "",
    .cell "#address-cells" 2,
    .cell "#size-cells" 2,
    .text "compatible" "riscv-minimal-nommu",
    .text "model" "riscv-minimal-nommu,qemu",
    .beginNode "chosen",
      .text "bootargs" bootArguments,
    .endNode,
    .beginNode "memory@80000000",
      .text "device_type" "memory"]

/-- The base and the size of RAM, two cells each; the size is still to be filled in. -/
def describeRam : Token :=
  .cells "reg" [0, 0x80000000, 0, 0]

def describeRest : List Token :=
  [.endNode,
    .beginNode "cpus",
      .cell "#address-cells" 1,
      .cell "#size-cells" 0,
      .cell "timebase-frequency" 1000000,
      .beginNode "cpu@0",
        .cell "phandle" 1,
        .text "device_type" "cpu",
        .cell "reg" 0,
        .text "status" "okay",
        .text "compatible" "riscv",
        .text "riscv,isa" "rv32ima",
        .text "mmu-type" "riscv,none",
        .beginNode "interrupt-controller",
          .cell "#interrupt-cells" 1,
          .marker "interrupt-controller",
          .text "compatible" "riscv,cpu-intc",
          .cell "phandle" 2,
        .endNode,
      .endNode,
    .endNode,
    .beginNode "soc",
      .cell "#address-cells" 2,
      .cell "#size-cells" 2,
      .text "compatible" "simple-bus",
      .marker "ranges",
      .beginNode "uart@10000000",
        .cell "clock-frequency" 1000000,
        .cells "reg" [0, 0x10000000, 0, 0x100],
        .text "compatible" "ns16550a",
      .endNode,
      .beginNode "poweroff",
        .cell "value" 0x5555,
        .cell "offset" 0,
        .cell "regmap" 4,
        .text "compatible" "syscon-poweroff",
      .endNode,
      .beginNode "reboot",
        .cell "value" 0x7777,
        .cell "offset" 0,
        .cell "regmap" 4,
        .text "compatible" "syscon-reboot",
      .endNode,
      .beginNode "syscon@11100000",
        .cell "phandle" 4,
        .cells "reg" [0, 0x11100000, 0, 0x1000],
        .text "compatible" "syscon",
      .endNode,
      .beginNode "clint@11000000",
        .cells "interrupts-extended" [2, 3, 2, 7],
        .cells "reg" [0, 0x11000000, 0, 0x10000],
        .texts "compatible" ["sifive,clint0", "riscv,clint0"],
      .endNode,
    .endNode,
  .endNode]

/-- The tree of this machine. Its RAM-size cell is the lower word of the size of RAM. -/
def describe (bootArguments : String) : DeviceTree :=
  let start := (describeStart bootArguments).foldl Writer.push {}
  let whole := describeRest.foldl Writer.push (start.push describeRam)
  ⟨whole.finish, UInt64.ofNat (start.nextValueOffset + 12)⟩

/-- A ready-made tree with its RAM-size cell at `offset`. -/
def ofBlob (blob : ByteArray) (offset : UInt64) : Except DeviceTreeError DeviceTree := do
  if offset % 4 ≠ 0 then throw (.badOffset offset blob.size)
  let stop ← (Checked.add offset.toNat 4).mapError .panic
  if blob.size < stop.toNat then throw (.badOffset offset blob.size)
  return ⟨blob, offset⟩

/-- The RAM offset at which the tree is put: as high as it fits, at a multiple of eight. -/
def placement (t : DeviceTree) (ramSize : UInt32) : Except DeviceTreeError UInt32 :=
  if t.blob.size ≤ ramSize.toNat then
    .ok ((ramSize - UInt32.ofNat t.blob.size) &&& 0xFFFFFFF8)
  else .error (.doesNotFit t.blob.size ramSize)

/-- Where the RAM-size cell stands, if it lies in the tree. -/
def cellOffset (t : DeviceTree) : Except Panic Nat := do
  let stop ← Checked.add t.ramSizeOffset.toNat 4
  if t.blob.size < stop.toNat then throw (.rangeEnd stop.toNat t.blob.size)
  return t.ramSizeOffset.toNat

def withRamSize (t : DeviceTree) (value : UInt32) : Except Panic DeviceTree := do
  let offset ← t.cellOffset
  return { t with blob := Bytes.overlay t.blob offset (Bytes.bigEndian 4 value.toNat) }

def ramSizeCell (t : DeviceTree) : Except Panic UInt32 := do
  let offset ← t.cellOffset
  return UInt32.ofNat (Bytes.bigEndianAt t.blob offset 4)

end DeviceTree

end RiscvMachine
