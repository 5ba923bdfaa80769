set_option autoImplicit false

/-! # Control and status registers

The machine-mode registers that the hart itself holds, with the cycle counter and the timer.
`CoreCsr` names the registers that the hart serves; every number that names none belongs to the bus.
Reads and writes have a table of numbers each.
-/

namespace RiscvMachine

/-- The machine-mode registers, the cycle counter and the timer. -/
structure ControlRegisters where
  mstatus : UInt32 := 0
  mie : UInt32 := 0
  mip : UInt32 := 0
  mtvec : UInt32 := 0
  mscratch : UInt32 := 0
  mepc : UInt32 := 0
  mcause : UInt32 := 0
  mtval : UInt32 := 0
  /-- Fetched instructions and cycles spent waiting. -/
  cycle : UInt64 := 0
  /-- Time in microseconds. -/
  timer : UInt64 := 0
  /-- The time of the next timer interrupt; zero disables it. -/
  timerMatch : UInt64 := 0
  deriving DecidableEq, Repr, Inhabited

/-- Interrupt enable in `mstatus`. -/
def Mstatus.mie : UInt32 := 0x8

/-- The interrupt enable from before the last trap. -/
def Mstatus.mpie : UInt32 := 0x80

/-- The privilege from before the last trap. -/
def Mstatus.mpp : UInt32 := 0x1800

def Mip.software : UInt32 := 0x8

def Mip.timer : UInt32 := 0x80

def Mip.external : UInt32 := 0x800

/-- What `misa` reads: 32 bits, with the extensions A, I and M. -/
def misaValue : UInt32 := 0x40401101

def vendorValue : UInt32 := 0xFF0FF0FF

/-- The registers that the hart serves itself. -/
inductive CoreCsr
  | mstatus
  | misa
  | mie
  | mtvec
  | mscratch
  | mepc
  | mcause
  | mtval
  | mip
  | mvendorid
  | mhartid
  | cycle
  | time
  | cycleh
  | timeh
  deriving DecidableEq, Repr

/-- The register that a number names for a read, if the hart serves it. -/
def CoreCsr.ofNumber? : UInt32 → Option CoreCsr
  | 0x300 => some .mstatus
  | 0x301 => some .misa
  | 0x304 => some .mie
  | 0x305 => some .mtvec
  | 0x340 => some .mscratch
  | 0x341 => some .mepc
  | 0x342 => some .mcause
  | 0x343 => some .mtval
  | 0x344 => some .mip
  | 0xF11 => some .mvendorid
  | 0xF14 => some .mhartid
  | 0xC00 => some .cycle
  | 0xC01 => some .time
  | 0xC80 => some .cycleh
  | 0xC81 => some .timeh
  | _ => none

/-- The register that a number names for a write, if the hart serves it. -/
def CoreCsr.ofWrittenNumber? : UInt32 → Option CoreCsr
  | 0x300 => some .mstatus
  | 0x304 => some .mie
  | 0x344 => some .mip
  | 0x305 => some .mtvec
  | 0x340 => some .mscratch
  | 0x341 => some .mepc
  | 0x342 => some .mcause
  | 0x343 => some .mtval
  -- identity registers and counters take the write and drop it
  | 0x301 => some .misa
  | 0xF11 => some .mvendorid
  | 0xF14 => some .mhartid
  | 0xC00 => some .cycle
  | 0xC80 => some .cycleh
  | 0xC01 => some .time
  | 0xC81 => some .timeh
  | _ => none

namespace ControlRegisters

def lowWord (v : UInt64) : UInt32 := v.toUInt32

def highWord (v : UInt64) : UInt32 := (v >>> 32).toUInt32

def read (c : ControlRegisters) : CoreCsr → UInt32
  | .mstatus => c.mstatus
  | .misa => misaValue
  | .mie => c.mie
  | .mtvec => c.mtvec
  | .mscratch => c.mscratch
  | .mepc => c.mepc
  | .mcause => c.mcause
  | .mtval => c.mtval
  | .mip => c.mip
  | .mvendorid => vendorValue
  | .mhartid => 0
  | .cycle => lowWord c.cycle
  | .time => lowWord c.timer
  | .cycleh => highWord c.cycle
  | .timeh => highWord c.timer

/-- The registers after a write; identity registers and counters keep their values. -/
def write (c : ControlRegisters) (csr : CoreCsr) (value : UInt32) : ControlRegisters :=
  match csr with
  | .mstatus => { c with mstatus := value }
  | .mie => { c with mie := value }
  | .mtvec => { c with mtvec := value }
  | .mscratch => { c with mscratch := value }
  | .mepc => { c with mepc := value }
  | .mcause => { c with mcause := value }
  | .mtval => { c with mtval := value }
  | .mip => { c with mip := value }
  | .misa | .mvendorid | .mhartid | .cycle | .time | .cycleh | .timeh => c

def timerExpired (c : ControlRegisters) : Bool :=
  c.timerMatch != 0 && c.timerMatch <= c.timer

/-- The timer moved on by `elapsed`, and its interrupt bit set or cleared accordingly. -/
def advanceTimer (c : ControlRegisters) (elapsed : UInt64) : ControlRegisters :=
  let c := { c with timer := c.timer + elapsed }
  { c with mip := if c.timerExpired then c.mip ||| Mip.timer else c.mip &&& ~~~Mip.timer }

def advanceCycles (c : ControlRegisters) (n : UInt64) : ControlRegisters :=
  { c with cycle := c.cycle + n }

def withTimerMatchLow (c : ControlRegisters) (value : UInt32) : ControlRegisters :=
  { c with timerMatch := (c.timerMatch &&& (0xFFFFFFFF00000000 : UInt64)) ||| value.toUInt64 }

def withTimerMatchHigh (c : ControlRegisters) (value : UInt32) : ControlRegisters :=
  { c with timerMatch := (c.timerMatch &&& (0xFFFFFFFF : UInt64)) ||| (value.toUInt64 <<< 32) }

end ControlRegisters

end RiscvMachine
