import RiscvMachine.Compression.Zstd.Frame
import RiscvMachine.Image.Feed

set_option autoImplicit false

/-! # Zstd images

The contents of all frames of a zstd file, handed out in reads. A read first hands out what is
left of earlier ones, and gives input to the decoder only if nothing was left. It gives up at
anything wrong, and then loses what it decoded itself, while earlier reads keep theirs.
-/

namespace RiscvMachine

open Compression

/-- The decoder, how much of its output has been handed out, how much of the input has been
given to it, and whether that ends with a frame. -/
structure ZstdStream where
  state : Zstd.State
  delivered : Nat
  taken : Nat
  finished : Bool

namespace ZstdStream

def new : ZstdStream := ⟨.start, 0, 0, false⟩

inductive Progress
  | moved
  | frameEnded
  | needInput
  deriving DecidableEq, Repr

def step (turn : Zstd.Turn) : EStateM Unit ZstdStream Progress :=
  fun ⟨state, delivered, taken, finished⟩ =>
  match state.read turn with
  | .ok (item, stop) =>
    let state := state.apply item stop
    if item.endsFrame then .ok .frameEnded ⟨state, delivered, stop, true⟩
    else .ok .moved ⟨state, delivered, taken, finished⟩
  | .error .needInput => .ok .needInput ⟨state, delivered, turn.input.size, finished⟩
  | .error .corrupt => .error () ⟨state, delivered, taken, finished⟩

/-- Hands out decoded bytes behind `out`, up to `limit` bytes in all, and tells whether some are
left. -/
def deliver (limit : Nat) (out : ByteArray) : EStateM Unit ZstdStream (ByteArray × Bool) :=
  fun ⟨state, delivered, taken, finished⟩ =>
  let stop := min state.output.size (delivered + (limit - out.size))
  let out := out ++ state.output.extract delivered stop
  if stop < state.output.size then .ok (out, true) ⟨state, stop, state.position, finished⟩
  else .ok (out, false) ⟨state, stop, taken, finished⟩

/-- Runs the decoder until a frame ends, the input is used up, or as many bytes have been handed
out as there is room for and some are left. -/
def run (turn : Zstd.Turn) : Nat → ByteArray → EStateM Unit ZstdStream ByteArray
  | 0, _ => throw ()
  | fuel + 1, out => do
    let (out, more) ← deliver turn.room out
    if more then return out
    match ← step turn with
    | .moved => run turn fuel out
    | .frameEnded => return (← deliver turn.room out).1
    | .needInput => return out

abbrev Reading := EStateM Unit (Feed × ZstdStream)

def more : Reading Bool := fun (feed, z) =>
  match Feed.more feed with
  | .ok any feed => .ok any (feed, z)
  | .error () feed => .error () (feed, z)

/-- Runs the decoder without new input. -/
def runOn (limit : Nat) : Reading ByteArray := fun (feed, z) =>
  let input := feed.input.extract 0 z.taken
  match run ⟨input, z.taken, limit⟩ (3 * input.size + 4) ByteArray.empty z with
  | .ok out z => .ok out (feed, z)
  | .error () z => .error () (feed, z)

/-- Runs the decoder with all input at hand. -/
def runAll (limit : Nat) : Reading ByteArray := fun (feed, ⟨state, delivered, taken, _⟩) =>
  let fuel := 3 * feed.input.size + 4
  let turn := ⟨feed.input, taken, limit⟩
  match run turn fuel ByteArray.empty ⟨state, delivered, taken, false⟩ with
  | .ok out z => .ok out (feed, z)
  | .error () z => .error () (feed, z)

/-- Gives input to the decoder until there is output; the end of the source may only come behind
a frame. The fuel bounds the reads of the source and the frames. -/
def readOn (limit : Nat) : Nat → Reading ByteArray
  | 0 => throw ()
  | fuel + 1 => do
    let (feed, z) ← get
    let any ← if feed.input.size ≤ z.taken then more else pure true
    if any then
      let out ← runAll limit
      if out.isEmpty then readOn limit fuel else return out
    else if z.finished then return ByteArray.empty
    else throw ()

/-- Reads up to `limit` bytes of the contents; no bytes mean their end. -/
def read (limit : Nat) : Reading ByteArray := do
  let out ← runOn limit
  if !out.isEmpty then return out
  let feed := (← get).1
  readOn limit (2 * (feed.source.weight + feed.input.size) + 2)

end ZstdStream

end RiscvMachine
