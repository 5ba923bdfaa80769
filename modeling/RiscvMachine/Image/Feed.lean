import RiscvMachine.Device.Input

set_option autoImplicit false

/-! # Feeding a decoder

A source together with the bytes that it has handed out so far. Decoders keep a position in
those bytes and ask for more when they have used them up. Interruptions of the source are
passed over.
-/

namespace RiscvMachine

namespace InputEvent

def isInterruption : InputEvent → Bool
  | interrupted => true
  | _ => false

end InputEvent

namespace InputSource

/-- The source without interruptions in front of its next event. -/
def afterInterruptions (s : InputSource) : InputSource :=
  match s.events with
  | .interrupted :: rest => ⟨rest.dropWhile InputEvent.isInterruption, 0⟩
  | _ => s

/-- A bound on the reads that the source can answer with data. -/
def weight (s : InputSource) : Nat :=
  s.events.foldl (fun total event =>
    match event with
    | .data bytes => total + bytes.size + 1
    | _ => total + 1) 0

end InputSource

/-- A source and the bytes that it has handed out. -/
structure Feed where
  source : InputSource
  input : ByteArray
  deriving Inhabited

namespace Feed

def readSize : Nat := 8192

def new (source : InputSource) : Feed := ⟨source, ByteArray.empty⟩

/-- Reads on and tells whether there was anything; fails if the source does. -/
def more : EStateM Unit Feed Bool := fun ⟨source, input⟩ =>
  match InputSource.read readSize source.afterInterruptions with
  | (.bytes data, source) => .ok (!data.isEmpty) ⟨source, input ++ data⟩
  | (.interrupted, source) => .error () ⟨source, input⟩
  | (.failed, source) => .error () ⟨source, input⟩

end Feed

end RiscvMachine
