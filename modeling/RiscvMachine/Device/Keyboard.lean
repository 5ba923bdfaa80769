set_option autoImplicit false

/-! # The keyboard queue

Typed bytes on their way to the guest: a first-in first-out queue of bounded size. A byte that
arrives while the queue is full is dropped.
-/

namespace RiscvMachine

/-- Queued bytes, the next one first, and how many there may be. -/
structure KeyQueue where
  capacity : Nat
  queued : List UInt8
  deriving DecidableEq, Repr, Inhabited

namespace KeyQueue

/-- An empty queue; it has room for one byte at least. -/
def new (capacity : Nat) : KeyQueue := ⟨max capacity 1, []⟩

def hasData (q : KeyQueue) : Bool := !q.queued.isEmpty

def hasRoom (q : KeyQueue) : Bool := q.queued.length < q.capacity

def send (q : KeyQueue) (byte : UInt8) : KeyQueue :=
  if q.hasRoom then { q with queued := q.queued ++ [byte] } else q

def pop : StateM KeyQueue (Option UInt8) := fun q =>
  match q.queued with
  | [] => (none, q)
  | byte :: rest => (some byte, { q with queued := rest })

end KeyQueue

end RiscvMachine
