import RiscvMachine.Compression.Deflate.Inflate
import RiscvMachine.Compression.Gzip
import RiscvMachine.Image.Feed

set_option autoImplicit false

/-! # Gzip images

The contents of the first member of a gzip file, handed out in reads. Decoding goes in rounds
that end where the input at hand ends or the output fills a window. What a round has decoded is
handed out only if nothing was wrong with any round of the same read, so a read that fails
loses what it decoded, and earlier reads keep theirs.
-/

namespace RiscvMachine

open Compression Deflate

/-- What of the member comes next. -/
inductive GzipStage
  | header
  | body
  | trailer
  | finished

/-- The decoder, how much of its output belongs to rounds that have ended, how much of it has
been handed out, and how much input had come when it last ran out of input. -/
structure GzipStream where
  stage : GzipStage
  state : Deflate.State
  decoded : Nat
  delivered : Nat
  starvedAt : Nat

namespace GzipStream

def new : GzipStream := ⟨.header, .start 0, 0, 0, 0⟩

/-- The offset of the first byte of which no bit has been read. -/
def nextByte (g : GzipStream) : Nat := (g.state.position + 7) / 8

/-- Whether the decoder has nothing to go on with in the given input. -/
def isStarved (g : GzipStream) (input : ByteArray) : Bool :=
  input.size ≤ g.nextByte || input.size ≤ g.starvedAt

abbrev Reading := EStateM Unit (Feed × GzipStream)

def more : Reading Bool := fun (feed, g) =>
  match Feed.more feed with
  | .ok any feed => .ok any (feed, g)
  | .error () feed => .error () (feed, g)

/-- Reads the source until `ready` holds of the input, at most `fuel` times. A source that ends
before is an error. -/
def require (ready : ByteArray → GzipStream → Bool) : Nat → Reading Unit
  | 0 => throw ()
  | fuel + 1 => do
    let (feed, g) ← get
    if ready feed.input g then return
    if ← more then require ready fuel else throw ()

/-- Whether enough input is there to judge the header. -/
def headerArrived (input : ByteArray) (_ : GzipStream) : Bool :=
  match Gzip.headerLength input with
  | .error .needInput => false
  | _ => true

def readHeader : Reading Unit := do
  let fuel := (← get).1.source.weight + 1
  require headerArrived fuel
  let (feed, _) ← get
  match Gzip.headerLength feed.input with
  | .ok length =>
    modify fun (feed, _) => (feed, ⟨.body, .start length, 0, 0, 0⟩)
  | .error _ => throw ()

/-- Hands out decoded bytes behind `out`, up to `limit` bytes in all. -/
def deliver (limit : Nat) (out : ByteArray) : Reading ByteArray := fun (feed, g) =>
  let stop := min g.decoded (g.delivered + (limit - out.size))
  .ok (out ++ g.state.output.extract g.delivered stop) (feed, { g with delivered := stop })

def round : Reading RoundEnd := fun (feed, ⟨stage, state, _, delivered, starvedAt⟩) =>
  let fuel := 2 * (8 * feed.input.size - state.position) + 4
  let (state, ended) := state.round feed.input fuel
  let size := state.output.size
  let decoded := if ended = .windowFull then size / windowSize * windowSize else size
  let starvedAt := if ended = .needInput then feed.input.size else starvedAt
  .ok ended (feed, ⟨stage, state, decoded, delivered, starvedAt⟩)

/-- Runs rounds until the input at hand is used up, `limit` bytes have been handed out, or the
stream ends. -/
def rounds (limit : Nat) (atEnd : Bool) : Nat → ByteArray → Reading (ByteArray × Bool)
  | 0, out => return (out, false)
  | fuel + 1, out => do
    let ended ← round
    if ended = .corrupt then throw ()
    let out ← deliver limit out
    if ended = .needInput && atEnd then throw ()
    if ended = .finished then return (out, true)
    let (feed, g) ← get
    if limit ≤ out.size || g.delivered < g.decoded || g.isStarved feed.input then
      return (out, false)
    else rounds limit atEnd fuel out

/-- Reads up to `limit` bytes of the contents; no bytes mean their end. -/
def readBody (limit : Nat) : Nat → Reading ByteArray
  | 0 => throw ()
  | fuel + 1 => do
    let (feed, g) ← get
    let any ← if g.isStarved feed.input then more else pure true
    let g := (← get).2
    if g.delivered < g.decoded then deliver limit ByteArray.empty
    else
      let (out, finished) ← rounds limit (!any) (limit + 1) ByteArray.empty
      if out.isEmpty && !finished then readBody limit fuel else return out

def readTrailer : Reading Unit := do
  let fuel := (← get).1.source.weight + 1
  require (fun input g => g.nextByte + Gzip.trailerLength ≤ input.size) fuel
  let (feed, g) ← get
  if !Gzip.trailerMatches feed.input g.nextByte g.state.output then throw ()
  modify fun (feed, g) => (feed, { g with stage := .finished })

/-- Reads up to `limit` bytes of the member; no bytes mean its end. -/
def read (limit : Nat) : Reading ByteArray := do
  if let .header := (← get).2.stage then readHeader
  if let .body := (← get).2.stage then
    let out ← readBody limit ((← get).1.source.weight + 2)
    if !out.isEmpty then return out
    modify fun (feed, g) => (feed, { g with stage := .trailer })
  if let .trailer := (← get).2.stage then readTrailer
  return ByteArray.empty

end GzipStream

end RiscvMachine
