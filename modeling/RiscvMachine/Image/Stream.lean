import RiscvMachine.Image.GzipStream
import RiscvMachine.Image.ZstdStream

set_option autoImplicit false

/-! # Image streams

The contents of a guest image, which may be as they are, or compressed with gzip or zstd. What
the first read of the source answers decides between the three.
-/

namespace RiscvMachine

def gzipMagic : List UInt8 := [0x1F, 0x8B]

def zstdMagic : List UInt8 := [0x28, 0xB5, 0x2F, 0xFD]

/-- A decoder of compressed images: its states, the one before the first read, and how up to
`limit` bytes of the contents are read. It reads on in the feed as it likes; no bytes mean the end
of the contents. -/
structure Decoder where
  State : Type
  start : State
  read : (limit : Nat) → EStateM Unit (Feed × State) ByteArray

structure Decoders where
  gzip : Decoder
  zstd : Decoder

def Decoders.standard : Decoders where
  gzip := ⟨GzipStream, .new, GzipStream.read⟩
  zstd := ⟨ZstdStream, .new, ZstdStream.read⟩

/-- How the contents are found in what the source hands out. -/
inductive ImageDecoder (decoders : Decoders)
  /-- As they are; so many bytes have been handed out. -/
  | plain (delivered : Nat)
  | gzip (state : decoders.gzip.State)
  | zstd (state : decoders.zstd.State)

/-- A source and the decoder of what it hands out. -/
structure ImageStream (decoders : Decoders) where
  feed : Feed
  decoder : ImageDecoder decoders

namespace ImageStream

variable {decoders : Decoders}

/-- The decoder for an image whose first bytes are given. -/
def decoderFor (head : ByteArray) : ImageDecoder decoders :=
  if Bytes.startsWith head gzipMagic then .gzip decoders.gzip.start
  else if Bytes.startsWith head zstdMagic then .zstd decoders.zstd.start
  else .plain 0

/-- The contents of the source. The first read must not fail, nor be interrupted. -/
def ofSource? (decoders : Decoders) (source : InputSource) : Option (ImageStream decoders) :=
  match source.events with
  | .interrupted :: _ => none
  | _ =>
    match Feed.more (.new source) with
    | .ok _ feed => some ⟨feed, decoderFor feed.input⟩
    | .error () _ => none

/-- Reads up to `limit` bytes that are as they are. -/
def readPlain (limit delivered : Nat) : EStateM Unit Feed (ByteArray × Nat) := do
  if (← get).input.size ≤ delivered then discard Feed.more
  let input := (← get).input
  let stop := min input.size (delivered + limit)
  return (input.extract delivered stop, stop)

/-- Reads up to `limit` bytes of the contents; no bytes mean their end. -/
def read (limit : Nat) : EStateM Unit (ImageStream decoders) ByteArray := fun ⟨feed, decoder⟩ =>
  match decoder with
  | .plain delivered =>
    match readPlain limit delivered feed with
    | .ok (bytes, delivered) feed => .ok bytes ⟨feed, .plain delivered⟩
    | .error () feed => .error () ⟨feed, .plain delivered⟩
  | .gzip state =>
    match decoders.gzip.read limit (feed, state) with
    | .ok bytes (feed, state) => .ok bytes ⟨feed, .gzip state⟩
    | .error () (feed, state) => .error () ⟨feed, .gzip state⟩
  | .zstd state =>
    match decoders.zstd.read limit (feed, state) with
    | .ok bytes (feed, state) => .ok bytes ⟨feed, .zstd state⟩
    | .error () (feed, state) => .error () ⟨feed, .zstd state⟩

/-- Reads until there are `size` bytes, of which `filled` are there. -/
def fill (size : Nat) : Nat → (filled : ByteArray) → EStateM Unit (ImageStream decoders) ByteArray
  | 0, filled => return filled
  | fuel + 1, filled => do
    if size ≤ filled.size then return filled
    let bytes ← read (size - filled.size)
    if bytes.isEmpty then return filled else fill size fuel (filled ++ bytes)

/-- Reads `size` bytes, or as many as there are left. -/
def readChunk (size : Nat) : EStateM Unit (ImageStream decoders) ByteArray :=
  fill size size ByteArray.empty

end ImageStream

end RiscvMachine
