import RiscvMachine.Bytes.Endian

set_option autoImplicit false

/-! # The 64-bit xxHash checksum

The checksum at the end of a zstd frame, with seed zero. Stripes of 32 bytes are mixed into four
lanes, the lanes are merged, and the bytes behind the last stripe are mixed in one by one.
-/

namespace RiscvMachine.Compression.Xxh64

/-- The first prime, by which a lane is multiplied last. -/
def prime1 : UInt64 := 0x9E3779B185EBCA87

/-- The second prime, which input is multiplied by. -/
def prime2 : UInt64 := 0xC2B2AE3D27D4EB4F

/-- The third prime, which is added behind four bytes. -/
def prime3 : UInt64 := 0x165667B19E3779F9

/-- The fourth prime, which is added behind eight bytes. -/
def prime4 : UInt64 := 0x85EBCA77C2B2AE63

/-- The fifth prime, the hash of nothing and the factor of single bytes. -/
def prime5 : UInt64 := 0x27D4EB2F165667C5

def rotateLeft (x n : UInt64) : UInt64 := (x <<< n) ||| (x >>> (64 - n))

def mix (lane input : UInt64) : UInt64 := rotateLeft (lane + input * prime2) 31 * prime1

/-- The number in the `n` bytes from index `i` on. -/
def wordAt (data : ByteArray) (i n : Nat) : UInt64 :=
  UInt64.ofNat (Bytes.littleEndianAt data i n)

/-- The four lanes that stripes are mixed into. -/
structure Lanes where
  first : UInt64
  second : UInt64
  third : UInt64
  fourth : UInt64

namespace Lanes

/-- The lanes before any stripe. -/
def start : Lanes := ⟨prime1 + prime2, prime2, 0, 0 - prime1⟩

def stripes (data : ByteArray) : Nat → (i : Nat) → Lanes → Lanes
  | 0, _, lanes => lanes
  | n + 1, i, ⟨a, b, c, d⟩ =>
    stripes data n (i + 32) ⟨mix a (wordAt data i 8), mix b (wordAt data (i + 8) 8),
      mix c (wordAt data (i + 16) 8), mix d (wordAt data (i + 24) 8)⟩

def mergeLane (hash lane : UInt64) : UInt64 := (hash ^^^ mix 0 lane) * prime1 + prime4

def merge (l : Lanes) : UInt64 :=
  [l.first, l.second, l.third, l.fourth].foldl mergeLane
    (rotateLeft l.first 1 + rotateLeft l.second 7 + rotateLeft l.third 12 +
      rotateLeft l.fourth 18)

end Lanes

def absorbLong (data : ByteArray) (i : Nat) (hash : UInt64) : UInt64 :=
  rotateLeft (hash ^^^ mix 0 (wordAt data i 8)) 27 * prime1 + prime4

def absorbWord (data : ByteArray) (i : Nat) (hash : UInt64) : UInt64 :=
  rotateLeft (hash ^^^ (wordAt data i 4 * prime1)) 23 * prime2 + prime3

def absorbByte (data : ByteArray) (i : Nat) (hash : UInt64) : UInt64 :=
  rotateLeft (hash ^^^ (wordAt data i 1 * prime5)) 11 * prime1

/-- Mixes in the fewer than 32 bytes from index `i` on. -/
def absorbTail (data : ByteArray) (i : Nat) (hash : UInt64) : UInt64 :=
  let longs := (data.size - i) / 8
  let hash := (List.range longs).foldl (fun hash k => absorbLong data (i + 8 * k) hash) hash
  let i := i + 8 * longs
  let words := (data.size - i) / 4
  let hash := (List.range words).foldl (fun hash k => absorbWord data (i + 4 * k) hash) hash
  let i := i + 4 * words
  (List.range (data.size - i)).foldl (fun hash k => absorbByte data (i + k) hash) hash

/-- Spreads every bit of the hash over all of them. -/
def avalanche (hash : UInt64) : UInt64 :=
  let hash := (hash ^^^ (hash >>> 33)) * prime2
  let hash := (hash ^^^ (hash >>> 29)) * prime3
  hash ^^^ (hash >>> 32)

def checksum (data : ByteArray) : UInt64 :=
  let stripes := data.size / 32
  let hash := if stripes = 0 then prime5 else (Lanes.start.stripes data stripes 0).merge
  avalanche (absorbTail data (32 * stripes) (hash + UInt64.ofNat data.size))

end RiscvMachine.Compression.Xxh64
