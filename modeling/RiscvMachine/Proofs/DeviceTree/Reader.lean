import RiscvMachine.DeviceTree.Token
import RiscvMachine.Bytes.RoundTrip
import RiscvMachine.Proofs.Bytes

set_option autoImplicit false

/-! # Reading flattened device trees

`read?` takes a flattened tree apart: the header, and then the tokens that stand in the structure
block up to its end mark, with the names of the properties looked up in the strings block.

A reader reads some bytes as a value (`Reader.Reads`) if it takes just these off whatever they stand
in front of. What is read one after the other stands one after the other (`Reader.Reads.bind`).
-/

namespace RiscvMachine.DeviceTree

abbrev octets (bytes : ByteArray) : List UInt8 := bytes.data.toList

/-- A reader takes what it reads off the front of the bytes, or fails. -/
abbrev Reader := StateT (List UInt8) Option

namespace Reader

def take (n : Nat) : Reader (List UInt8) := fun bytes =>
  if n ≤ bytes.length then some (bytes.take n, bytes.drop n) else none

def word : Reader Nat := do
  return Bytes.ofLittleEndianList (← take 4).reverse

/-- The zeros that fill `n` bytes up to a multiple of four. -/
def padding (n : Nat) : Reader Unit := do
  guard (∀ b ∈ ← take (roundUp4 n - n), b = 0)

/-- A text with a zero byte behind it. -/
def text : Reader String := fun bytes =>
  match bytes.dropWhile (· != 0) with
  | [] => none
  | _ :: rest => (String.fromUTF8? (bytes.takeWhile (· != 0)).toByteArray).map fun s => (s, rest)

/-- The token that a mark announces. -/
def token (strings : List UInt8) : Nat → Reader Token
  | 1 => do
    let name ← text
    padding (name.utf8ByteSize + 1)
    return .beginNode name
  | 2 => return .endNode
  | 3 => do
    let size ← word
    let nameOffset ← word
    let value ← take size
    padding size
    let (name, _) ← (text (strings.drop nameOffset) : Option _)
    return .property name value.toByteArray
  | _ => failure

/-- The tokens up to the end mark, which is among the next `n` marks. Marks without a meaning may
stand in between. -/
def tokens (strings : List UInt8) : Nat → Reader (List Token)
  | 0 => failure
  | n + 1 => do
    let mark ← word
    if mark = 9 then return []
    else if mark = 4 then tokens strings n
    else
      let token ← token strings mark
      return token :: (← tokens strings n)

end Reader

structure Header where
  magic : Nat
  totalSize : Nat
  structureOffset : Nat
  stringsOffset : Nat
  reserveMapOffset : Nat
  version : Nat
  /-- The oldest version whose readers can read the tree. -/
  lastCompatibleVersion : Nat
  bootHart : Nat
  stringsSize : Nat
  structureSize : Nat
  deriving DecidableEq, Repr

def Reader.header : Reader Header := do
  return {
    magic := ← word
    totalSize := ← word
    structureOffset := ← word
    stringsOffset := ← word
    reserveMapOffset := ← word
    version := ← word
    lastCompatibleVersion := ← word
    bootHart := ← word
    stringsSize := ← word
    structureSize := ← word }

/-- The `size` bytes of a blob from `offset` on. -/
def stretch? (blob : ByteArray) (offset size : Nat) : Option (List UInt8) :=
  if offset + size ≤ blob.size then some (octets (blob.extract offset (offset + size))) else none

/-- The header and the tokens of a flattened tree, if it is one: it has the size and the blocks that
its header tells, and the structure block ends with the end mark. -/
def read? (blob : ByteArray) : Option (Header × List Token) := do
  let (header, _) ← Reader.header (octets blob)
  guard (header.magic = magic.toNat ∧ header.totalSize = blob.size)
  let block ← stretch? blob header.structureOffset header.structureSize
  let strings ← stretch? blob header.stringsOffset header.stringsSize
  let (tokens, rest) ← Reader.tokens strings block.length block
  guard (rest = [])
  return (header, tokens)

/-! ## Reading what has been written -/

namespace Reader

variable {α β : Type}

/-- The reader reads just these bytes as `a`, whatever stands behind them. -/
def Reads (x : Reader α) (bytes : List UInt8) (a : α) : Prop :=
  ∀ rest, x (bytes ++ rest) = some (a, rest)

theorem Reads.pure (a : α) : Reads (Pure.pure a) [] a :=
  fun _ => rfl

theorem Reads.bind {x : Reader α} {f : α → Reader β} {bytes bytes' : List UInt8} {a : α} {b : β}
    (hx : Reads x bytes a) (hf : Reads (f a) bytes' b) : Reads (x >>= f) (bytes ++ bytes') b := by
  intro rest
  have hfirst := hx (bytes' ++ rest)
  rw [← List.append_assoc] at hfirst
  simp only [Bind.bind, StateT.bind, hfirst, Option.bind_some]
  exact hf rest

theorem Reads.map {x : Reader α} {bytes : List UInt8} {a : α} (hx : Reads x bytes a) (f : α → β) :
    Reads (x >>= fun a => Pure.pure (f a)) bytes (f a) := by
  have hbind := hx.bind (f := fun a => Pure.pure (f a)) (Reads.pure (f a))
  rwa [List.append_nil] at hbind

theorem reads_take (bytes : List UInt8) : Reads (take bytes.length) bytes bytes := by
  intro rest
  rw [take, if_pos (by simp), List.take_left, List.drop_left]

end Reader

def wordBytes (v : Nat) : List UInt8 := (Bytes.littleEndianList 4 v).reverse

/-- The zeros behind `n` bytes that are filled up to a multiple of four. -/
def fill (n : Nat) : List UInt8 := List.replicate (roundUp4 n - n) 0

def textBytes (s : String) : List UInt8 := octets s.toUTF8 ++ [0]

@[simp] theorem length_wordBytes (v : Nat) : (wordBytes v).length = 4 := by
  rw [wordBytes, List.length_reverse, Bytes.length_littleEndianList]

@[simp] theorem length_textBytes (s : String) : (textBytes s).length = s.utf8ByteSize + 1 := by
  simp [textBytes]

/-- No byte of a character is zero, unless the character is. -/
theorem zero_notMem_utf8EncodeChar {c : Char} (hc : c ≠ '\x00') :
    0 ∉ String.utf8EncodeChar c := by
  have hval : c.val.toNat ≠ 0 := by
    intro hzero
    exact hc (Char.ext (UInt32.toNat_inj.mp hzero))
  have hbyte {v : Nat} (hpos : 0 < v) (hlt : v < 256) : 0 ≠ UInt8.ofNat v := by
    intro hzero
    have hnat := congrArg UInt8.toNat hzero
    rw [UInt8.toNat_ofNat', Nat.mod_eq_of_lt hlt] at hnat
    exact hpos.ne hnat
  unfold String.utf8EncodeChar
  simp only
  split
  · rw [List.mem_singleton]
    exact hbyte (by omega) (by omega)
  split
  · simp only [List.mem_cons, List.not_mem_nil, or_false, not_or]
    exact ⟨hbyte (by omega) (by omega), hbyte (by omega) (by omega)⟩
  split
  · simp only [List.mem_cons, List.not_mem_nil, or_false, not_or]
    exact ⟨hbyte (by omega) (by omega), hbyte (by omega) (by omega), hbyte (by omega) (by omega)⟩
  · simp only [List.mem_cons, List.not_mem_nil, or_false, not_or]
    exact ⟨hbyte (by omega) (by omega), hbyte (by omega) (by omega), hbyte (by omega) (by omega),
      hbyte (by omega) (by omega)⟩

theorem zero_notMem_toUTF8 {s : String} (hs : '\x00' ∉ s.toList) : 0 ∉ octets s.toUTF8 := by
  have hoctets : octets s.toUTF8 = s.toList.flatMap String.utf8EncodeChar := by
    have hbytes : s.toUTF8 = s.toList.utf8Encode := by
      rw [String.toUTF8_eq_toByteArray, ← String.toByteArray_ofList, String.ofList_toList]
    rw [octets, hbytes, List.utf8Encode, List.data_toByteArray]
  rw [hoctets, List.mem_flatMap]
  rintro ⟨c, hc, hzero⟩
  exact zero_notMem_utf8EncodeChar (fun heq => hs (heq ▸ hc)) hzero

namespace Reader

theorem reads_word {v : Nat} (hv : v < 2 ^ 32) : Reads word (wordBytes v) v := by
  have htake := (reads_take (wordBytes v)).map fun bytes =>
    Bytes.ofLittleEndianList bytes.reverse
  rw [length_wordBytes] at htake
  have hvalue : Bytes.ofLittleEndianList (wordBytes v).reverse = v := by
    rw [wordBytes, List.reverse_reverse, Bytes.ofLittleEndianList_littleEndianList]
    exact Nat.mod_eq_of_lt hv
  rwa [hvalue] at htake

theorem reads_padding (n : Nat) : Reads (padding n) (fill n) () := by
  have htake := reads_take (fill n)
  have hblank : ∀ b ∈ fill n, b = 0 := fun b hb => List.eq_of_mem_replicate hb
  have hguard : Reads (guard (∀ b ∈ fill n, b = 0)) [] () := by
    intro rest
    rw [guard, if_pos hblank]
    rfl
  have hbind := htake.bind (f := fun bytes => guard (∀ b ∈ bytes, b = 0)) hguard
  rwa [List.append_nil, fill, List.length_replicate] at hbind

/-- A text ends where its zero byte stands. -/
theorem reads_text {s : String} (hs : '\x00' ∉ s.toList) : Reads text (textBytes s) s := by
  have hnonzero : ∀ b ∈ octets s.toUTF8, (b != 0) = true := by
    intro b hb
    refine bne_iff_ne.mpr ?_
    rintro rfl
    exact zero_notMem_toUTF8 hs hb
  intro rest
  have hlead : (textBytes s ++ rest).takeWhile (· != 0) = octets s.toUTF8 := by
    rw [textBytes, List.append_assoc, List.takeWhile_append_of_pos hnonzero]
    simp
  have htail : (textBytes s ++ rest).dropWhile (· != 0) = 0 :: rest := by
    rw [textBytes, List.append_assoc, List.dropWhile_append_of_pos hnonzero]
    simp
  have hbytes : (octets s.toUTF8).toByteArray = s.toUTF8 := by
    apply ByteArray.ext
    rw [List.data_toByteArray, Array.toArray_toList]
  rw [text, hlead, htail]
  simp only
  rw [hbytes, Bytes.fromUTF8?_toUTF8]
  rfl

end Reader

end RiscvMachine.DeviceTree
