import RiscvMachine.Compression.Zstd.Stream
import RiscvMachine.Proofs.Bytes

set_option autoImplicit false

/-! # Stored frames

What `store` writes, `decompress` reads back (`decompress_store`), as long as it fits into the
room that the decoder has for a frame. Then the frame has a single block, tells the size of its
contents, and is read as a whole.
-/

namespace RiscvMachine

/-! ## Lists of bytes, and numbers between other bytes -/

namespace Bytes

/-- The conversion to a list goes through the bytes from the front and keeps them reversed. -/
theorem toList_loop (bytes : ByteArray) (i : Nat) (reversed : List UInt8) :
    ByteArray.toList.loop bytes i reversed = reversed.reverse ++ bytes.data.toList.drop i := by
  fun_induction ByteArray.toList.loop with
  | case1 i reversed hi ih =>
      have hlength : i < bytes.data.toList.length := hi
      have hbyte : bytes.get! i = bytes.data.toList[i] := by
        rw [Array.getElem_toList]
        exact getElem!_pos bytes.data i hi
      rw [ih, List.drop_eq_getElem_cons hlength, hbyte, List.reverse_cons, List.append_assoc,
        List.singleton_append]
  | case2 i reversed hi =>
      have hlength : bytes.data.toList.length ≤ i := Nat.le_of_not_lt hi
      rw [List.drop_eq_nil_of_le hlength, List.append_nil]

theorem toList_eq (bytes : ByteArray) : bytes.toList = bytes.data.toList := by
  rw [ByteArray.toList, toList_loop, List.reverse_nil, List.nil_append, List.drop_zero]

theorem toList_toByteArray (l : List UInt8) : l.toByteArray.toList = l := by
  rw [toList_eq, List.toList_data_toByteArray]

/-- A number is read back from where it stands. -/
theorem littleEndianAt_append {front : ByteArray} {i : Nat} (hfront : front.size = i) (n v : Nat)
    (rest : ByteArray) :
    littleEndianAt (front ++ (littleEndian n v ++ rest)) i n = v % 256 ^ n := by
  apply littleEndianAt_of_digits
  intro k hk
  rw [byteAt_append, if_neg (by omega), hfront, Nat.add_sub_cancel_left, byteAt_append,
    if_pos (by rwa [size_littleEndian]), byteAt_littleEndian hk]

/-- The stretch behind the first `i` bytes. -/
theorem extract_append {front : ByteArray} {i : Nat} (hfront : front.size = i)
    (rest : ByteArray) : (front ++ rest).extract i (i + rest.size) = rest := by
  apply ext_byteAt
  · rw [ByteArray.size_extract, ByteArray.size_append]
    omega
  · intro k hk
    rw [ByteArray.size_extract, ByteArray.size_append] at hk
    rw [byteAt_extract, if_pos (by omega), byteAt_append, if_neg (by omega), hfront,
      Nat.add_sub_cancel_left]

end Bytes

namespace Compression.Zstd

open Bytes

/-! ## The bytes of a stored frame -/

variable {bytes : ByteArray}

/-- The parts of a frame of one block: magic number, flags, size, block header and contents. -/
theorem store_eq (hsize : bytes.size ≤ maxBlockSize) :
    store bytes = littleEndian 4 frameMagic ++ ([0xA0].toByteArray ++ (littleEndian 4 bytes.size ++
      (littleEndian BlockHeader.length (8 * bytes.size + 1) ++ bytes))) := by
  have hmin : min maxBlockSize (bytes.size - 0) = bytes.size := by omega
  have hlast : bytes.size ≤ 0 + bytes.size := by omega
  have hall : bytes.extract 0 (0 + bytes.size) = bytes := by simp
  have hblocks : rawBlocks bytes (bytes.size / maxBlockSize + 1) 0 =
      littleEndian BlockHeader.length (8 * bytes.size + 1) ++ bytes := by
    simp only [rawBlocks, hmin, hlast, hall, if_true]
  rw [store, hblocks]
  simp only [ByteArray.append_assoc]

theorem size_store (hsize : bytes.size ≤ maxBlockSize) : (store bytes).size = 12 + bytes.size := by
  rw [store_eq hsize]
  simp only [ByteArray.size_append, size_littleEndian, BlockHeader.length, List.size_toByteArray,
    List.length_singleton]
  omega

theorem magic_store (hsize : bytes.size ≤ maxBlockSize) :
    littleEndianAt (store bytes) 0 4 = frameMagic := by
  rw [store_eq hsize, ← ByteArray.empty_append (b := littleEndian 4 frameMagic ++ _)]
  exact littleEndianAt_append ByteArray.size_empty 4 frameMagic _

theorem flags_store (hsize : bytes.size ≤ maxBlockSize) : byteAt (store bytes) 4 = 0xA0 := by
  rw [store_eq hsize, byteAt_append, if_neg (by simp), byteAt_append, if_pos (by simp),
    size_littleEndian]
  rfl

theorem contentSize_store (hsize : bytes.size ≤ maxBlockSize) :
    littleEndianAt (store bytes) 5 4 = bytes.size := by
  have hlt : bytes.size < 256 ^ 4 := Nat.lt_of_le_of_lt hsize (by decide)
  rw [store_eq hsize, ← ByteArray.append_assoc, littleEndianAt_append (by simp),
    Nat.mod_eq_of_lt hlt]

theorem blockNumber_store (hsize : bytes.size ≤ maxBlockSize) :
    littleEndianAt (store bytes) 9 BlockHeader.length = 8 * bytes.size + 1 := by
  have hlt : 8 * bytes.size + 1 < 256 ^ BlockHeader.length := by
    have hmax : 8 * maxBlockSize + 1 < 256 ^ BlockHeader.length := by decide
    omega
  rw [store_eq hsize, ← ByteArray.append_assoc, ← ByteArray.append_assoc,
    littleEndianAt_append (by simp), Nat.mod_eq_of_lt hlt]

theorem contents_store (hsize : bytes.size ≤ maxBlockSize) :
    (store bytes).extract 12 (12 + bytes.size) = bytes := by
  rw [store_eq hsize, ← ByteArray.append_assoc, ← ByteArray.append_assoc,
    ← ByteArray.append_assoc]
  exact extract_append (by simp [BlockHeader.length]) bytes

/-! ## Reading it -/

def storedHeader (size : Nat) : FrameHeader where
  windowSize := size
  blockLimit := min size maxBlockSize
  contentSize := some size
  hasChecksum := false

theorem canStart_store (hsize : bytes.size ≤ maxBlockSize) :
    FrameStart.canStart ((store bytes).extract 0 4).toList = true := by
  have hmagic : (store bytes).extract 0 4 = littleEndian 4 frameMagic := by
    rw [store_eq hsize, ByteArray.extract_append_eq_left (by simp)]
  rw [hmagic, littleEndian, toList_toByteArray]
  decide

theorem readHeader_store (hsize : bytes.size ≤ maxBlockSize) :
    FrameStart.readHeader (store bytes) 4 = .ok (.frame (storedHeader bytes.size), 9) := by
  have hflags : (byteAt (store bytes) 4).toNat = 160 := by rw [flags_store hsize]; rfl
  have hthere : ¬ (store bytes).size < 4 + 1 := by rw [size_store hsize]; omega
  have hfields : ¬ (store bytes).size < 4 + 1 + (0 + 0 + 4) := by rw [size_store hsize]; omega
  have htold : bytes.size + 1 ≠ UInt64.size := by
    have hmax : maxBlockSize + 1 < UInt64.size := by decide
    omega
  simp [FrameStart.readHeader, need, hflags, hthere, hfields, htold, contentSize_store hsize,
    littleEndianAt, storedHeader, pure, Except.pure, bind, Except.bind]

theorem readFrameStart_store (hsize : bytes.size ≤ maxBlockSize) :
    FrameStart.read (store bytes) 0 = .ok (.frame (storedHeader bytes.size), 9) := by
  have hthere : ¬ (store bytes).size < 5 := by rw [size_store hsize]; omega
  simp [FrameStart.read, need, canStart_store hsize, hthere, magic_store hsize,
    readHeader_store hsize, pure, Except.pure, bind, Except.bind]

theorem readBlock_store (hsize : bytes.size ≤ maxBlockSize) :
    BlockHeader.read (store bytes) 9 = ⟨true, .raw, bytes.size⟩ := by
  have hlast : (8 * bytes.size + 1) % 2 = 1 := by omega
  have hkind : (8 * bytes.size + 1) / 2 % 4 = 0 := by omega
  have hcontents : (8 * bytes.size + 1) / 8 = bytes.size := by omega
  rw [BlockHeader.read, blockNumber_store hsize]
  simp only [hlast, hkind, hcontents, decide_true]

theorem blockEnd_store (hsize : bytes.size ≤ maxBlockSize) :
    blockEnd? (store bytes) 9 = some (12 + bytes.size, true) := by
  simp [blockEnd?, readBlock_store hsize, BlockHeader.bodyLength, BlockHeader.length,
    size_store hsize]

theorem frameEnd_store (hsize : bytes.size ≤ maxBlockSize) :
    frameEnd? (storedHeader bytes.size) (store bytes) 9 = some (12 + bytes.size) := by
  simp [frameEnd?, blocksEnd?, blockEnd_store hsize, checksumLength, storedHeader,
    size_store hsize]

theorem wholeFrame_store {room : Nat} (hroom : bytes.size ≤ room)
    (hsize : bytes.size ≤ maxBlockSize) :
    wholeFrame? (storedHeader bytes.size) room (store bytes) 9 = some bytes := by
  have hblock : ∀ limit, appendBlock? limit room (store bytes) 9 .start ByteArray.empty =
      some (bytes, .start) := by
    intro limit
    simp [appendBlock?, readBlock_store hsize, BlockHeader.length, contents_store hsize,
      Nat.not_lt.mpr hroom]
  simp [wholeFrame?, appendBlocks?, blockEnd_store hsize, hblock, storedHeader, checksumMatches]

/-- What fits into the room for a frame is read back as it was written. -/
theorem decompress_store (hroom : bytes.size ≤ roomSize) :
    decompress (store bytes) = some bytes := by
  have hsize : bytes.size ≤ maxBlockSize := Nat.le_trans hroom (by decide)
  have hpiece : (store bytes).extract 0 pieceSize = store bytes := by
    have hlarge : 12 + roomSize ≤ pieceSize := by decide
    have hall : (store bytes).size ≤ pieceSize := by rw [size_store hsize]; omega
    rw [← Nat.max_eq_left hall, ByteArray.extract_zero_max_size]
  -- the whole frame is at hand in the first piece, and there is nothing behind it
  have hread : State.start.read ⟨store bytes, 0, roomSize⟩ =
      .ok (.whole bytes, 12 + bytes.size) := by
    have htold : (storedHeader bytes.size).contentSize.any (· ≤ roomSize) := by
      simpa [storedHeader] using hroom
    simp [State.read, State.readFrameStart, State.readFrame, State.start,
      readFrameStart_store hsize, frameEnd_store hsize, wholeFrame_store hroom hsize, htold]
  rw [decompress, hpiece, State.contents?, hread]
  simp [State.apply, State.start, Item.endsFrame, size_store hsize]

end Compression.Zstd

end RiscvMachine
