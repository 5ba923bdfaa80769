set_option autoImplicit false

/-! # Cyclic redundancy check

The 32-bit check of gzip: the remainder of the message in the reflected polynomial 0xEDB88320,
with all bits of the register inverted before and after.
-/

namespace RiscvMachine.Compression.Crc32

def shift (register : UInt32) : UInt32 :=
  if register &&& 1 = 0 then register >>> 1 else (register >>> 1) ^^^ 0xEDB88320

def shiftByte (register : UInt32) : UInt32 :=
  shift (shift (shift (shift (shift (shift (shift (shift register)))))))

/-- The registers that the 256 byte values lead to. -/
def table : Vector UInt32 256 :=
  Vector.ofFn fun i => shiftByte (UInt32.ofNat i.val)

def update (register : UInt32) (byte : UInt8) : UInt32 :=
  (register >>> 8) ^^^ table.get (Fin.ofNat 256 (register ^^^ byte.toUInt32).toNat)

def checksum (message : ByteArray) : UInt32 :=
  message.foldl update 0xFFFFFFFF ^^^ 0xFFFFFFFF

end RiscvMachine.Compression.Crc32
