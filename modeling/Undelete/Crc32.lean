import Undelete.Bytes

/-!
The reflected CRC-32 with polynomial 0xEDB88320, started and finished with all bits inverted.
-/

namespace Undelete.Crc32

def shift (register : UInt32) : UInt32 :=
  if register &&& 1 = 1 then (register >>> 1) ^^^ 0xEDB88320 else register >>> 1

def absorb (register : UInt32) (byte : UInt8) : UInt32 :=
  let mixed := register ^^^ byte.toUInt32
  shift (shift (shift (shift (shift (shift (shift (shift mixed)))))))

def checksum (data : Bytes) : Nat := ((data.foldl absorb 0xFFFFFFFF) ^^^ 0xFFFFFFFF).toNat

end Undelete.Crc32
