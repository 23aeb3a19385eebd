/-! Checksums by division of bits, the lowest or the highest bit of a byte first. -/
namespace JvmRoutes.Archive

def lowDivide (c : UInt32) : UInt32 :=
  if c &&& 1 = 1 then (c >>> 1) ^^^ 0xEDB88320 else c >>> 1

def lowSum (c : UInt32) (byte : UInt8) : UInt32 := Nat.repeat lowDivide 8 (c ^^^ byte.toUInt32)

def lowChecksum (bytes : ByteArray) : UInt32 := ~~~(bytes.foldl lowSum 0xFFFFFFFF)

def highDivide (c : UInt32) : UInt32 :=
  if c >>> 31 = 1 then (c <<< 1) ^^^ 0x04C11DB7 else c <<< 1

def highSum (c : UInt32) (byte : UInt8) : UInt32 :=
  Nat.repeat highDivide 8 (c ^^^ (byte.toUInt32 <<< 24))

def highChecksum (bytes : ByteArray) : UInt32 := ~~~(bytes.foldl highSum 0xFFFFFFFF)

end JvmRoutes.Archive
