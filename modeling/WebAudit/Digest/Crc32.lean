/-!
# CRC-32

The checksum of a list of bytes: a register of 32 bits takes the bytes in one by one, and its
complement is the checksum.
-/

namespace WebAudit.Digest.Crc32

def shift (register : UInt32) : UInt32 :=
  if register &&& 1 = 1 then (register >>> 1) ^^^ 0xEDB88320 else register >>> 1

def shifts : Nat → UInt32 → UInt32
  | 0, register => register
  | n + 1, register => shifts n (shift register)

/-- What eight bits move to, for each value of a byte. -/
def table : Array UInt32 :=
  ((List.range 256).map fun n => shifts 8 (UInt32.ofNat n)).toArray

def start : UInt32 := 0xFFFFFFFF

def step (register : UInt32) (byte : UInt8) : UInt32 :=
  table.getD ((register &&& 0xFF) ^^^ byte.toUInt32).toNat 0 ^^^ (register >>> 8)

def update (register : UInt32) (bytes : List UInt8) : UInt32 :=
  bytes.foldl step register

def checksum (register : UInt32) : UInt32 :=
  register ^^^ 0xFFFFFFFF

end WebAudit.Digest.Crc32
