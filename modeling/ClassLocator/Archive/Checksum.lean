/-!
The checksum of an entry's data: the cyclic redundancy check of 32 bits whose polynomial is
0x04C11DB7, with the bits of each byte taken from the lowest on.
-/

namespace ClassLocator.Archive.Checksum

/-- The polynomial with its bits reversed. -/
def polynomial : UInt32 := 0xEDB88320

def stepBit (r : UInt32) : UInt32 := if r &&& 1 = 1 then (r >>> 1) ^^^ polynomial else r >>> 1

def stepByte (r : UInt32) : UInt32 :=
  stepBit (stepBit (stepBit (stepBit (stepBit (stepBit (stepBit (stepBit r)))))))

def table : Array UInt32 := Array.ofFn fun i : Fin 256 => stepByte i.val.toUInt32

def push (r : UInt32) (b : UInt8) : UInt32 :=
  table.getD ((r ^^^ b.toUInt32) &&& 0xFF).toNat 0 ^^^ (r >>> 8)

def ofBytes (bytes : ByteArray) : UInt32 := bytes.foldl push 0xFFFFFFFF ^^^ 0xFFFFFFFF

end ClassLocator.Archive.Checksum
