import ClassLocator.Archive.Fault

namespace ClassLocator.Archive

/-- The number that `n` bytes from `position` on write, the lowest byte first. Bytes beyond the end
count as zero. -/
def littleEndian (bytes : ByteArray) (position : Nat) : (n : Nat) → Nat
  | 0 => 0
  | n + 1 => (bytes[position]?.getD 0).toNat + 256 * littleEndian bytes (position + 1) n

def number (bytes : ByteArray) (position n : Nat) : Except Fault Nat :=
  if position + n ≤ bytes.size then .ok (littleEndian bytes position n) else .error .outOfData

def slice (bytes : ByteArray) (position n : Nat) : Except Fault ByteArray :=
  if position + n ≤ bytes.size then .ok (bytes.extract position (position + n))
  else .error .outOfData

end ClassLocator.Archive
