import ClassLocator.Failure

namespace ClassLocator.ClassFile

/-- The bytes of a class file, or of one attribute's body, and the place of the next field. -/
structure Input where
  bytes : ByteArray
  position : Nat := 0

abbrev Reader (α : Type) := StateT Input (Except Failure) α

namespace Reader

def take (n : Nat) : Reader ByteArray := fun i =>
  if i.position + n ≤ i.bytes.size then
    .ok (i.bytes.extract i.position (i.position + n), { i with position := i.position + n })
  else .error (.truncated i.position)

def skip (n : Nat) : Reader Unit := fun i =>
  if i.position + n ≤ i.bytes.size then .ok ((), { i with position := i.position + n })
  else .error (.truncated i.position)

def bigEndian (bytes : ByteArray) (position : Nat) : (n : Nat) → Nat
  | 0 => 0
  | n + 1 => bigEndian bytes position n * 256 + (bytes[position + n]?.getD 0).toNat

def number (n : Nat) : Reader Nat := fun i =>
  if i.position + n ≤ i.bytes.size then
    .ok (bigEndian i.bytes i.position n, { i with position := i.position + n })
  else .error (.truncated i.position)

def u1 : Reader UInt8 := return (← number 1).toUInt8

def u2 : Reader Nat := number 2

def u4 : Reader Nat := number 4

def timesAfter {α : Type} (item : Reader α) : (n : Nat) → (before : List α) → Reader (List α)
  | 0, before => return before.reverse
  | n + 1, before => do timesAfter item n ((← item) :: before)

def times {α : Type} (item : Reader α) (n : Nat) : Reader (List α) := timesAfter item n []

def pass (item : Reader Unit) : (n : Nat) → Reader Unit
  | 0 => return
  | n + 1 => do
    item
    pass item n

/-- Reads a body of its own, in which places are counted afresh. -/
def within {α : Type} (body : ByteArray) (reader : Reader α) : Reader α := fun i =>
  match reader ⟨body, 0⟩ with
  | .ok (a, _) => .ok (a, i)
  | .error e => .error e

end Reader

end ClassLocator.ClassFile
