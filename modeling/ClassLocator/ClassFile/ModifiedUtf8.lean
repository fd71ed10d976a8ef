/-!
The encoding of names in class files: UTF-16 units of one to three bytes each, the zero unit in two
bytes and the halves of a surrogate pair apart. Bytes that are plain UTF-8 are taken as such.
-/

namespace ClassLocator.ClassFile.ModifiedUtf8

def replacement : Nat := 0xFFFD

def tail (b : UInt8) : Nat := b.toNat % 64

/-- The unit of a byte that begins no group: itself below 0x80, else a replacement. -/
def alone (b : UInt8) : Nat := if b < 0x80 then b.toNat else replacement

def leadsPair (b : UInt8) : Bool := b &&& 0xE0 == 0xC0

def leadsTriple (b : UInt8) : Bool := b &&& 0xF0 == 0xE0

def pair (b c : UInt8) : Nat := b.toNat % 32 * 64 + tail c

def triple (b c d : UInt8) : Nat := b.toNat % 16 * 4096 + tail c * 64 + tail d

/-- The units of a byte string. The high bits of a lead byte alone decide how many bytes its group
takes; a lead byte whose group the end cuts short stands alone. -/
def units : List UInt8 → List Nat
  | [] => []
  | [b] => [alone b]
  | [b, c] => if leadsPair b then [pair b c] else alone b :: units [c]
  | b :: c :: d :: rest =>
    if leadsPair b then pair b c :: units (d :: rest)
    else if leadsTriple b then triple b c d :: units rest
    else alone b :: units (c :: d :: rest)

def isHighSurrogate (u : Nat) : Bool := 0xD800 ≤ u && u < 0xDC00

def isLowSurrogate (u : Nat) : Bool := 0xDC00 ≤ u && u < 0xE000

/-- The character of a unit by itself. A surrogate without its other half is replaced. -/
def lone (u : Nat) : Char :=
  Char.ofNat (if isHighSurrogate u || isLowSurrogate u then replacement else u)

def ofUnits : List Nat → List Char
  | [] => []
  | [u] => [lone u]
  | u :: v :: rest =>
    if isHighSurrogate u && isLowSurrogate v then
      Char.ofNat (0x10000 + (u - 0xD800) * 0x400 + (v - 0xDC00)) :: ofUnits rest
    else lone u :: ofUnits (v :: rest)

def decode (bytes : ByteArray) : String :=
  match String.fromUTF8? bytes with
  | some s => s
  | none => String.ofList (ofUnits (units bytes.data.toList))

end ClassLocator.ClassFile.ModifiedUtf8
