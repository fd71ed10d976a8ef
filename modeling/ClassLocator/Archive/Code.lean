import ClassLocator.Archive.Fault
/-!
Bits of compressed data, and the prefix codes that they are written in. The bits of a byte come from
the lowest on. A code gives each symbol a length; shorter codes come first, and among codes of one
length the smaller symbol.
-/

namespace ClassLocator.Archive

def bit? (data : ByteArray) (position : Nat) : Option Nat :=
  if h : position / 8 < data.size then
    some ((data[position / 8] >>> (position % 8).toUInt8) &&& 1).toNat
  else none

def bits? (data : ByteArray) (position : Nat) : (n : Nat) → Option Nat
  | 0 => some 0
  | n + 1 =>
    match bit? data position, bits? data (position + 1) n with
    | some b, some high => some (b + 2 * high)
    | _, _ => none

/-- The symbols of each code length from one on, in their order. -/
structure Code where
  levels : List (Array Nat)

namespace Code

def level (lengths : List Nat) (n : Nat) : Array Nat :=
  ((lengths.zipIdx.filter (·.1 = n)).map (·.2)).toArray

/-- The code with these lengths for the symbols from zero on, where zero means no code. It has a first
level even if no symbol has a code. -/
def ofLengths (lengths : List Nat) : Code :=
  ⟨(List.range (max 1 (lengths.foldl max 0))).map fun n => level lengths (n + 1)⟩

def size (c : Code) : Nat := c.levels.foldl (fun n level => n + level.size) 0

def taken (c : Code) : Nat := c.levels.foldl (fun n level => 2 * n + level.size) 0

def space (c : Code) : Nat := c.levels.foldl (fun n _ => 2 * n) 1

def isComplete (c : Code) : Bool := c.taken = c.space

def isMinimal (c : Code) : Bool := c.levels.length = 1 && c.size ≤ 1

/-- Reads a code. The number `offset` tells how far the bits so far lie behind the first code of their
length. Gives the symbol and the place behind its code. Bits that are as long as the longest code and
are none themselves cannot be read. -/
def decodeFrom (data : ByteArray) : (levels : List (Array Nat)) → (position offset : Nat) →
    Except DataFault (Nat × Nat)
  | [], _, _ => .error .corrupt
  | level :: levels, position, offset =>
    match bit? data position with
    | none => .error .incomplete
    | some b =>
      let offset := 2 * offset + b
      match level[offset]? with
      | some symbol => .ok (symbol, position + 1)
      | none => decodeFrom data levels (position + 1) (offset - level.size)

def decode (c : Code) (data : ByteArray) (position : Nat) : Except DataFault (Nat × Nat) :=
  decodeFrom data c.levels position 0

end Code

end ClassLocator.Archive
