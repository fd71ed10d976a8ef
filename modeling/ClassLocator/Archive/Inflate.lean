import ClassLocator.Archive.Code
/-!
Expanding deflated data: blocks of bytes stored as they are, or of literals and references to earlier
output, written in a fixed code or in one that the block brings along.
-/

namespace ClassLocator.Archive

inductive Ending where
  | complete
  | failed (fault : DataFault)
  | open
  deriving DecidableEq, Repr

/-- The first bytes of an entry's data, and how it goes on. -/
structure Excerpt where
  bytes : ByteArray
  ending : Ending

namespace Inflate

inductive Status where
  | at (position : Nat)
  | ended (ending : Ending)

def failed (fault : DataFault) : Status := .ended (.failed fault)

/-- The lengths of copies: the least one of each symbol from 257 on, and its number of extra bits. -/
def copyLengths : Array (Nat × Nat) := #[
  (3, 0), (4, 0), (5, 0), (6, 0), (7, 0), (8, 0), (9, 0), (10, 0), (11, 1), (13, 1), (15, 1),
  (17, 1), (19, 2), (23, 2), (27, 2), (31, 2), (35, 3), (43, 3), (51, 3), (59, 3), (67, 4),
  (83, 4), (99, 4), (115, 4), (131, 5), (163, 5), (195, 5), (227, 5), (258, 0)]

def copyDistances : Array (Nat × Nat) := #[
  (1, 0), (2, 0), (3, 0), (4, 0), (5, 1), (7, 1), (9, 2), (13, 2), (17, 3), (25, 3), (33, 4),
  (49, 4), (65, 5), (97, 5), (129, 6), (193, 6), (257, 7), (385, 7), (513, 8), (769, 8),
  (1025, 9), (1537, 9), (2049, 10), (3073, 10), (4097, 11), (6145, 11), (8193, 12), (12289, 12),
  (16385, 13), (24577, 13)]

def fixedLiterals : Code :=
  .ofLengths (List.replicate 144 8 ++ List.replicate 112 9 ++ List.replicate 24 7
    ++ List.replicate 8 8)

def fixedDistances : Code := .ofLengths (List.replicate 32 5)

/-- Repeats output from `distance` bytes back. Before the first byte there are zeros. -/
def copy (distance : Nat) : (length : Nat) → (output : ByteArray) → ByteArray
  | 0, output => output
  | n + 1, output =>
    if h : 0 < distance ∧ distance ≤ output.size then
      copy distance n (output.push output[output.size - distance])
    else copy distance n (output.push 0)

def extended (ranges : Array (Nat × Nat)) (data : ByteArray) (symbol position : Nat) :
    Except DataFault (Nat × Nat) :=
  match ranges[symbol]? with
  | none => .error .corrupt
  | some (least, extra) =>
    match bits? data position extra with
    | none => .error .incomplete
    | some n => .ok (least + n, position + extra)

def reference (distances : Code) (data : ByteArray) (symbol position : Nat) :
    Except DataFault (Nat × Nat × Nat) := do
  let (length, p) ← extended copyLengths data (symbol - 257) position
  let (distanceSymbol, p) ← distances.decode data p
  let (distance, p) ← extended copyDistances data distanceSymbol p
  return (length, distance, p)

def symbols (literals distances : Code) (data : ByteArray) (limit : Nat) :
    (fuel position : Nat) → (output : ByteArray) → ByteArray × Status
  | 0, _, output => (output, failed .incomplete)
  | fuel + 1, position, output =>
    if limit ≤ output.size then (output, .ended .open)
    else
      match literals.decode data position with
      | .error e => (output, failed e)
      | .ok (symbol, p) =>
        if symbol < 256 then
          symbols literals distances data limit fuel p (output.push symbol.toUInt8)
        else if symbol = 256 then (output, .at p)
        else
          match reference distances data symbol p with
          | .error e => (output, failed e)
          | .ok (length, distance, p) =>
            symbols literals distances data limit fuel p (copy distance length output)

/-- A block of bytes as they are, which begins at a whole byte with its length, once plain and once
with all bits inverted. -/
def stored (data : ByteArray) (position : Nat) (output : ByteArray) : ByteArray × Status :=
  let start := (position + 7) / 8
  match bits? data (8 * start) 16, bits? data (8 * start + 16) 16 with
  | some length, some inverted =>
    if length + inverted = 0xFFFF then
      let body := data.extract (start + 4) (start + 4 + length)
      (output ++ body,
        if body.size < length then failed .incomplete else .at (8 * (start + 4 + length)))
    else (output, failed .corrupt)
  | _, _ => (output, failed .incomplete)

def lengthOrder : List Nat := [16, 17, 18, 0, 8, 7, 9, 6, 10, 5, 11, 4, 12, 3, 13, 2, 14, 1, 15]

def lengthCodeLengths (data : ByteArray) (position n : Nat) : Except DataFault (List Nat) := do
  let given ← (List.range n).mapM fun i =>
    match bits? data (position + 3 * i) 3 with
    | some b => .ok b
    | none => .error .incomplete
  return (List.range 19).map fun symbol => ((lengthOrder.zip given).lookup symbol).getD 0

/-- Reads `total` code lengths, which are themselves in a code. Three symbols repeat: the length
before, or zero. The list `before` has the lengths so far, the last one first. -/
def codeLengths (code : Code) (data : ByteArray) (total : Nat) :
    (fuel position : Nat) → (before : List Nat) → Except DataFault (List Nat × Nat)
  | 0, _, _ => .error .corrupt
  | fuel + 1, position, before =>
    if total < before.length then .error .corrupt
    else if total = before.length then .ok (before.reverse, position)
    else do
      let (symbol, p) ← code.decode data position
      if symbol < 16 then codeLengths code data total fuel p (symbol :: before)
      else
        let (least, extra, value) ← match symbol, before with
          | 16, [] => .error .corrupt
          | 16, last :: _ => .ok (3, 2, last)
          | 17, _ => .ok (3, 3, 0)
          | _, _ => .ok (11, 7, 0)
        match bits? data p extra with
        | none => .error .incomplete
        | some n =>
          codeLengths code data total fuel (p + extra) (List.replicate (least + n) value ++ before)

/-- A code that a block brings along has to be complete, but it may also have no symbol, or a single
one with a code of one bit. -/
def usable (c : Code) : Bool := c.isComplete || c.isMinimal

def ownCodes (data : ByteArray) (position : Nat) : Except DataFault (Code × Code × Nat) := do
  let some header := bits? data position 14 | throw .incomplete
  let literals := header % 32 + 257
  let distances := header / 32 % 32 + 1
  let given := header / 1024 + 4
  if literals > 286 ∨ distances > 30 then throw .corrupt
  let lengthCode := Code.ofLengths (← lengthCodeLengths data (position + 14) given)
  unless lengthCode.isComplete do throw .corrupt
  let total := literals + distances
  let (lengths, p) ←
    codeLengths lengthCode data total (total + 1) (position + 14 + 3 * given) []
  let literalCode := Code.ofLengths (lengths.take literals)
  let distanceCode := Code.ofLengths (lengths.drop literals)
  unless usable literalCode && usable distanceCode do throw .corrupt
  return (literalCode, distanceCode, p)

def block (data : ByteArray) (limit fuel kind position : Nat) (output : ByteArray) :
    ByteArray × Status :=
  match kind with
  | 0 => stored data position output
  | 1 => symbols fixedLiterals fixedDistances data limit fuel position output
  | 2 =>
    match ownCodes data position with
    | .error e => (output, failed e)
    | .ok (literals, distances, p) => symbols literals distances data limit fuel p output
  | _ => (output, failed .corrupt)

def blocks (data : ByteArray) (limit : Nat) : (fuel position : Nat) → (output : ByteArray) → Excerpt
  | 0, _, output => ⟨output, .failed .incomplete⟩
  | fuel + 1, position, output =>
    if limit ≤ output.size then ⟨output, .open⟩
    else
      match bits? data position 3 with
      | none => ⟨output, .failed .incomplete⟩
      | some header =>
        match block data limit (fuel + 1) (header / 2) (position + 3) output with
        | (output, .ended ending) => ⟨output, ending⟩
        | (output, .at p) =>
          if header % 2 = 0 then blocks data limit fuel p output
          else if limit ≤ output.size then ⟨output, .open⟩
          else ⟨output, .complete⟩

end Inflate

/-- The first bytes of what `data` expands to: `limit` of them, or a few more. -/
def inflate (data : ByteArray) (limit : Nat) : Excerpt :=
  Inflate.blocks data limit (8 * data.size + 1) 0 ByteArray.empty

end ClassLocator.Archive
