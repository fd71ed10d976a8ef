import ClassLocator.Archive.Fields
import ClassLocator.Text.CodePage437
import ClassLocator.Text.Utf8
/-!
The directory of an archive. It is found from the end of the file: a record there tells where the
directory lies and how many headers it has, in the narrow form or, where a locator stands before it,
in the wide form. Data in front of the archive shifts every place by the same amount.
-/

namespace ClassLocator

namespace Archive

structure Header where
  name : String
  flags : Nat
  compression : Nat
  checksum : Nat
  compressedSize : Nat
  size : Nat
  start : Nat
  deriving Repr

end Archive

structure Archive where
  bytes : ByteArray
  headers : List Archive.Header

namespace Archive

def endMark : Nat := 0x06054B50
def wideEndMark : Nat := 0x06064B50
def wideLocatorMark : Nat := 0x07064B50
def directoryMark : Nat := 0x02014B50
def localMark : Nat := 0x04034B50

/-- The numbers that say that the true ones stand elsewhere. -/
def maxShort : Nat := 0xFFFF
def maxWord : Nat := 0xFFFFFFFF
def maxLong : Nat := 0xFFFFFFFFFFFFFFFF

def encryptedMethod : Nat := 99

structure EndRecord where
  disk : Nat
  directoryDisk : Nat
  entriesOnDisk : Nat
  entries : Nat
  directorySize : Nat
  directoryOffset : Nat
  commentLength : Nat

def EndRecord.overflows (r : EndRecord) : Bool :=
  r.disk = maxShort || r.directoryDisk = maxShort || r.entriesOnDisk = maxShort
    || r.entries = maxShort || r.directorySize = maxWord || r.directoryOffset = maxWord

def endRecordSize : Nat := 22

def findBackwards (bytes : ByteArray) (mark : Nat) : (n position : Nat) → Option Nat
  | 0, _ => none
  | n + 1, position =>
    if littleEndian bytes position 4 = mark then some position
    else findBackwards bytes mark n (position - 1)

def findForwards (bytes : ByteArray) (mark : Nat) : (n position : Nat) → Option Nat
  | 0, _ => none
  | n + 1, position =>
    if littleEndian bytes position 4 = mark then some position
    else findForwards bytes mark n (position + 1)

/-- The end record and its place: the last one that leaves room for itself and for no more than the
longest comment. Its own comment has to be there. -/
def endRecord (bytes : ByteArray) : Except Fault (EndRecord × Nat) := do
  if bytes.size < endRecordSize then throw .tooShort
  let last := bytes.size - endRecordSize
  match findBackwards bytes endMark (min last maxShort + 1) last with
  | none => throw .noEndRecord
  | some p =>
    let commentLength := littleEndian bytes (p + 20) 2
    let _ ← slice bytes (p + endRecordSize) commentLength
    return ({
      disk := littleEndian bytes (p + 4) 2
      directoryDisk := littleEndian bytes (p + 6) 2
      entriesOnDisk := littleEndian bytes (p + 8) 2
      entries := littleEndian bytes (p + 10) 2
      directorySize := littleEndian bytes (p + 12) 4
      directoryOffset := littleEndian bytes (p + 16) 4
      commentLength }, p)

/-- Where the directory lies, how many headers it has, and by how much all places are shifted. -/
structure Extent where
  shift : Nat
  start : Nat
  entries : Nat

def narrowExtent (r : EndRecord) (position : Nat) : Except Fault Extent :=
  if r.directorySize + r.directoryOffset ≤ position then
    .ok ⟨position - r.directorySize - r.directoryOffset, position - r.directorySize,
      r.entriesOnDisk⟩
  else .error .misplacedDirectory

/-- The extent that the wide end record gives, which the locator at `locator` points to. The record is
looked for from the place given up to the last one that has room before the narrow record. -/
def wideExtent (bytes : ByteArray) (r : EndRecord) (position locator : Nat) :
    Except Fault Extent := do
  if !r.overflows && r.disk != littleEndian bytes (locator + 4) 4 then throw .severalDisks
  if position < 60 then throw .noRoomForWideEndRecord
  let nominal := littleEndian bytes (locator + 8) 8
  match findForwards bytes wideEndMark (position - 60 + 1 - nominal) nominal with
  | none => throw .noWideEndRecord
  | some p =>
    let shift := p - nominal
    if littleEndian bytes (p + 16) 4 ≠ littleEndian bytes (p + 20) 4 then throw .severalDisks
    let start := littleEndian bytes (p + 48) 8 + shift
    if start > maxLong then throw .misplacedDirectory
    return ⟨shift, start, littleEndian bytes (p + 32) 8⟩

def extent (bytes : ByteArray) : Except Fault Extent := do
  let (r, position) ← endRecord bytes
  if !r.overflows && r.disk != r.directoryDisk then throw .severalDisks
  let beforeLocator := 20 + endRecordSize + r.commentLength
  let locator := bytes.size - beforeLocator
  if beforeLocator ≤ bytes.size ∧ littleEndian bytes locator 4 = wideLocatorMark then
    wideExtent bytes r position locator
  else narrowExtent r position

structure PartialHeader where
  header : Header
  encrypted : Bool := false

/-- Puts the wide form of a number in place of a narrow one that overflows. What is left of the
extra field comes back with it. -/
def widen (extra : ByteArray) (position n : Nat) : Except Fault (Nat × Nat) :=
  if n = maxWord then do return (← number extra position 8, position + 8) else .ok (n, position)

/-- The fields of wide numbers: size, compressed size and place, those alone that overflow. Where the
field is cut short, the numbers read before stay. -/
def readWideNumbers (extra : ByteArray) (position : Nat) (h : Header) :
    Header × Option Nat :=
  match widen extra position h.size with
  | .error _ => (h, none)
  | .ok (size, p) =>
    let h := { h with size }
    match widen extra p h.compressedSize with
    | .error _ => (h, none)
    | .ok (compressedSize, p) =>
      let h := { h with compressedSize }
      match widen extra p h.start with
      | .error _ => (h, none)
      | .ok (start, p) => ({ h with start }, some p)

def readEncryption (extra : ByteArray) (position length : Nat) (h : PartialHeader) :
    Except Fault (Option PartialHeader) := do
  if length ≠ 7 then throw .badEncryptionField
  if position + 7 > extra.size then return none
  if littleEndian extra (position + 2) 2 ≠ 0x4541 then throw .unknownEncryptionVendor
  let version := littleEndian extra position 2
  unless version = 1 ∨ version = 2 do throw .unknownEncryptionVersion
  let strength := littleEndian extra (position + 4) 1
  unless 1 ≤ strength ∧ strength ≤ 3 do throw .unknownEncryptionStrength
  return some {
    header := { h.header with compression := littleEndian extra (position + 5) 2 }
    encrypted := true }

/-- Reads the extra fields from `position` on. One that is cut short ends them silently. The bytes
that an encryption field declares are passed over once more behind it. -/
def readExtra (extra : ByteArray) : (fuel position : Nat) → PartialHeader →
    Except Fault PartialHeader
  | 0, _, h => .ok h
  | fuel + 1, position, h =>
    if position + 4 > extra.size then .ok h
    else
      let kind := littleEndian extra position 2
      let length := littleEndian extra (position + 2) 2
      let body := position + 4
      if kind = 0x0001 then
        match readWideNumbers extra body h.header with
        | (header, none) => .ok { h with header }
        | (header, some p) => readExtra extra fuel (max p (body + length)) { h with header }
      else if kind = 0x9901 then
        match readEncryption extra body length h with
        | .error e => .error e
        | .ok none => .ok h
        | .ok (some h) => readExtra extra fuel (body + 2 * length) h
      else readExtra extra fuel (body + length) h

def directoryHeaderSize : Nat := 46

def hasUtf8Name (flags : Nat) : Bool := flags.testBit 11

def directoryHeader (bytes : ByteArray) (shift position : Nat) :
    Except Fault (Header × Nat) := do
  if (← number bytes position 4) ≠ directoryMark then throw .badDirectoryHeader
  let _ ← slice bytes position directoryHeaderSize
  let flags := littleEndian bytes (position + 8) 2
  let nameLength := littleEndian bytes (position + 28) 2
  let extraLength := littleEndian bytes (position + 30) 2
  let commentLength := littleEndian bytes (position + 32) 2
  let nameStart := position + directoryHeaderSize
  let rawName ← slice bytes nameStart nameLength
  let extra ← slice bytes (nameStart + nameLength) extraLength
  let _ ← slice bytes (nameStart + nameLength + extraLength) commentLength
  let h : PartialHeader := { header := {
    name := if hasUtf8Name flags then Text.Utf8.decodeLossy rawName
      else Text.CodePage437.decode rawName
    flags
    compression := littleEndian bytes (position + 10) 2
    checksum := littleEndian bytes (position + 16) 4
    compressedSize := littleEndian bytes (position + 20) 4
    size := littleEndian bytes (position + 24) 4
    start := littleEndian bytes (position + 42) 4 } }
  let h ← readExtra extra extra.size 0 h
  if h.header.compression = encryptedMethod ∧ !h.encrypted then throw .noEncryptionField
  let start := h.header.start + shift
  if start > maxLong then throw .headerTooFar
  return ({ h.header with start }, nameStart + nameLength + extraLength + commentLength)

/-- Reads `n` directory headers from `position` on. The list `before` has those read so far, the last
one first. The bytes bound the number of headers, so `fuel` is not used up. -/
def directoryHeaders (bytes : ByteArray) (shift : Nat) :
    (fuel n position : Nat) → (before : List Header) → Except Fault (List Header)
  | _, 0, _, before => .ok before.reverse
  | 0, _, _, _ => .error .outOfData
  | fuel + 1, n + 1, position, before => do
    let (h, next) ← directoryHeader bytes shift position
    directoryHeaders bytes shift fuel n next (h :: before)

/-- The archive that some bytes hold. One bad header makes the whole archive unreadable. -/
def ofBytes (bytes : ByteArray) : Except Fault Archive := do
  let e ← extent bytes
  return ⟨bytes, ← directoryHeaders bytes e.shift (bytes.size + 1) e.entries e.start []⟩

def Header.isDirectory (h : Header) : Bool :=
  match h.name.toList.getLast? with
  | some c => c == '/' || c == '\\'
  | none => false

end Archive

end ClassLocator
