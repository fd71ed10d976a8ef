import ClassLocator.Archive.Checksum
import ClassLocator.Archive.Directory
import ClassLocator.Archive.Inflate
import ClassLocator.Failure

namespace ClassLocator.Archive

def maxEntrySize : Nat := 64 * 1024 * 1024

inductive Compression where
  | stored
  | deflated
  deriving DecidableEq, Repr

def Compression.ofNumber? : Nat → Option Compression
  | 0 => some stored
  | 8 => some deflated
  | _ => none

structure Entry where
  name : String
  size : Nat
  checksum : Nat
  compression : Compression
  /-- The data as it stands in the archive, which may be shorter than declared. -/
  data : ByteArray

def isEncrypted (flags : Nat) : Bool := flags.testBit 0

/-- Finds the data of an entry. It stands behind the entry's own header, whose name and extra fields
may differ in length from those of the directory. -/
def openEntry (a : Archive) (h : Header) : Except Fault Entry := do
  if isEncrypted h.flags then throw .encrypted
  if (← number a.bytes h.start 4) ≠ localMark then throw .badLocalHeader
  let nameLength ← number a.bytes (h.start + 26) 2
  let extraLength ← number a.bytes (h.start + 28) 2
  let start := h.start + 30 + nameLength + extraLength
  match Compression.ofNumber? h.compression with
  | none => throw .unknownCompression
  | some compression =>
    return {
      name := h.name
      size := h.size
      checksum := h.checksum
      compression
      data := a.bytes.extract (min start a.bytes.size)
        (min (start + h.compressedSize) a.bytes.size) }

def Excerpt.upTo (x : Excerpt) (limit : Nat) : Excerpt :=
  if limit ≤ x.bytes.size then ⟨x.bytes.extract 0 limit, .open⟩ else x

namespace Entry

def expand (e : Entry) (limit : Nat) : Excerpt :=
  match e.compression with
  | .stored => ⟨e.data, .complete⟩
  | .deflated => inflate e.data limit

/-- The first bytes of an entry's data. The end of the data is reached only with the right checksum.
-/
def excerpt (e : Entry) (limit : Nat) : Excerpt :=
  let x := (e.expand limit).upTo limit
  match x.ending with
  | .complete =>
    if (Checksum.ofBytes x.bytes).toNat = e.checksum then x
    else { x with ending := .failed .wrongChecksum }
  | _ => x

end Entry

def Excerpt.withinLimit (x : Excerpt) (name : String) (limit : Nat) : Except Failure ByteArray :=
  if x.bytes.size > limit then .error (.entryTooLarge name (limit + 1) limit)
  else match x.ending with
    | .failed fault => .error (.entryData fault)
    | _ => .ok x.bytes

/-- Reads data that declares its size, where `take` reads on up to a number of bytes or to the end of the
data: all of it, if neither the declared size nor the data itself is beyond the limit. -/
def readBounded {m : Type → Type} [Monad m] (name : String) (limit declared : Nat)
    (take : Nat → m Excerpt) : m (Except Failure ByteArray) :=
  if declared > limit then return .error (.entryTooLarge name declared limit)
  else return (← take (limit + 1)).withinLimit name limit

def Entry.read (e : Entry) : Except Failure ByteArray :=
  (readBounded e.name maxEntrySize e.size fun limit => pure (e.excerpt limit) : Id _).run

end ClassLocator.Archive
