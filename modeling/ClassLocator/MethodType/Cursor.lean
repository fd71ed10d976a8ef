import ClassLocator.MethodType
import ClassLocator.MethodType.Fault
import ClassLocator.Text.Utf8
/-!
A cursor over the bytes of an encoded type, and the readers that both encodings share. Every turn of
a loop takes at least one byte, so the number of bytes of the text bounds the turns; the readers
with a loop take that number as `fuel`.
-/

namespace ClassLocator.MethodType

structure Cursor where
  rest : List UInt8
  position : Nat := 0
  deriving Repr

abbrev Reader (α : Type) := StateT Cursor (Except Fault) α

namespace Reader

def peek : Reader (Option UInt8) := fun c => .ok (c.rest.head?, c)

def position : Reader Nat := fun c => .ok (c.position, c)

def next : Reader UInt8
  | ⟨[], _⟩ => .error .unexpectedEnd
  | ⟨b :: rest, p⟩ => .ok (b, ⟨rest, p + 1⟩)

def byte (c : Char) : UInt8 := c.toNat.toUInt8

def sees (c : Char) : Reader Bool := return (← peek) == some (byte c)

def expect (c : Char) : Reader Unit := do
  let b ← next
  unless b == byte c do
    throw (.expected c ((← position) - 1) b)

def finish : Reader Unit := do
  unless (← peek).isNone do
    throw (.trailing (← position))

/-- The bytes before the first one whose character is among `stops`, at least one. The stops are
ASCII, so the bytes taken are whole characters. -/
def identifier (stops : List Char) : Reader String := fun c =>
  let inside := fun b : UInt8 => !(stops.map byte).contains b
  let taken := c.rest.takeWhile inside
  if taken.isEmpty then .error (.emptyIdentifier c.position)
  else .ok (Text.Utf8.decodeLossy ⟨taken.toArray⟩,
    ⟨c.rest.dropWhile inside, c.position + taken.length⟩)

def dimensions : Reader Nat := fun c =>
  let count := (c.rest.takeWhile (· == byte '[')).length
  if count > maxDimensions then .error (.tooManyDimensions count c.position)
  else .ok (count, ⟨c.rest.drop count, c.position + count⟩)

def baseType (b : UInt8) : Reader BaseType :=
  match BaseType.ofCode? (Char.ofNat b.toNat) with
  | some t => return t
  | none => throw (.unknownCode b)

/-- Items up to the byte `stop`, which stays unread. The list `before` has the items so far, the last
one first. -/
def untilStopAfter {α : Type} (stop : Char) (item : Reader α) :
    (fuel : Nat) → (before : List α) → Reader (List α)
  | 0, _ => throw .unexpectedEnd
  | fuel + 1, before => do
    if ← sees stop then return before.reverse
    untilStopAfter stop item fuel ((← item) :: before)

def untilStop {α : Type} (stop : Char) (item : Reader α) (fuel : Nat) : Reader (List α) :=
  untilStopAfter stop item fuel []

def eachAfterLead {α : Type} (lead : Char) (item : Reader α) :
    (fuel : Nat) → (before : List α) → Reader (List α)
  | 0, before => return before.reverse
  | fuel + 1, before => do
    unless ← sees lead do return before.reverse
    let _ ← next
    eachAfterLead lead item fuel ((← item) :: before)

def eachAfter {α : Type} (lead : Char) (item : Reader α) (fuel : Nat) : Reader (List α) :=
  eachAfterLead lead item fuel []

def orVoid {α : Type} (type : Reader α) : Reader (Option α) := do
  if ← sees 'V' then
    let _ ← next
    return none
  return some (← type)

def onText {α : Type} (reader : (fuel : Nat) → Reader α) (text : String) : Except Fault α :=
  let bytes := text.toList.flatMap String.utf8EncodeChar
  ((reader (bytes.length + 1)).run ⟨bytes, 0⟩).map (·.1)

end Reader

end ClassLocator.MethodType
