import ClassLocator.MethodType.Descriptor
import ClassLocator.MethodType.Signature
/-!
Readers of encoded types on their way over a text. A walk does what a reader does and leaves footprints:
where it stands, which routines are active and how deep it counts itself, where it cuts out a name, what
each call and each turn of a loop has moved. Loops and calls are bounded by numbers that a walk is given;
one that needs more leaves a footprint of that too.
-/

namespace ClassLocator.MethodType

open Reader (byte)

inductive Routine where
  | type
  | reference
  | classType
  | arguments
  | argumentList
  deriving DecidableEq, Repr

/-- The bytes still to be read and the number of those already read, the depth counted of nested type
arguments, and the calls that are active, the innermost first. -/
structure Walker where
  rest : List UInt8
  position : Nat := 0
  depth : Nat := 0
  active : List Routine := []

/-- What is seen of a walker. Within a name it goes on byte by byte. -/
structure Moment where
  position : Nat
  depth : Nat
  active : List Routine
  inName : Bool
  deriving DecidableEq, Repr

inductive Footprint where
  | stands (m : Moment)
  /-- The bytes between two places are cut out as a name. -/
  | cuts (start stop : Nat)
  /-- A call has ended, in whatever way: the depth before it and behind it. -/
  | returns (routine : Routine) (before after : Nat)
  /-- A turn of a loop has ended without a fault: the places before it and behind it. -/
  | turns (start stop : Nat)
  /-- More turns or more nested calls were needed than granted. -/
  | stalls
  deriving DecidableEq, Repr

/-- What a walk came to. A walk that ends in a fault has a last place, too. -/
structure Walked (α : Type) where
  outcome : Except Fault α
  last : Walker
  footprints : List Footprint

def Walk (α : Type) : Type := Walker → Walked α

namespace Walker

def cursor (w : Walker) : Cursor := ⟨w.rest, w.position⟩

def advance (w : Walker) (n : Nat) : Walker :=
  { w with rest := w.rest.drop n, position := w.position + n }

def moment (w : Walker) : Moment := ⟨w.position, w.depth, w.active, false⟩

def withinName (w : Walker) : Moment := ⟨w.position, w.depth, w.active, true⟩

end Walker

/-- The footprints of a loop that takes `n` bytes one by one and looks before each of them. -/
def Moment.steps (m : Moment) : (n : Nat) → List Footprint
  | 0 => [.stands m]
  | n + 1 =>
    .stands m :: .turns m.position (m.position + 1) :: steps { m with position := m.position + 1 } n

namespace Walk

variable {α β : Type}

def andThen (x : Walk α) (f : α → Walk β) : Walk β := fun w =>
  match (x w).outcome with
  | .ok a =>
    { f a (x w).last with footprints := (x w).footprints ++ (f a (x w).last).footprints }
  | .error e => ⟨.error e, (x w).last, (x w).footprints⟩

instance : Monad Walk where
  pure a := fun w => ⟨.ok a, w, []⟩
  bind := andThen

def fail (e : Fault) : Walk α := fun w => ⟨.error e, w, []⟩

def stall : Walk α := fun w => ⟨.error .unexpectedEnd, w, [.stalls]⟩

def position : Walk Nat := fun w => ⟨.ok w.position, w, []⟩

def peek : Walk (Option UInt8) := fun w => ⟨.ok w.rest.head?, w, [.stands w.moment]⟩

def next : Walk UInt8 := fun w =>
  match w.rest with
  | [] => ⟨.error .unexpectedEnd, w, [.stands w.moment]⟩
  | b :: _ => ⟨.ok b, w.advance 1, [.stands w.moment, .stands (w.advance 1).moment]⟩

def sees (c : Char) : Walk Bool := return (← peek) == some (byte c)

def expect (c : Char) : Walk Unit := do
  let b ← next
  unless b == byte c do
    fail (.expected c ((← position) - 1) b)

def finish : Walk Unit := do
  unless (← peek).isNone do
    fail (.trailing (← position))

def identifier (stops : List Char) : Walk String := fun w =>
  let taken := w.rest.takeWhile fun b => !(stops.map byte).contains b
  let seen := w.withinName.steps taken.length
  if taken.isEmpty then ⟨.error (.emptyIdentifier w.position), w, seen⟩
  else ⟨.ok (Text.Utf8.decodeLossy ⟨taken.toArray⟩), w.advance taken.length,
    seen ++ [.cuts w.position (w.position + taken.length), .stands (w.advance taken.length).moment]⟩

def dimensions : Walk Nat := fun w =>
  let count := (w.rest.takeWhile (· == byte '[')).length
  let seen := w.moment.steps count
  if count > maxDimensions then
    ⟨.error (.tooManyDimensions count w.position), w.advance count, seen⟩
  else ⟨.ok count, w.advance count, seen⟩

def baseType (b : UInt8) : Walk BaseType :=
  match BaseType.ofCode? (Char.ofNat b.toNat) with
  | some t => return t
  | none => fail (.unknownCode b)

def turn (x : Walk α) : Walk α := fun w =>
  match (x w).outcome with
  | .ok _ =>
    { x w with footprints := (x w).footprints ++ [.turns w.position (x w).last.position] }
  | .error _ => x w

def calling (routine : Routine) (x : Walk α) : Walk α := fun w =>
  let o := x { w with active := routine :: w.active }
  { outcome := o.outcome, last := { o.last with active := w.active }
    footprints := o.footprints ++ [.returns routine w.depth o.last.depth] }

/-- Goes one level down and comes up again, whether in a fault or not. -/
def deeper (x : Walk α) : Walk α := fun w =>
  if w.depth ≥ maxArgumentDepth then ⟨.error (.argumentsTooDeep w.position), w, []⟩
  else
    let o := x { w with depth := w.depth + 1 }
    { o with last := { o.last with depth := o.last.depth - 1 } }

def untilStopAfter (stop : Char) (item : Walk α) : (turns : Nat) → (before : List α) → Walk (List α)
  | 0, _ => stall
  | turns + 1, before => do
    if ← sees stop then return before.reverse
    untilStopAfter stop item turns ((← turn item) :: before)

def untilStop (stop : Char) (item : Walk α) (turns : Nat) : Walk (List α) :=
  untilStopAfter stop item turns []

def eachAfterLead (lead : Char) (item : Walk α) : (turns : Nat) → (before : List α) → Walk (List α)
  | 0, _ => stall
  | turns + 1, before => do
    unless ← sees lead do return before.reverse
    eachAfterLead lead item turns ((← turn (do let _ ← next; item)) :: before)

def eachAfter (lead : Char) (item : Walk α) (turns : Nat) : Walk (List α) :=
  eachAfterLead lead item turns []

def orVoid (type : Walk α) : Walk (Option α) := do
  if ← sees 'V' then
    let _ ← next
    return none
  return some (← type)

def onText (x : Walk α) (text : String) : Walked α :=
  x { rest := text.toList.flatMap String.utf8EncodeChar }

end Walk

namespace Descriptor

open Walk

def fieldWalk : Walk FieldType := do
  let n ← dimensions
  let b ← next
  if b == byte 'L' then
    let name ← identifier [';']
    expect ';'
    return ⟨n, .object name⟩
  return ⟨n, .base (← baseType b)⟩

def walk (turns : Nat) : Walk Descriptor := do
  expect '('
  let parameters ← untilStop ')' fieldWalk turns
  expect ')'
  let result ← orVoid fieldWalk
  finish
  return ⟨parameters, result⟩

end Descriptor

namespace Signature

open Walk

section
variable (turns : Nat)

def partWalk (arguments : Walk (List TypeArgument)) (name : String) : Walk ClassPart := do
  if ← sees '<' then return .mk name (← arguments)
  return .mk name []

def partTurn (arguments : Walk (List TypeArgument)) (name : String) :
    Walk (ClassPart × Option String) := do
  let part ← partWalk arguments name
  let b ← next
  if b == byte ';' then return (part, none)
  if b == byte '.' then return (part, some (← identifier ['<', '.', ';']))
  fail (.unexpected b ((← position) - 1))

def partsFrom (arguments : Walk (List TypeArgument)) :
    (turns : Nat) → (name : String) → Walk (ClassPart × List ClassPart)
  | 0, _ => stall
  | turns + 1, name => do
    match ← turn (partTurn arguments name) with
    | (part, none) => return (part, [])
    | (part, some name) =>
      let (inner, more) ← partsFrom arguments turns name
      return (part, inner :: more)

def argumentWalk (reference : Walk GenericType) : Walk TypeArgument := do
  if ← sees '*' then
    let _ ← next
    return .any
  if ← sees '+' then
    let _ ← next
    return .extending (← reference)
  if ← sees '-' then
    let _ ← next
    return .superOf (← reference)
  return .exactly (← reference)

-- Each call of one of these routines passes on one less than it was granted.

mutual

def typeWalk : (nesting : Nat) → Walk GenericType
  | 0 => stall
  | nesting + 1 => calling .type do
    if (← sees 'L') || (← sees 'T') || (← sees '[') then referenceWalk nesting
    else return .base (← baseType (← next))

def referenceWalk : (nesting : Nat) → Walk GenericType
  | 0 => stall
  | nesting + 1 => calling .reference do
    if ← sees '[' then
      let n ← dimensions
      return .array n (← typeWalk nesting)
    let b ← next
    if b == byte 'L' then classTypeWalk nesting
    else if b == byte 'T' then
      let name ← identifier [';']
      expect ';'
      return .parameter name
    else fail (.unexpected b ((← position) - 1))

def classTypeWalk : (nesting : Nat) → Walk GenericType
  | 0 => stall
  | nesting + 1 => calling .classType do
    let name ← identifier ['<', '.', ';']
    let (outer, inner) ← partsFrom (argumentsWalk nesting) turns name
    return .ofClass outer inner

def argumentsWalk : (nesting : Nat) → Walk (List TypeArgument)
  | 0 => stall
  | nesting + 1 => calling .arguments (deeper (argumentListWalk nesting))

def argumentListWalk : (nesting : Nat) → Walk (List TypeArgument)
  | 0 => stall
  | nesting + 1 => calling .argumentList do
    expect '<'
    let list ← untilStop '>' (argumentWalk (referenceWalk nesting)) turns
    expect '>'
    if list.isEmpty then fail .noTypeArguments
    return list

end

end

section
variable (turns nesting : Nat)

def typeParameterWalk : Walk TypeParameter := do
  let name ← identifier [':', '>']
  expect ':'
  let classBound ←
    if (← sees ':') || (← sees '>') then pure none else some <$> referenceWalk turns nesting
  return ⟨name, classBound, ← eachAfter ':' (referenceWalk turns nesting) turns⟩

def typeParameterListWalk : Walk (List TypeParameter) := do
  unless ← sees '<' do return []
  expect '<'
  let list ← untilStop '>' (typeParameterWalk turns nesting) turns
  expect '>'
  if list.isEmpty then fail .noTypeParameters
  return list

/-- The walk over a signature, whose loops are granted some turns each and whose routines some nested
calls. -/
def walk : Walk Signature := do
  let declared ← typeParameterListWalk turns nesting
  expect '('
  let parameters ← untilStop ')' (typeWalk turns nesting) turns
  expect ')'
  let result ← orVoid (typeWalk turns nesting)
  let thrown ← eachAfter '^' (referenceWalk turns nesting) turns
  finish
  return ⟨declared, parameters, result, thrown⟩

end

end Signature

end ClassLocator.MethodType
