import ClassLocator.MethodType.Cursor
/-!
Generic method signatures: type parameters with their bounds, parameters, a result and thrown types,
where a class type may carry type arguments at each of its parts.

Reading recurses on the number of levels that type arguments may still be nested, so the nesting of
calls is bounded whatever the text.
-/

namespace ClassLocator.MethodType

mutual

/-- A type of a signature. The element of an array is itself no array. -/
inductive GenericType where
  | base (type : BaseType)
  | parameter (name : String)
  | ofClass (outer : ClassPart) (inner : List ClassPart)
  | array (dimensions : Nat) (element : GenericType)

inductive ClassPart where
  | mk (name : String) (arguments : List TypeArgument)

inductive TypeArgument where
  | any
  | exactly (type : GenericType)
  | extending (bound : GenericType)
  | superOf (bound : GenericType)

end

structure TypeParameter where
  name : String
  classBound : Option GenericType
  interfaceBounds : List GenericType

structure Signature where
  typeParameters : List TypeParameter
  parameters : List GenericType
  result : Option GenericType
  thrown : List GenericType

mutual

def GenericType.render : GenericType → String
  | .base t => t.keyword
  | .parameter name => name
  | .ofClass (.mk name arguments) inner =>
    dotted name ++ TypeArgument.renderList arguments ++ ClassPart.renderInner inner
  | .array n element => withDimensions element.render n

/-- The parts behind the first one. Only the first name holds slashes that divide packages. -/
def ClassPart.renderInner : List ClassPart → String
  | [] => ""
  | .mk name arguments :: rest =>
    "." ++ name ++ TypeArgument.renderList arguments ++ ClassPart.renderInner rest

def TypeArgument.render : TypeArgument → String
  | .any => "?"
  | .exactly t => t.render
  | .extending t => "? extends " ++ t.render
  | .superOf t => "? super " ++ t.render

def TypeArgument.renderList : List TypeArgument → String
  | [] => ""
  | a :: rest => "<" ++ a.render ++ TypeArgument.renderMore rest ++ ">"

def TypeArgument.renderMore : List TypeArgument → String
  | [] => ""
  | a :: rest => ", " ++ a.render ++ TypeArgument.renderMore rest

end

/-- A type parameter with its bounds. A single bound that names the class of all objects says
nothing and is left out. -/
def TypeParameter.render (p : TypeParameter) : String :=
  let bounds := (p.classBound.toList ++ p.interfaceBounds).map (·.render)
  if bounds.isEmpty ∨ bounds = ["java.lang.Object"] then p.name
  else p.name ++ " extends " ++ " & ".intercalate bounds

namespace Signature

def render (s : Signature) : MethodType where
  typeParameters := s.typeParameters.map (·.render)
  parameters := s.parameters.map (·.render)
  result := (s.result.map (·.render)).getD voidKeyword
  thrown := s.thrown.map (·.render)

section
open Reader
variable (fuel : Nat) (arguments : Reader (List TypeArgument))

def classPart : Reader ClassPart := do
  let name ← identifier ['<', '.', ';']
  if ← sees '<' then return .mk name (← arguments)
  return .mk name []

def innerParts : (fuel : Nat) → Reader (List ClassPart)
  | 0 => throw .unexpectedEnd
  | fuel + 1 => do
    let b ← next
    if b == byte ';' then return []
    if b == byte '.' then
      let part ← classPart arguments
      return part :: (← innerParts fuel)
    throw (.unexpected b ((← position) - 1))

def elementType : Reader GenericType := do
  let b ← next
  if b == byte 'L' then
    let outer ← classPart arguments
    return .ofClass outer (← innerParts arguments fuel)
  if b == byte 'T' then
    let name ← identifier [';']
    expect ';'
    return .parameter name
  throw (.unexpected b ((← position) - 1))

def plainType : Reader GenericType := do
  if (← sees 'L') || (← sees 'T') then elementType fuel arguments
  else return .base (← baseType (← next))

def referenceType : Reader GenericType := do
  if ← sees '[' then
    let n ← dimensions
    return .array n (← plainType fuel arguments)
  elementType fuel arguments

def anyType : Reader GenericType := do
  if ← sees '[' then referenceType fuel arguments else plainType fuel arguments

def typeArgument : Reader TypeArgument := do
  if ← sees '*' then
    let _ ← next
    return .any
  if ← sees '+' then
    let _ ← next
    return .extending (← referenceType fuel arguments)
  if ← sees '-' then
    let _ ← next
    return .superOf (← referenceType fuel arguments)
  return .exactly (← referenceType fuel arguments)

end

section
open Reader
variable (fuel : Nat)

/-- A list of type arguments that may be nested `levels` deep, itself counted. -/
def typeArguments : (levels : Nat) → Reader (List TypeArgument)
  | 0 => do throw (.argumentsTooDeep (← position))
  | levels + 1 => do
    expect '<'
    let list ← untilStop '>' (typeArgument fuel (typeArguments levels)) fuel
    expect '>'
    if list.isEmpty then throw .noTypeArguments
    return list

def outermostArguments : Reader (List TypeArgument) := typeArguments fuel maxArgumentDepth

def bound : Reader GenericType := referenceType fuel (outermostArguments fuel)

/-- A type parameter. The class bound may be empty, which shows in the byte behind the colon. -/
def typeParameter : Reader TypeParameter := do
  let name ← identifier [':', '>']
  expect ':'
  let classBound ← if (← sees ':') || (← sees '>') then pure none else some <$> bound fuel
  return ⟨name, classBound, ← eachAfter ':' (bound fuel) fuel⟩

def typeParameterList : Reader (List TypeParameter) := do
  unless ← sees '<' do return []
  expect '<'
  let list ← untilStop '>' (typeParameter fuel) fuel
  expect '>'
  if list.isEmpty then throw .noTypeParameters
  return list

def reader : Reader Signature := do
  let type := anyType fuel (outermostArguments fuel)
  let declared ← typeParameterList fuel
  expect '('
  let parameters ← untilStop ')' type fuel
  expect ')'
  let result ← orVoid type
  let thrown ← eachAfter '^' (bound fuel) fuel
  finish
  return ⟨declared, parameters, result, thrown⟩

end

def read (text : String) : Except Fault Signature := Reader.onText reader text

end Signature

end ClassLocator.MethodType
