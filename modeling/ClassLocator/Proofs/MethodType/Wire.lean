import ClassLocator.MethodType.Descriptor
import ClassLocator.MethodType.Signature
import ClassLocator.Proofs.MethodType.Cursor
/-!
The texts that encode method types, and which trees have one: names end at their stops, arrays have
1 to 255 dimensions over what is no array, and lists of type arguments are nested no deeper than 64.
-/

namespace ClassLocator.MethodType

def Element.wire : Element → List Char
  | .base t => [t.code]
  | .object name => 'L' :: name.toList ++ [';']

def FieldType.wire (t : FieldType) : List Char := List.replicate t.dimensions '[' ++ t.element.wire

def Element.WellFormed : Element → Prop
  | .base _ => True
  | .object name => IsName [';'] name

structure FieldType.WellFormed (t : FieldType) : Prop where
  dimensions : t.dimensions ≤ maxDimensions
  element : t.element.WellFormed

namespace Descriptor

def wire (d : Descriptor) : List Char :=
  '(' :: d.parameters.flatMap (·.wire) ++ ')' :: (d.result.map (·.wire)).getD ['V']

def encode (d : Descriptor) : String := String.ofList d.wire

structure WellFormed (d : Descriptor) : Prop where
  parameters : ∀ t ∈ d.parameters, t.WellFormed
  result : ∀ t ∈ d.result, t.WellFormed

end Descriptor

mutual

def GenericType.wire : GenericType → List Char
  | .base t => [t.code]
  | .parameter name => 'T' :: name.toList ++ [';']
  | .ofClass (.mk name arguments) inner =>
    'L' :: name.toList ++ TypeArgument.wireList arguments ++ ClassPart.wireInner inner
  | .array n element => List.replicate n '[' ++ element.wire

def ClassPart.wireInner : List ClassPart → List Char
  | [] => [';']
  | .mk name arguments :: rest =>
    '.' :: name.toList ++ TypeArgument.wireList arguments ++ ClassPart.wireInner rest

def TypeArgument.wire : TypeArgument → List Char
  | .any => ['*']
  | .exactly t => t.wire
  | .extending t => '+' :: t.wire
  | .superOf t => '-' :: t.wire

def TypeArgument.wireList : List TypeArgument → List Char
  | [] => []
  | a :: rest => '<' :: a.wire ++ TypeArgument.wireMore rest

def TypeArgument.wireMore : List TypeArgument → List Char
  | [] => ['>']
  | a :: rest => a.wire ++ TypeArgument.wireMore rest

end

mutual

/-- How deep lists of type arguments are nested in a type. -/
def GenericType.depth : GenericType → Nat
  | .base _ | .parameter _ => 0
  | .ofClass (.mk _ arguments) inner =>
    max (TypeArgument.depthList arguments) (ClassPart.depthInner inner)
  | .array _ element => element.depth

def ClassPart.depthInner : List ClassPart → Nat
  | [] => 0
  | .mk _ arguments :: rest =>
    max (TypeArgument.depthList arguments) (ClassPart.depthInner rest)

def TypeArgument.depth : TypeArgument → Nat
  | .any => 0
  | .exactly t | .extending t | .superOf t => t.depth

def TypeArgument.depthList : List TypeArgument → Nat
  | [] => 0
  | a :: rest => max (a.depth + 1) (TypeArgument.depthList rest)

end

def GenericType.IsArray : GenericType → Prop
  | .array _ _ => True
  | _ => False

def GenericType.IsReference : GenericType → Prop
  | .base _ => False
  | _ => True

mutual

def GenericType.WellFormed : GenericType → Prop
  | .base _ => True
  | .parameter name => IsName [';'] name
  | .ofClass (.mk name arguments) inner =>
    IsName ['<', '.', ';'] name ∧ TypeArgument.WellFormedList arguments ∧
      ClassPart.WellFormedInner inner
  | .array n element =>
    1 ≤ n ∧ n ≤ maxDimensions ∧ ¬element.IsArray ∧ element.WellFormed

def ClassPart.WellFormedInner : List ClassPart → Prop
  | [] => True
  | .mk name arguments :: rest =>
    IsName ['<', '.', ';'] name ∧ TypeArgument.WellFormedList arguments ∧
      ClassPart.WellFormedInner rest

def TypeArgument.WellFormed : TypeArgument → Prop
  | .any => True
  | .exactly t | .extending t | .superOf t => t.IsReference ∧ t.WellFormed

def TypeArgument.WellFormedList : List TypeArgument → Prop
  | [] => True
  | a :: rest => a.WellFormed ∧ TypeArgument.WellFormedList rest

end

structure GenericType.Admissible (t : GenericType) : Prop where
  wellFormed : t.WellFormed
  depth_le : t.depth ≤ maxArgumentDepth

structure GenericType.IsBound (t : GenericType) : Prop extends t.Admissible where
  isReference : t.IsReference

namespace TypeParameter

def wire (p : TypeParameter) : List Char :=
  p.name.toList ++ ':' :: (p.classBound.map (·.wire)).getD [] ++
    p.interfaceBounds.flatMap (':' :: ·.wire)

structure WellFormed (p : TypeParameter) : Prop where
  name : IsName [':', '>'] p.name
  classBound : ∀ t ∈ p.classBound, t.IsBound
  interfaceBounds : ∀ t ∈ p.interfaceBounds, t.IsBound

def IsBounded (p : TypeParameter) : Prop := p.classBound ≠ none ∨ p.interfaceBounds ≠ []

def wireList : List TypeParameter → List Char
  | [] => []
  | ps => '<' :: ps.flatMap wire ++ ['>']

end TypeParameter

namespace Signature

def wire (s : Signature) : List Char :=
  TypeParameter.wireList s.typeParameters ++ '(' :: s.parameters.flatMap (·.wire) ++
    ')' :: (s.result.map (·.wire)).getD ['V'] ++ s.thrown.flatMap ('^' :: ·.wire)

def encode (s : Signature) : String := String.ofList s.wire

/-- A type parameter without any bound can only come last: what stands behind its colon would be
taken for its class bound. -/
structure WellFormed (s : Signature) : Prop where
  typeParameters : ∀ p ∈ s.typeParameters, p.WellFormed
  bounded : ∀ p ∈ s.typeParameters.dropLast, p.IsBounded
  parameters : ∀ t ∈ s.parameters, t.Admissible
  result : ∀ t ∈ s.result, t.Admissible
  thrown : ∀ t ∈ s.thrown, t.IsBound

end Signature

end ClassLocator.MethodType
