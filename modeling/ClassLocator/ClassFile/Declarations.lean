import ClassLocator.ClassFile
import ClassLocator.Declaration
import ClassLocator.MethodType.Descriptor
import ClassLocator.MethodType.Signature

namespace ClassLocator

/-- An array parameter near the end may have been declared with a variable number of arguments; the
file does not say so. The last pair of brackets of the last parameter that has one becomes an
ellipsis. -/
def variadic (parameters : List String) : List String :=
  (inReverse parameters.reverse).reverse
where
  ellipsis? : List Char → Option (List Char)
    | ']' :: '[' :: cs => some ('.' :: '.' :: '.' :: cs)
    | c :: cs => (ellipsis? cs).map (c :: ·)
    | [] => none
  inReverse : List String → List String
    | [] => []
    | p :: ps =>
      match ellipsis? p.toList.reverse with
      | some cs => String.ofList cs.reverse :: ps
      | none => p :: inReverse ps

namespace ClassFile

def afterLast (c : Char) (cs : List Char) : List Char :=
  (cs.reverse.takeWhile (· != c)).reverse

/-- The name that a class has in source: without its packages, and without the classes around it
unless nothing would be left. -/
def simpleName (internalName : String) : String :=
  let base := afterLast '/' internalName.toList
  let inner := afterLast '$' base
  String.ofList (if inner.isEmpty then base else inner)

def classInitializer : String := "<clinit>"
def objectInitializer : String := "<init>"

def parseDescriptor (text : String) : Except Failure MethodType :=
  match MethodType.Descriptor.read text with
  | .ok d => .ok d.render
  | .error fault => .error (.badDescriptor text fault)

def parseSignature (text : String) : Except Failure MethodType :=
  match MethodType.Signature.read text with
  | .ok s => .ok s.render
  | .error fault => .error (.badSignature text fault)

inductive SignatureProblem where
  | unresolved (cause : Failure)
  | unreadable (cause : Failure)
  deriving DecidableEq, Repr

def SignatureProblem.message : SignatureProblem → String
  | unresolved cause => "ignoring signature attribute: " ++ cause.message
  | unreadable cause => "falling back to erased descriptor: " ++ cause.message

def genericType (pool : ConstantPool) (index : Nat) : Except SignatureProblem MethodType :=
  match pool.utf8 index with
  | .error e => .error (.unresolved e)
  | .ok text =>
    match parseSignature text with
    | .error e => .error (.unreadable e)
    | .ok t => .ok t

def Method.erasedType (pool : ConstantPool) (m : Method) : Except Failure MethodType := do
  parseDescriptor (← pool.utf8 m.descriptorIndex)

def Method.genericType? (pool : ConstantPool) (m : Method) : Option MethodType :=
  m.signatureIndex.bind fun index => (genericType pool index).toOption

def Method.exceptions (pool : ConstantPool) (m : Method) : Except Failure (List String) :=
  (m.exceptionIndexes.getD []).mapM fun index => MethodType.dotted <$> pool.className index

/-- Describes a method of class `owner`. A signature outweighs the descriptor, and thrown types that
it gives outweigh the exception table; the latter two are read all the same. -/
def Method.describe (pool : ConstantPool) (owner : String) (m : Method) (name : String) :
    Except Failure Declaration := do
  let modifiers := modifiers m.accessFlags
  if name = classInitializer then
    return { owner, modifiers, name, role := .staticInitializer }
  let erased ← m.erasedType pool
  let exceptions ← m.exceptions pool
  let types := (m.genericType? pool).getD erased
  let constructs := name = objectInitializer
  return {
    owner, modifiers, name
    typeParameters := types.typeParameters
    result := if constructs then "" else types.result
    parameters := variadic types.parameters
    thrown := if types.thrown.isEmpty then exceptions else types.thrown
    role := if constructs then .constructor else .method }

def Method.outcome? (pool : ConstantPool) (owner filter : String) (m : Method) :
    Option (Except Failure Declaration) :=
  match pool.utf8 m.nameIndex with
  | .error e => some (.error e)
  | .ok name => if name = filter then some (m.describe pool owner name) else none

def Method.problem? (pool : ConstantPool) (filter : String) (m : Method) :
    Option SignatureProblem :=
  if (pool.utf8 m.nameIndex).toOption = some filter ∧ filter ≠ classInitializer then
    match m.erasedType pool, m.signatureIndex with
    | .ok _, some index =>
      match genericType pool index with
      | .error problem => some problem
      | .ok _ => none
    | _, _ => none
  else none

/-- The methods named `filter` in the order of the method table. An empty filter names no method,
and the bytes are not looked at; otherwise they must be a class file whose own name resolves. -/
def declarations (bytes : ByteArray) (filter : String) :
    Except Failure (List (Except Failure Declaration)) := do
  if filter.isEmpty then return []
  let c ← parse bytes
  let owner := simpleName (← c.name)
  return c.methods.filterMap (·.outcome? c.constantPool owner filter)

def problems (bytes : ByteArray) (filter : String) : List SignatureProblem :=
  if filter.isEmpty then []
  else match parse bytes with
    | .error _ => []
    | .ok c =>
      if c.name.toOption.isSome then c.methods.filterMap (·.problem? c.constantPool filter) else []

end ClassFile

end ClassLocator
