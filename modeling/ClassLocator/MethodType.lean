namespace ClassLocator

structure MethodType where
  typeParameters : List String := []
  parameters : List String := []
  result : String := ""
  thrown : List String := []
  deriving DecidableEq, Repr, Inhabited

inductive BaseType where
  | byte | char | double | float | int | long | short | boolean
  deriving DecidableEq, Repr

namespace BaseType

def keyword : BaseType → String
  | byte => "byte"
  | char => "char"
  | double => "double"
  | float => "float"
  | int => "int"
  | long => "long"
  | short => "short"
  | boolean => "boolean"

def code : BaseType → Char
  | byte => 'B'
  | char => 'C'
  | double => 'D'
  | float => 'F'
  | int => 'I'
  | long => 'J'
  | short => 'S'
  | boolean => 'Z'

def ofCode? : Char → Option BaseType
  | 'B' => some byte
  | 'C' => some char
  | 'D' => some double
  | 'F' => some float
  | 'I' => some int
  | 'J' => some long
  | 'S' => some short
  | 'Z' => some boolean
  | _ => none

theorem ofCode?_code (b : BaseType) : ofCode? b.code = some b := by cases b <;> rfl

theorem code_of_ofCode? {c : Char} {b : BaseType} (h : ofCode? c = some b) : b.code = c := by
  unfold ofCode? at h
  split at h <;> cases h <;> rfl

end BaseType

namespace MethodType

def voidKeyword : String := "void"

def dotted (name : String) : String := name.map fun c => if c = '/' then '.' else c

def withDimensions (element : String) (n : Nat) : String :=
  element ++ String.join (List.replicate n "[]")

end MethodType

end ClassLocator
