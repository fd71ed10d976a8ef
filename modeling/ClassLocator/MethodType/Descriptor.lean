import ClassLocator.MethodType.Cursor

namespace ClassLocator.MethodType

inductive Element where
  | base (type : BaseType)
  | object (name : String)
  deriving DecidableEq, Repr

structure FieldType where
  dimensions : Nat
  element : Element
  deriving DecidableEq, Repr

/-- A method descriptor. A method without a result has `none`. -/
structure Descriptor where
  parameters : List FieldType
  result : Option FieldType
  deriving DecidableEq, Repr

def Element.render : Element → String
  | base t => t.keyword
  | object name => dotted name

def FieldType.render (t : FieldType) : String := withDimensions t.element.render t.dimensions

namespace Descriptor

def render (d : Descriptor) : MethodType where
  parameters := d.parameters.map (·.render)
  result := (d.result.map (·.render)).getD voidKeyword

open Reader in
def fieldType : Reader FieldType := do
  let n ← dimensions
  let b ← next
  if b == byte 'L' then
    let name ← identifier [';']
    expect ';'
    return ⟨n, .object name⟩
  return ⟨n, .base (← baseType b)⟩

open Reader in
def reader (fuel : Nat) : Reader Descriptor := do
  expect '('
  let parameters ← untilStop ')' fieldType fuel
  expect ')'
  let result ← orVoid fieldType
  finish
  return ⟨parameters, result⟩

def read (text : String) : Except Fault Descriptor := Reader.onText reader text

end Descriptor

end ClassLocator.MethodType
