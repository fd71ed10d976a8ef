import ClassLocator.ClassFile.Input
import ClassLocator.ClassFile.ModifiedUtf8

namespace ClassLocator.ClassFile

inductive Constant where
  | utf8 (text : String)
  | classRef (nameIndex : Nat)
  | other (tag : UInt8)
  /-- Slot zero, and the second slot of an eight-byte constant. -/
  | unusable
  deriving DecidableEq, Repr, Inhabited

structure ConstantPool where
  entries : Array Constant

namespace Constant

def slots (tag : UInt8) : Nat := if tag = 5 ∨ tag = 6 then 2 else 1

def skippedSize? (tag : UInt8) : Option Nat :=
  if [3, 4, 9, 10, 11, 12, 17, 18].contains tag then some 4
  else if tag = 5 ∨ tag = 6 then some 8
  else if [8, 16, 19, 20].contains tag then some 2
  else if tag = 15 then some 3
  else none

def reader (tag : UInt8) (index : Nat) : Reader Constant := do
  if tag = 1 then
    let length ← Reader.u2
    return .utf8 (ModifiedUtf8.decode (← Reader.take length))
  if tag = 7 then
    return .classRef (← Reader.u2)
  match skippedSize? tag with
  | some n =>
    Reader.skip n
    return .other tag
  | none => throw (.unknownConstantTag tag index)

end Constant

namespace ConstantPool

/-- Reads constants from slot `index` on while it is below `count`. The index stays a number of
sixteen bits, and each turn raises it, so `turns` beyond `count - index` are not used up. -/
def readFrom (count : Nat) : (turns index : Nat) → Array Constant → Reader ConstantPool
  | 0, _, entries => return ⟨entries⟩
  | turns + 1, index, entries => do
    if index < count then
      let tag ← Reader.u1
      let constant ← Constant.reader tag index
      let entries := entries.push constant
      if Constant.slots tag = 2 then
        readFrom count turns (min (index + 2) 0xFFFF) (entries.push .unusable)
      else
        readFrom count turns (min (index + 1) 0xFFFF) entries
    else return ⟨entries⟩

def reader : Reader ConstantPool := do
  let count ← Reader.u2
  readFrom count count 1 #[.unusable]

def get? (pool : ConstantPool) (index : Nat) : Option Constant := pool.entries[index]?

def utf8 (pool : ConstantPool) (index : Nat) : Except Failure String :=
  match pool.get? index with
  | some (.utf8 s) => .ok s
  | _ => .error (.badConstantRef index .utf8)

def className (pool : ConstantPool) (index : Nat) : Except Failure String :=
  match pool.get? index with
  | some (.classRef nameIndex) => pool.utf8 nameIndex
  | _ => .error (.badConstantRef index .className)

end ConstantPool

end ClassLocator.ClassFile
