import ClassLocator.ClassFile.ConstantPool
/-!
Class files, as far as describing methods needs them: the constant pool, the class's own entry and
the method table with two of its attributes. Fields and the attributes of the class are not kept.
-/

namespace ClassLocator

namespace ClassFile

/-- One entry of the method table. Everything but the flags is an index into the pool. -/
structure Method where
  accessFlags : Nat
  nameIndex : Nat
  descriptorIndex : Nat
  signatureIndex : Option Nat := none
  exceptionIndexes : Option (List Nat) := none
  deriving DecidableEq, Repr, Inhabited

end ClassFile

structure ClassFile where
  constantPool : ClassFile.ConstantPool
  thisClass : Nat
  methods : List ClassFile.Method

namespace ClassFile

def magicNumber : Nat := 0xCAFEBABE

def methodModifiers : List (Nat × String) :=
  [(0x0001, "public"), (0x0002, "private"), (0x0004, "protected"), (0x0008, "static"),
   (0x0010, "final"), (0x0020, "synchronized"), (0x0100, "native"), (0x0400, "abstract"),
   (0x0800, "strictfp")]

def modifiers (flags : Nat) : List String :=
  (methodModifiers.filter fun m => flags &&& m.1 ≠ 0).map (·.2)

def skipAttributes : Reader Unit := do
  Reader.pass (do Reader.skip 2; Reader.skip (← Reader.u4)) (← Reader.u2)

/-- Reads one attribute of a method and notes it if it is one of the two that count. A later
attribute of the same name replaces an earlier one, and one whose name does not resolve is skipped.
-/
def methodAttribute (pool : ConstantPool) (m : Method) : Reader Method := do
  let nameIndex ← Reader.u2
  let body ← Reader.take (← Reader.u4)
  match (pool.utf8 nameIndex).toOption with
  | some "Signature" => return { m with signatureIndex := some (← Reader.within body Reader.u2) }
  | some "Exceptions" =>
    let indexes ← Reader.within body do Reader.times Reader.u2 (← Reader.u2)
    return { m with exceptionIndexes := some indexes }
  | _ => return m

def attributes (pool : ConstantPool) : (n : Nat) → Method → Reader Method
  | 0, m => return m
  | n + 1, m => do attributes pool n (← methodAttribute pool m)

def method (pool : ConstantPool) : Reader Method := do
  let accessFlags ← Reader.u2
  let nameIndex ← Reader.u2
  let descriptorIndex ← Reader.u2
  attributes pool (← Reader.u2) { accessFlags, nameIndex, descriptorIndex }

def reader : Reader ClassFile := do
  let magic ← Reader.u4
  unless magic = magicNumber do throw (.badMagic magic)
  Reader.skip 2
  Reader.skip 2
  let constantPool ← ConstantPool.reader
  Reader.skip 2
  let thisClass ← Reader.u2
  Reader.skip 2
  let interfaces ← Reader.u2
  Reader.skip (interfaces * 2)
  Reader.pass (do Reader.skip 6; skipAttributes) (← Reader.u2)
  let methods ← Reader.times (method constantPool) (← Reader.u2)
  return { constantPool, thisClass, methods }

def parse (bytes : ByteArray) : Except Failure ClassFile := (reader.run ⟨bytes, 0⟩).map (·.1)

def name (c : ClassFile) : Except Failure String := c.constantPool.className c.thisClass

end ClassFile

end ClassLocator
