import ClassLocator.ClassFile
import ClassLocator.Proofs.ClassFile.Input
/-!
Class files as they are written: the constants in their slots, the class's own entry and the tables
of interfaces, fields and methods. A `Layout` holds every byte up to the end of the method table, and
`classFile` is what of it is kept.
-/

namespace ClassLocator.ClassFile

def payloadSizes : List (UInt8 × Nat) :=
  [(3, 4), (4, 4), (5, 8), (6, 8), (8, 2), (9, 4), (10, 4), (11, 4), (12, 4), (15, 3), (16, 2),
   (17, 4), (18, 4), (19, 2), (20, 2)]

/-- A constant of some tag in its slots. Numbers of eight bytes take a second one. -/
def Constant.cells (c : Constant) (tag : UInt8) : List Constant :=
  if tag = 5 ∨ tag = 6 then [c, .unusable] else [c]

/-- A constant with all its bytes. -/
inductive Entry where
  | utf8 (bytes : List UInt8)
  | classRef (nameIndex : Nat)
  | other (tag : UInt8) (payload : List UInt8)
  deriving DecidableEq, Repr

namespace Entry

def tag : Entry → UInt8
  | utf8 _ => 1
  | classRef _ => 7
  | other tag _ => tag

def payload : Entry → List UInt8
  | utf8 bytes => numberWire 2 bytes.length ++ bytes
  | classRef nameIndex => numberWire 2 nameIndex
  | other _ payload => payload

def wire (e : Entry) : List UInt8 := e.tag :: e.payload

def WellFormed : Entry → Prop
  | utf8 bytes => bytes.length < 2 ^ 16
  | classRef nameIndex => nameIndex < 2 ^ 16
  | other tag payload => payloadSizes.lookup tag = some payload.length

instance : (e : Entry) → Decidable e.WellFormed
  | utf8 _ | classRef _ => inferInstanceAs (Decidable (_ < _))
  | other _ _ => inferInstanceAs (Decidable (_ = _))

def constant : Entry → Constant
  | utf8 bytes => .utf8 (ModifiedUtf8.decode ⟨bytes.toArray⟩)
  | classRef nameIndex => .classRef nameIndex
  | other tag _ => .other tag

def cells (e : Entry) : List Constant := e.constant.cells e.tag

end Entry

def ConstantPool.ofEntries (es : List Entry) : ConstantPool :=
  ⟨(.unusable :: es.flatMap Entry.cells).toArray⟩

/-- Each entry begins in a slot below `count`, and the last one ends at `count` or beyond. -/
def Fills (count : Nat) : (index : Nat) → List Entry → Prop
  | index, [] => count ≤ index
  | index, e :: es => index < count ∧ Fills count (index + e.cells.length) es

def word : List UInt8 → Nat
  | high :: low :: _ => high.toNat * 256 + low.toNat
  | _ => 0

def words : (n : Nat) → List UInt8 → List Nat
  | 0, _ => []
  | n + 1, bs => word bs :: words n (bs.drop 2)

structure Attribute where
  nameIndex : Nat
  body : List UInt8
  deriving DecidableEq, Repr

namespace Attribute

def wire (a : Attribute) : List UInt8 :=
  numberWire 2 a.nameIndex ++ numberWire 4 a.body.length ++ a.body

def Fits (a : Attribute) : Prop := a.nameIndex < 2 ^ 16 ∧ a.body.length < 2 ^ 32

def isNamed (pool : ConstantPool) (name : String) (a : Attribute) : Bool :=
  (pool.utf8 a.nameIndex).toOption = some name

/-- The bodies of the attributes that count hold what is looked for; more may follow it. -/
structure Readable (pool : ConstantPool) (a : Attribute) : Prop where
  signature : a.isNamed pool "Signature" → 2 ≤ a.body.length
  exceptions : a.isNamed pool "Exceptions" →
    2 ≤ a.body.length ∧ 2 * word a.body ≤ (a.body.drop 2).length

end Attribute

structure Member where
  accessFlags : Nat
  nameIndex : Nat
  descriptorIndex : Nat
  attributes : List Attribute
  deriving DecidableEq, Repr

namespace Member

def wire (m : Member) : List UInt8 :=
  numberWire 2 m.accessFlags ++ numberWire 2 m.nameIndex ++ numberWire 2 m.descriptorIndex ++
    numberWire 2 m.attributes.length ++ m.attributes.flatMap Attribute.wire

structure Fits (m : Member) : Prop where
  accessFlags : m.accessFlags < 2 ^ 16
  nameIndex : m.nameIndex < 2 ^ 16
  descriptorIndex : m.descriptorIndex < 2 ^ 16
  count : m.attributes.length < 2 ^ 16
  attributes : ∀ a ∈ m.attributes, a.Fits

def lastBody? (pool : ConstantPool) (name : String) (m : Member) : Option (List UInt8) :=
  ((m.attributes.filter (·.isNamed pool name)).getLast?).map Attribute.body

def method (pool : ConstantPool) (m : Member) : Method where
  accessFlags := m.accessFlags
  nameIndex := m.nameIndex
  descriptorIndex := m.descriptorIndex
  signatureIndex := (m.lastBody? pool "Signature").map word
  exceptionIndexes := (m.lastBody? pool "Exceptions").map fun body => words (word body) (body.drop 2)

end Member

structure Layout where
  minorVersion : Nat
  majorVersion : Nat
  poolCount : Nat
  constants : List Entry
  accessFlags : Nat
  thisClass : Nat
  superClass : Nat
  interfaces : List Nat
  fields : List Member
  methods : List Member
  deriving DecidableEq, Repr

namespace Layout

def pool (k : Layout) : ConstantPool := .ofEntries k.constants

def wire (k : Layout) : List UInt8 :=
  numberWire 4 magicNumber ++ numberWire 2 k.minorVersion ++ numberWire 2 k.majorVersion ++
  numberWire 2 k.poolCount ++ k.constants.flatMap Entry.wire ++
  numberWire 2 k.accessFlags ++ numberWire 2 k.thisClass ++ numberWire 2 k.superClass ++
  numberWire 2 k.interfaces.length ++ k.interfaces.flatMap (numberWire 2) ++
  numberWire 2 k.fields.length ++ k.fields.flatMap Member.wire ++
  numberWire 2 k.methods.length ++ k.methods.flatMap Member.wire

structure WellFormed (k : Layout) : Prop where
  minorVersion : k.minorVersion < 2 ^ 16
  majorVersion : k.majorVersion < 2 ^ 16
  poolCount : k.poolCount < 2 ^ 16
  fills : Fills k.poolCount 1 k.constants
  constants : ∀ e ∈ k.constants, e.WellFormed
  accessFlags : k.accessFlags < 2 ^ 16
  thisClass : k.thisClass < 2 ^ 16
  superClass : k.superClass < 2 ^ 16
  interfaceCount : k.interfaces.length < 2 ^ 16
  interfaces : ∀ i ∈ k.interfaces, i < 2 ^ 16
  fieldCount : k.fields.length < 2 ^ 16
  fields : ∀ f ∈ k.fields, f.Fits
  methodCount : k.methods.length < 2 ^ 16
  methods : ∀ m ∈ k.methods, m.Fits ∧ ∀ a ∈ m.attributes, a.Readable k.pool

def classFile (k : Layout) : ClassFile where
  constantPool := k.pool
  thisClass := k.thisClass
  methods := k.methods.map (Member.method k.pool)

end Layout

end ClassLocator.ClassFile
