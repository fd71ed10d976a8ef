import ClassLocator.Archive.Fault
import ClassLocator.MethodType.Fault
import ClassLocator.Text.Quoted

namespace ClassLocator

inductive PathFault where
  | notFound
  | notADirectory
  | isADirectory
  | notMappable
  | nameTooLong
  | nulByte
  deriving DecidableEq, Repr

inductive ConstantKind where
  | utf8
  | className
  deriving DecidableEq, Repr

inductive Failure where
  | path (fault : PathFault)
  | entryData (fault : Archive.DataFault)
  | archive (fault : Archive.Fault)
  | entryTooLarge (name : String) (size limit : Nat)
  | badMagic (magic : Nat)
  | truncated (offset : Nat)
  | unknownConstantTag (tag : UInt8) (index : Nat)
  | badConstantRef (index : Nat) (expected : ConstantKind)
  | badDescriptor (text : String) (fault : MethodType.Fault)
  | badSignature (text : String) (fault : MethodType.Fault)
  | sourceSyntax (line column : Nat)
  | emptyClassName
  | missingDirectory (path : String)
  deriving DecidableEq, Repr

def PathFault.message : PathFault → String
  | notFound => "No such file or directory (os error 2)"
  | notADirectory => "Not a directory (os error 20)"
  | isADirectory => "Is a directory (os error 21)"
  | notMappable => "No such device (os error 19)"
  | nameTooLong => "File name too long (os error 36)"
  | nulByte => "file name contained an unexpected NUL byte"

def ConstantKind.name : ConstantKind → String
  | utf8 => "Utf8"
  | className => "Class"

namespace Failure

def hexWord (n : Nat) : String :=
  let digits := (Nat.toDigits 16 n).map Char.toUpper
  String.ofList (List.replicate (8 - digits.length) '0' ++ digits)

def message : Failure → String
  | .path fault => "I/O error: " ++ fault.message
  | .entryData fault => "I/O error: " ++ fault.message
  | .archive fault => "cannot read archive: " ++ fault.message
  | entryTooLarge name size limit =>
    s!"archive entry {name} is too large ({size} bytes, limit {limit})"
  | badMagic magic => s!"not a class file (magic 0x{hexWord magic})"
  | truncated offset => s!"class file truncated at offset {offset}"
  | unknownConstantTag tag index => s!"unknown constant pool tag {tag} at index {index}"
  | badConstantRef index expected =>
    s!"invalid constant pool reference #{index}: expected {expected.name}"
  | badDescriptor text fault =>
    s!"invalid descriptor {Text.Quoted.encode text}: {fault.message}"
  | badSignature text fault =>
    s!"invalid generic signature {Text.Quoted.encode text}: {fault.message}"
  | sourceSyntax line column => s!"syntax error in source at line {line}, column {column}"
  | emptyClassName => "invalid query: class name must not be empty"
  | missingDirectory dir => s!"directory \"{dir}\" does not exist"

end Failure

end ClassLocator
