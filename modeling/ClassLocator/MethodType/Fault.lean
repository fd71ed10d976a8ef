namespace ClassLocator.MethodType

def maxDimensions : Nat := 255

def maxArgumentDepth : Nat := 64

inductive Fault where
  | unexpectedEnd
  | expected (wanted : Char) (position : Nat) (found : UInt8)
  | trailing (position : Nat)
  | emptyIdentifier (position : Nat)
  | tooManyDimensions (count position : Nat)
  | unexpected (found : UInt8) (position : Nat)
  | unknownCode (found : UInt8)
  | argumentsTooDeep (position : Nat)
  | noTypeParameters
  | noTypeArguments
  deriving DecidableEq, Repr

namespace Fault

/-- A byte as the character of the same number, between apostrophes. -/
def shown (b : UInt8) : String := "'" ++ String.singleton (Char.ofNat b.toNat) ++ "'"

def message : Fault → String
  | unexpectedEnd => "unexpected end"
  | expected wanted position found =>
    s!"expected '{wanted}' at {position}, found " ++ shown found
  | trailing position => s!"trailing input at {position}"
  | emptyIdentifier position => s!"empty identifier at {position}"
  | tooManyDimensions count position =>
    s!"{count} array dimensions at {position} exceed the limit of {maxDimensions}"
  | unexpected found position => "unexpected " ++ shown found ++ s!" at {position}"
  | unknownCode found => "unknown type code " ++ shown found
  | argumentsTooDeep position => s!"type arguments nested too deeply at {position}"
  | noTypeParameters => "empty type parameter list"
  | noTypeArguments => "empty type argument list"

end Fault

end ClassLocator.MethodType
