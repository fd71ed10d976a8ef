namespace ClassLocator

inductive Role where
  | method
  | constructor
  | staticInitializer
  deriving DecidableEq, Repr, Inhabited

/-- What is known of one method's declaration, wherever it was found. All types are text. -/
structure Declaration where
  owner : String
  modifiers : List String := []
  typeParameters : List String := []
  result : String := ""
  name : String
  parameters : List String := []
  thrown : List String := []
  role : Role := .method
  deriving DecidableEq, Repr, Inhabited

namespace Declaration

def head (d : Declaration) (name : String) : String :=
  name ++ "(" ++ ",".intercalate d.parameters ++ ")"

def tokens (d : Declaration) : List String :=
  let generic := if d.typeParameters.isEmpty then []
    else ["<" ++ ",".intercalate d.typeParameters ++ ">"]
  d.modifiers ++ match d.role with
    | .staticInitializer => ["\x7b\x7d"]
    | .constructor => generic ++ [d.head d.owner]
    | .method => generic ++ (if d.result.isEmpty then [] else [d.result]) ++ [d.head d.name]

def throwsClause (d : Declaration) : String :=
  if d.role = .staticInitializer ∨ d.thrown.isEmpty then ""
  else " throws " ++ ", ".intercalate d.thrown

def render (d : Declaration) : String :=
  " ".intercalate d.tokens ++ d.throwsClause ++ ";"

end Declaration

end ClassLocator
