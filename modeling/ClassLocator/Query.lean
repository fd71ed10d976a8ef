import ClassLocator.Failure
import ClassLocator.Text.Blank
import ClassLocator.Text.LetterCase

namespace ClassLocator

/-- A query is built by `Query.new` alone, which derives `target` and `qualified` from the name. -/
structure Query where
  className : String
  target : String
  qualified : Bool
  caseSensitive : Bool
  methodFilter : Option String
  deriving DecidableEq, Repr

namespace Query

def importWord : List Char := "import ".toList

def dropImport (cs : List Char) : List Char :=
  if importWord.isPrefixOf cs then Text.trim (cs.drop importWord.length) else cs

def dropSemicolons (cs : List Char) : List Char :=
  if cs.getLast? = some ';' then Text.trim (cs.reverse.dropWhile (· == ';')).reverse else cs

/-- The class name in a line such as an import of it: without the import word, the semicolons at its
end and all blanks. -/
def normalize (raw : String) : String :=
  String.ofList ((dropSemicolons (dropImport (Text.trim raw.toList))).filter (!Text.isBlank ·))

def isSeparator (c : Char) : Bool := c == '.' || c == '/'

def asPath (className : String) : String :=
  className.map fun c => if c = '.' then '/' else c

/-- A method filter without the blanks around it; a blank one is none. -/
def filterOf (method : Option String) : Option String :=
  match method with
  | none => none
  | some m =>
    let cs := Text.trim m.toList
    if cs.isEmpty then none else some (String.ofList cs)

def new (raw : String) (caseSensitive : Bool) (method : Option String) : Except Failure Query :=
  let className := normalize raw
  if className.isEmpty then .error .emptyClassName
  else
    let path := asPath className
    .ok {
      className
      target := if caseSensitive then path else Text.lower path
      qualified := className.toList.any isSeparator
      caseSensitive
      methodFilter := filterOf method }

end Query

end ClassLocator
