import ClassLocator.Log.Filter
import ClassLocator.Options

namespace ClassLocator

inductive Verbosity where
  | quiet
  | normal
  | verbose
  deriving DecidableEq, Repr

def Verbosity.filter : Verbosity → Log.Filter
  | quiet => .upTo .error
  | normal => .upTo .info
  | verbose => .upTo .debug

structure Settings where
  query : Query
  directories : List String
  recursive : Bool
  format : Report.Format
  verbosity : Verbosity

namespace Settings

def directoriesVariable : String := "CLASS_FINDER_PATH"

def splitDirectories (raw : String) : List String :=
  (((Text.separated ';' raw.toList).map Text.trim).filter (!·.isEmpty)).map String.ofList

/-- The first list of directories that is not empty: of the options, of the environment, or the
working directory alone. -/
def resolveDirectories (given : List String) (fromEnvironment : Option String)
    (workingDirectory : String) : List String :=
  let fromOptions := given.flatMap splitDirectories
  let fromVariable := (fromEnvironment.map splitDirectories).getD []
  if !fromOptions.isEmpty then fromOptions
  else if !fromVariable.isEmpty then fromVariable
  else [workingDirectory]

def ofOptions (o : Options) (fromEnvironment : Option String) (workingDirectory : String) :
    Except Failure Settings := do
  let query ← Query.new (o.className.getD "") o.matchCase o.method
  return {
    query
    directories := resolveDirectories o.directories fromEnvironment workingDirectory
    recursive := o.recursive
    format := o.format.getD .text
    verbosity := if o.quiet then .quiet else if o.verbose then .verbose else .normal }

def badClassName : String := "Invalid class name"

end Settings

end ClassLocator
