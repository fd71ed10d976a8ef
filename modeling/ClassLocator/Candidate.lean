import ClassLocator.Path
import ClassLocator.Query

namespace ClassLocator

namespace Candidate

/-- What a file is taken for. Whatever is neither a class file nor a source is tried as an archive. -/
inductive Kind where
  | compiled
  | source
  | container
  deriving DecidableEq, Repr

def smallExtension? (name : String) : Option String := (Path.extension? name).map Text.lowerAsciiOnly

def Kind.ofName (name : String) : Kind :=
  match smallExtension? name with
  | some "class" => .compiled
  | some "java" => .source
  | _ => .container

def Kind.name : Kind → String
  | compiled => "compiled"
  | source => "source"
  | container => "container"

end Candidate

/-- A file or an archive entry that a query matched: the name to show, and the path of the file or
of the archive around the entry. -/
structure Candidate where
  displayName : String
  locator : String
  kind : Candidate.Kind
  deriving DecidableEq, Repr

namespace Candidate

def searchableExtensions : List String := ["class", "java", "jar", "war", "ear", "zip", "rar"]

def isSearchable (path : String) : Bool :=
  match smallExtension? path with
  | some ext => searchableExtensions.contains ext
  | none => false

def classExtensions : List String := ["class", "java"]

/-- A name or path as it is compared: with slashes alone, and in small letters unless case matters.
-/
def comparable (caseSensitive : Bool) (name : String) : String :=
  let slashed := name.map fun c => if c = '\\' then '/' else c
  if caseSensitive then slashed else Text.lower slashed

/-- Whether a candidate holds the class searched for. A qualified query asks for the end of the path
alone, an unqualified one for the whole last part of the path or for the whole name. -/
def isMatch (query : Query) (name path : String) : Bool :=
  let name := comparable query.caseSensitive name
  let path := (comparable query.caseSensitive path).toList
  classExtensions.any fun ext =>
    let fileName := query.target ++ "." ++ ext
    if query.qualified then fileName.toList.isSuffixOf path
    else name == fileName || ('/' :: fileName.toList).isSuffixOf path

end Candidate

end ClassLocator
