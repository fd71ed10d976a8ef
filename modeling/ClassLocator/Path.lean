import ClassLocator.Text.Separated
/-!
Paths as texts whose parts a slash divides. Empty parts and single dots mean nothing; a part of two
dots is kept, for it means another directory only once the file system is known.
-/

namespace ClassLocator.Path

def parts (path : String) : List String :=
  ((Text.separated '/' path.toList).filter fun p => p ≠ [] ∧ p ≠ ['.']).map String.ofList

def fileName? (path : String) : Option String :=
  match (parts path).getLast? with
  | some name => if name = ".." then none else some name
  | none => none

/-- What stands behind the last dot of the file name. A dot that comes first and alone begins no
extension. -/
def extension? (path : String) : Option String := do
  let reversed := (← fileName? path).toList.reverse
  let ext := reversed.takeWhile (· != '.')
  match reversed.drop ext.length with
  | [] | [_] => none
  | _ :: _ => return String.ofList ext.reverse

def join (base name : String) : String :=
  if base.toList.getLast? = some '/' then base ++ name else base ++ "/" ++ name

/-- The path from the root on. A path that is not absolute starts in `directory`; exactly two leading
slashes stay, and so does a slash at the end. The empty path has no such form and stays empty. -/
def absolute (directory path : String) : String :=
  let cs := path.toList
  if cs.isEmpty then path
  else
    let root :=
      if cs.head? != some '/' then directory
      else if cs.takeWhile (· == '/') = ['/', '/'] then "//"
      else "/"
    let whole := (parts path).foldl join root
    if cs.getLast? = some '/' ∧ whole.toList.getLast? ≠ some '/' then whole ++ "/" else whole

end ClassLocator.Path
