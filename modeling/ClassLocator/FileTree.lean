import ClassLocator.Candidate

namespace ClassLocator

namespace FileTree

inductive Node where
  | file (content : ByteArray)
  | directory (entries : List (String × Node))

instance : Inhabited Node := ⟨.directory []⟩

end FileTree

/-- The files there are, from the root directory on, and the directory in which relative paths
start. -/
structure FileTree where
  root : FileTree.Node
  workingDirectory : String

namespace FileTree

namespace Node

def child? (entries : List (String × Node)) (name : String) : Option Node :=
  (entries.find? (·.1 == name)).map (·.2)

def longestName : Nat := 255

/-- Goes down the parts of a path. The head of `above` is the node reached, its tail the directories
around it; the root is its own parent. -/
def descend : (above : List Node) → (parts : List String) → Except PathFault Node
  | [], _ => .error .notFound
  | node :: _, [] => .ok node
  | node :: above, part :: parts =>
    match node with
    | file _ => .error .notADirectory
    | directory entries =>
      if part = "." then descend (node :: above) parts
      else if part = ".." then
        descend (if above.isEmpty then [node] else above) parts
      else if longestName < part.utf8ByteSize then .error .nameTooLong
      else match child? entries part with
        | none => .error .notFound
        | some child => descend (child :: node :: above) parts

/-- Puts `new` at a path of names below a node and makes the directories on the way. What stood there
before gives way, except that a directory keeps its entries when another one is put there. -/
def insert (new : Node) : (node : Option Node) → (parts : List String) → Node
  | some (directory entries), [] =>
    match new with
    | directory [] => directory entries
    | _ => new
  | _, [] => new
  | node, part :: parts =>
    let entries := match node with
      | some (directory entries) => entries
      | _ => []
    directory ((entries.filter (·.1 != part)) ++ [(part, insert new (child? entries part) parts)])

end Node

/-- The names on the way that the parts of a path describe: two dots take back the name before them.
-/
def names (parts : List String) : List String :=
  (parts.foldl (fun back part => if part = ".." then back.drop 1 else part :: back) []).reverse

def insert (t : FileTree) (path : String) (new : Node) : FileTree :=
  { t with root := Node.insert new (some t.root) (names (Path.parts path)) }

def longestPath : Nat := 4095

/-- What a path leads to. A slash at the end asks for a directory. -/
def find (t : FileTree) (path : String) : Except PathFault Node :=
  let cs := path.toList
  if cs.contains '\x00' then .error .nulByte
  else if cs.isEmpty then .error .notFound
  else if longestPath < path.utf8ByteSize then .error .nameTooLong
  else
    let whole := if cs.head? = some '/' then cs else t.workingDirectory.toList ++ '/' :: cs
    let parts := ((Text.separated '/' whole).filter (· ≠ [])).map String.ofList
    Node.descend [t.root] (if cs.getLast? = some '/' then parts ++ ["."] else parts)

def read (t : FileTree) (path : String) : Except PathFault ByteArray := do
  match ← t.find path with
  | .file content => return content
  | .directory _ => throw .isADirectory

def map (t : FileTree) (path : String) : Except PathFault ByteArray := do
  match ← t.find path with
  | .file content => return content
  | .directory _ => throw .notMappable

def inNameOrder (lists : List (String × List String)) : List String :=
  (lists.mergeSort fun a b => !decide (b.1 < a.1)).flatMap (·.2)

mutual

/-- The searchable files at `path`: the file itself, or those below the directory, depth first and
each directory in the order of its names. -/
def Node.filesAt (path : String) : Node → List String
  | .file _ => if Candidate.isSearchable path then [path] else []
  | .directory entries => inNameOrder (Node.filesOfEntries path entries)

def Node.filesOfEntries (path : String) : List (String × Node) → List (String × List String)
  | [] => []
  | (name, node) :: rest =>
    (name, node.filesAt (Path.join path name)) :: Node.filesOfEntries path rest

end

def filesDirectlyIn (path : String) (entries : List (String × Node)) : List String :=
  inNameOrder (entries.map fun (name, node) =>
    match node with
    | .file _ => (name, node.filesAt (Path.join path name))
    | .directory _ => (name, []))

/-- A base that is a lone dash stands for the standard input, where there are no files. -/
def isStandardInput (base : String) : Bool :=
  base.toList.head? = some '-' && Path.parts base = ["-"]

/-- The candidates below a base directory, or the base itself if it is a file. Even the base of the
standard input has to lead to something. -/
def candidates (t : FileTree) (base : String) (recursive : Bool) : Except Failure (List String) :=
  match t.find base with
  | .error _ => .error (.missingDirectory base)
  | .ok node =>
    .ok (if isStandardInput base then []
      else match node with
        | .file content => Node.filesAt base (.file content)
        | .directory entries =>
          if recursive then Node.filesAt base (.directory entries)
          else filesDirectlyIn base entries)

end FileTree

end ClassLocator
