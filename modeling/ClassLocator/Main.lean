import ClassLocator.Run

namespace ClassLocator.CommandLine

def filterVariable : String := "RUST_LOG"

/-- Copies entries of a directory, with what is below them if that is asked for. Files that no search
opens are copied without their content, and what cannot be read is left out. -/
partial def load (recursive : Bool) (entries : Array IO.FS.DirEntry) :
    IO (List (String × FileTree.Node)) := do
  let nodes ← entries.toList.mapM fun entry => do
    try
      match (← entry.path.symlinkMetadata).type with
      | .dir =>
        let below ← if recursive then load recursive (← entry.path.readDir) else pure []
        return some (entry.fileName, FileTree.Node.directory below)
      | .file =>
        let content ←
          if Candidate.isSearchable entry.fileName then IO.FS.readBinFile entry.path
          else pure ByteArray.empty
        return some (entry.fileName, FileTree.Node.file content)
      | _ => return none
    catch _ => return none
  return nodes.filterMap id

def addPath (recursive : Bool) (tree : FileTree) (path : String) : IO FileTree := do
  let mut tree := tree
  let mut reached := "/"
  for part in Path.parts path do
    reached := Path.join reached part
    try
      if ← (← IO.FS.realPath reached).isDir then
        tree := tree.insert reached (.directory [])
    catch _ => pure ()
  try
    let place ← IO.FS.realPath reached
    if ← place.isDir then
      return (← load recursive (← place.readDir)).foldl
        (fun tree (name, node) => tree.insert (Path.join reached name) node) tree
    else
      return tree.insert reached (.file (← IO.FS.readBinFile place))
  catch _ => return tree

def filesFor (arguments : List String) (directories : Option String) (workingDirectory : String) :
    IO FileTree := do
  let empty : FileTree := ⟨.directory [], workingDirectory⟩
  match Options.read arguments with
  | .error _ => return empty
  | .ok options =>
    match Settings.ofOptions options directories workingDirectory with
    | .error _ => return empty
    | .ok settings =>
      (settings.directories.map (Path.absolute workingDirectory)).foldlM
        (addPath settings.recursive) (empty.insert workingDirectory (.directory []))

end ClassLocator.CommandLine

open ClassLocator in
def main (arguments : List String) : IO UInt32 := do
  let start ← IO.monoMsNow
  let directories ← IO.getEnv Settings.directoriesVariable
  let filter ← IO.getEnv CommandLine.filterVariable
  let tree ← CommandLine.filesFor arguments directories (← IO.currentDir).toString
  let outcome := run arguments directories filter tree (toString ((← IO.monoMsNow) - start))
  IO.print outcome.output
  outcome.log.forM fun line => IO.eprintln line
  return outcome.exitCode.toUInt32
