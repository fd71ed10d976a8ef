import ClassLocator.Archive.Entry
import ClassLocator.ClassFile.Declarations
import ClassLocator.FileTree
import ClassLocator.Java.Declarations
/-!
Searching files one by one. A search tells what it finds and what goes wrong as events, in the order
in which they come up, and counts them. A failure concerns one directory, one file, one entry or one
method, and the search goes on behind it.
-/

namespace ClassLocator

/-- A candidate that matched, with the line of a method where methods were asked for. -/
structure Match where
  candidate : Candidate
  signature : Option String
  deriving DecidableEq, Repr

inductive Event where
  | found (result : Match)
  | verbose (text : String)
  | failed (locator message : String)
  deriving DecidableEq, Repr

/-- What a search does: events, and remarks that only a log shows. -/
inductive Activity where
  | event (e : Event)
  | remark (text : String)
  deriving DecidableEq, Repr

def Activity.event? : Activity → Option Event
  | event e => some e
  | remark _ => none

structure Summary where
  candidates : Nat := 0
  matched : Nat := 0
  errors : Nat := 0
  deriving DecidableEq, Repr

structure Searcher where
  query : Query
  tree : FileTree
  summary : Summary := {}
  activities : Array Activity := #[]

namespace Searcher

def events (s : Searcher) : List Event := s.activities.toList.filterMap (·.event?)

def remark (s : Searcher) (text : String) : Searcher :=
  { s with activities := s.activities.push (.remark text) }

def verbose (s : Searcher) (text : String) : Searcher :=
  { s with activities := s.activities.push (.event (.verbose text)) }

def emit (s : Searcher) (candidate : Candidate) (signature : Option String) : Searcher :=
  { s with
    summary := { s.summary with matched := s.summary.matched + 1 }
    activities := s.activities.push (.event (.found ⟨candidate, signature⟩)) }

def error (s : Searcher) (locator message : String) : Searcher :=
  { s with
    summary := { s.summary with errors := s.summary.errors + 1 }
    activities := s.activities.push (.event (.failed locator message)) }

def fail (s : Searcher) (detail locator message : String) : Searcher :=
  (s.verbose detail).error locator message

def reportMethod (filter : String) (candidate : Candidate) (s : Searcher)
    (outcome : Except Failure Declaration) : Searcher :=
  match outcome with
  | .ok d => s.emit candidate (some d.render)
  | .error e =>
    s.fail s!"Error reading method {filter} from class {candidate.displayName}: {e.message}"
      candidate.locator s!"{candidate.displayName}: {e.message}"

def reportMethods (s : Searcher) (filter : String) (candidate : Candidate) (content : ByteArray) :
    Except Failure Searcher :=
  match candidate.kind with
  | .source => do
    let found ← Java.declarations (Text.Utf8.decodeLossy content) filter
    return found.foldl (fun s d => s.emit candidate (some d.render)) s
  | _ => do
    let outcomes ← ClassFile.declarations content filter
    let s := (ClassFile.problems content filter).foldl (fun s p => s.remark p.message) s
    return outcomes.foldl (reportMethod filter candidate) s

/-- Tells a candidate that matched. Its content is loaded only where methods are asked for, and
nothing is told of a candidate whose content cannot be loaded or read as a whole. -/
def resolve (s : Searcher) (candidate : Candidate) (load : Unit → Except Failure ByteArray) :
    Except Failure Searcher :=
  match s.query.methodFilter with
  | none => .ok (s.emit candidate none)
  | some filter => do s.reportMethods filter candidate (← load ())

def searchEntry (archive : Archive) (locator : String) (s : Searcher) (header : Archive.Header) :
    Searcher :=
  match Archive.openEntry archive header with
  | .error fault =>
    let e := Failure.archive fault
    s.fail s!"Error reading an entry of {locator}: {e.message}" locator e.message
  | .ok found =>
    let name := header.name
    if header.isDirectory || !Candidate.isMatch s.query name name then s
    else
      match s.resolve ⟨name, locator, .ofName name⟩ fun _ => found.read with
      | .ok s => s
      | .error e =>
        s.fail s!"Error reading {name} from {locator}: {e.message}" locator
          s!"{name}: {e.message}"

def openArchive (tree : FileTree) (path : String) : Except Failure Archive :=
  match tree.map path with
  | .error fault => .error (.path fault)
  | .ok bytes =>
    match Archive.ofBytes bytes with
    | .error fault => .error (.archive fault)
    | .ok a => .ok a

def readFile (tree : FileTree) (path : String) : Except Failure ByteArray :=
  match tree.read path with
  | .error fault => .error (.path fault)
  | .ok bytes => .ok bytes

def failFile (s : Searcher) (locator : String) (e : Failure) : Searcher :=
  s.fail s!"Error reading file {locator}: {e.message}" locator e.message

/-- Searches one file: a class file or a source by its name, anything else as an archive. -/
def searchFile (s : Searcher) (path : String) : Searcher :=
  let s := { s with summary := { s.summary with candidates := s.summary.candidates + 1 } }
  let locator := Path.absolute s.tree.workingDirectory path
  let name := (Path.fileName? path).getD locator
  match Candidate.Kind.ofName name with
  | .container =>
    match openArchive s.tree locator with
    | .error e => s.failFile locator e
    | .ok archive => archive.headers.foldl (searchEntry archive locator) s
  | kind =>
    if Candidate.isMatch s.query name locator then
      match s.resolve ⟨name, locator, kind⟩ fun _ => readFile s.tree locator with
      | .ok s => s
      | .error e => s.failFile locator e
    else s

def searchFiles (s : Searcher) (paths : List String) : Searcher := paths.foldl searchFile s

/-- Searches the candidates below one directory. One that cannot be listed is an error of its own. -/
def searchDirectory (recursive : Bool) (s : Searcher) (directory : String) : Searcher :=
  match s.tree.candidates directory recursive with
  | .ok paths => s.searchFiles paths
  | .error e => s.error directory e.message

def searchDirectories (s : Searcher) (directories : List String) (recursive : Bool) : Searcher :=
  (directories.foldl (searchDirectory recursive)
    (s.verbose "Building directory search tree...")).verbose "Finished search"

end Searcher

def search (query : Query) (tree : FileTree) (directories : List String) (recursive : Bool) :
    Searcher :=
  Searcher.searchDirectories { query, tree } directories recursive

end ClassLocator
