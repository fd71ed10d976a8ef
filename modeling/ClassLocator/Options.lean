import ClassLocator.Report
/-!
The options of the command line. Arguments are read from left to right, and the first one that is
wrong decides. A value that stands in an argument of its own is taken only when the next option comes
up or the arguments end, so an argument without a meaning wins over a bad value right before it.
-/

namespace ClassLocator

structure Options where
  directories : List String := []
  className : Option String := none
  method : Option String := none
  format : Option Report.Format := none
  matchCase : Bool := false
  recursive : Bool := false
  verbose : Bool := false
  quiet : Bool := false
  deriving DecidableEq, Repr

namespace Options

/-- Why arguments are not taken as options. The first two are requests. -/
inductive Refusal where
  | help
  | version
  | missingRequired
  | conflict
  | invalidValue
  | unknownArgument
  | tooManyValues
  deriving DecidableEq, Repr

inductive Flag where
  | matchCase | recursive | verbose | quiet | help | version
  deriving DecidableEq, Repr

inductive Setting where
  | directory | className | method | format
  deriving DecidableEq, Repr

inductive Named where
  | flag (f : Flag)
  | setting (s : Setting)
  deriving DecidableEq, Repr

def ofShort? : Char → Option Named
  | 'd' => some (.setting .directory)
  | 'c' => some (.setting .className)
  | 'o' => some (.setting .method)
  | 'f' => some (.setting .format)
  | 'm' => some (.flag .matchCase)
  | 'r' => some (.flag .recursive)
  | 'v' => some (.flag .verbose)
  | 'q' => some (.flag .quiet)
  | 'h' => some (.flag .help)
  | 'V' => some (.flag .version)
  | _ => none

def ofLong? : String → Option Named
  | "directory" => some (.setting .directory)
  | "class" => some (.setting .className)
  | "method" => some (.setting .method)
  | "format" => some (.setting .format)
  | "match-case" => some (.flag .matchCase)
  | "recursive" => some (.flag .recursive)
  | "verbose" => some (.flag .verbose)
  | "quiet" => some (.flag .quiet)
  | "help" => some (.flag .help)
  | "version" => some (.flag .version)
  | _ => none

def formatOf? : String → Option Report.Format
  | "text" => some .text
  | "json" => some .json
  | _ => none

/-- The state of reading: the options so far, and a setting that waits for its value or has a value
that is still to be taken. -/
structure Progress where
  options : Options := {}
  pending : Option (Setting × Option String) := none

def accept (o : Options) (s : Setting) (value : String) : Except Refusal Options :=
  match s with
  | .directory =>
    if value.isEmpty then .error .invalidValue
    else .ok { o with directories := o.directories ++ [value] }
  | .className =>
    if o.className.isSome then .error .conflict else .ok { o with className := some value }
  | .method =>
    if o.method.isSome then .error .conflict else .ok { o with method := some value }
  | .format =>
    if o.format.isSome then .error .conflict
    else match formatOf? value with
      | some format => .ok { o with format := some format }
      | none => .error .invalidValue

def settle (p : Progress) : Except Refusal Progress :=
  match p.pending with
  | none => .ok p
  | some (_, none) => .error .invalidValue
  | some (s, some value) => do return { options := ← accept p.options s value }

def giveFlag (p : Progress) (f : Flag) : Except Refusal Progress := do
  let p ← settle p
  let o := p.options
  let once := fun (given : Bool) (o : Options) =>
    if given then Except.error Refusal.conflict else .ok { p with options := o }
  match f with
  | .help => throw .help
  | .version => throw .version
  | .matchCase => once o.matchCase { o with matchCase := true }
  | .recursive => once o.recursive { o with recursive := true }
  | .verbose => once o.verbose { o with verbose := true }
  | .quiet => once o.quiet { o with quiet := true }

def giveSetting (p : Progress) (s : Setting) (attached : Option String) :
    Except Refusal Progress := do
  let p ← settle p
  match attached with
  | some value => return { options := ← accept p.options s value }
  | none => return { p with pending := some (s, none) }

/-- Reads the letters of an argument such as `-rvcName`. A setting takes what is left of it, without
an equals sign in front. -/
def shorts (p : Progress) : List Char → Except Refusal Progress
  | [] => .ok p
  | c :: rest =>
    match ofShort? c with
    | none => .error .unknownArgument
    | some (.flag f) => do shorts (← giveFlag p f) rest
    | some (.setting s) =>
      match rest with
      | [] => giveSetting p s none
      | '=' :: value => giveSetting p s (some (String.ofList value))
      | value => giveSetting p s (some (String.ofList value))

def long (p : Progress) (cs : List Char) : Except Refusal Progress :=
  let name := cs.takeWhile (· != '=')
  let value := match cs.drop name.length with
    | [] => none
    | _ :: value => some (String.ofList value)
  match ofLong? (String.ofList name), value with
  | none, _ => .error .unknownArgument
  | some (.flag _), some _ => .error .tooManyValues
  | some (.flag f), none => giveFlag p f
  | some (.setting s), value => giveSetting p s value

def plain (p : Progress) (argument : String) : Except Refusal Progress :=
  match p.pending with
  | some (s, none) => .ok { p with pending := some (s, some argument) }
  | _ => .error .unknownArgument

/-- Reads the arguments. Behind two dashes nothing may follow, since every value belongs to an option.
-/
def readAll (p : Progress) : List String → Except Refusal Progress
  | [] => settle p
  | argument :: rest =>
    match argument.toList with
    | ['-', '-'] => if rest.isEmpty then settle p else .error .unknownArgument
    | '-' :: '-' :: cs => do readAll (← long p cs) rest
    | '-' :: c :: cs => do readAll (← shorts p (c :: cs)) rest
    | _ => do readAll (← plain p argument) rest

/-- The options that some arguments give. A class name is required, and one cannot be both quiet and
verbose. -/
def read (arguments : List String) : Except Refusal Options := do
  let o := (← readAll {} arguments).options
  if o.verbose && o.quiet then throw .conflict
  if o.className.isNone then throw .missingRequired
  return o

def helpText : String := "Find Java classes in directories and jar/war/ear/zip archives

Usage: class-finder [OPTIONS] --class <CLASS>

Options:
  -d, --directory <DIR>  Directory (or file) to search; repeatable, and `a;b` lists are accepted
  -c, --class <CLASS>    Class name to search for
  -m, --match-case       Match case
  -r, --recursive        Search sub directories
  -o, --method <METHOD>  Print matching method signatures of the found class
  -f, --format <FORMAT>  [default: text] [possible values: text, json]
  -v, --verbose          Enable verbose output
  -q, --quiet            Only print results and errors
  -h, --help             Print help
  -V, --version          Print version

The class name can either be the simple name (e.g. Random) or " ++
  "the fully qualified name (e.g. java.util.Random).\n"

def versionText : String := "class-finder 0.1.0\n"

end Options

end ClassLocator
