import ClassLocator.Settings

namespace ClassLocator

namespace Run

structure Outcome where
  exitCode : Nat
  output : String := ""
  log : List String := []
  deriving DecidableEq, Repr

def settingsFailure (e : Failure) : List String :=
  ["Error: " ++ Settings.badClassName, "", "Caused by:", "    " ++ e.message]

def refused : Options.Refusal → Outcome
  | .help => { exitCode := 0, output := Options.helpText }
  | .version => { exitCode := 0, output := Options.versionText }
  | _ => { exitCode := 2 }

/-- What is shown of the log. A filter from the environment wins over the options. -/
def logFilter (settings : Settings) (fromEnvironment : Option String) : Log.Filter :=
  (fromEnvironment.bind Log.Filter.ofText?).getD settings.verbosity.filter

def perform (settings : Settings) (tree : FileTree) (filter : Log.Filter) (elapsed : String) :
    Outcome :=
  let s := search settings.query tree settings.directories settings.recursive
  let log := Log.ofSearch s settings.directories settings.recursive elapsed
  { exitCode := 0
    output := Report.output settings.format s.events
    log := (log.filter filter.shows).flatMap (·.line.splitOn "\n") }

end Run

/-- A run over the files of `tree`. The text `elapsed` stands for the milliseconds that it takes. -/
def run (arguments : List String) (directoriesVariable filterVariable : Option String)
    (tree : FileTree) (elapsed : String) : Run.Outcome :=
  match Options.read arguments with
  | .error refusal => Run.refused refusal
  | .ok options =>
    match Settings.ofOptions options directoriesVariable tree.workingDirectory with
    | .error e => { exitCode := 1, log := Run.settingsFailure e }
    | .ok settings =>
      Run.perform settings tree (Run.logFilter settings filterVariable) elapsed

end ClassLocator
