import ClassLocator.Search
import ClassLocator.Text.Json

namespace ClassLocator.Log

inductive Level where
  | error
  | warn
  | info
  | debug
  deriving DecidableEq, Repr

def Level.rank : Level → Nat
  | error => 1
  | warn => 2
  | info => 3
  | debug => 4

def Level.name : Level → String
  | error => "ERROR"
  | warn => "WARN"
  | info => "INFO"
  | debug => "DEBUG"

structure Entry where
  level : Level
  text : String
  deriving DecidableEq, Repr

/-- One character of an entry. The controls that a terminal obeys are written out. -/
def encodeChar (c : Char) : List Char :=
  let n := c.toNat
  if [0x07, 0x08, 0x0C, 0x1B, 0x7F].contains n then
    ['\\', 'x', Text.Json.hexDigit (n / 16), Text.Json.hexDigit (n % 16)]
  else if 0x80 ≤ n ∧ n ≤ 0x9F then
    ['\\', 'u', '\x7b'] ++ Text.Quoted.hex n ++ ['\x7d']
  else [c]

def Entry.line (e : Entry) : String :=
  e.level.name ++ " " ++ String.ofList (e.text.toList.flatMap encodeChar)

/-- The entries of one activity. A match is on the output and not in the log. -/
def ofActivity : Activity → List Entry
  | .remark text => [⟨.debug, text⟩]
  | .event (.found _) => []
  | .event (.verbose text) => [⟨.debug, text⟩]
  | .event (.failed locator message) =>
    [⟨.debug, s!"error while reading {locator}: {message}"⟩, ⟨.error, message⟩]

def ofSearch (s : Searcher) (directories : List String) (recursive : Bool) (elapsed : String) :
    List Entry :=
  let opening := s!"searching {Text.Quoted.encodeList directories} for {s.query.className} " ++
    s!"(recursive: {recursive})"
  let closing := s!"{s.summary.matched} match(es) in {s.summary.candidates} candidate(s), " ++
    s!"{s.summary.errors} error(s), {elapsed} ms"
  ⟨.debug, opening⟩ :: s.activities.toList.flatMap ofActivity ++ [⟨.info, closing⟩]

end ClassLocator.Log
