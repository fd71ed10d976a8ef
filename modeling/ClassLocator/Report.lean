import ClassLocator.Search
import ClassLocator.Text.Json

namespace ClassLocator

namespace Report

inductive Format where
  | text
  | json
  deriving DecidableEq, Repr

def textLine (m : Match) : String :=
  let place := m.candidate.displayName ++ "\t" ++ m.candidate.locator
  match m.signature with
  | some signature => place ++ "\t" ++ signature
  | none => place

/-- The fields of a match in the order in which they are written. A missing signature is no field. -/
def fields (m : Match) : List (String × String) :=
  [("display_name", m.candidate.displayName), ("locator_path", m.candidate.locator),
    ("kind", m.candidate.kind.name)] ++ (m.signature.map ("signature", ·)).toList

def jsonField (f : String × String) : List Char := Text.Json.encode f.1 ++ ':' :: Text.Json.encode f.2

def jsonLine (m : Match) : String :=
  String.ofList ('\x7b' :: [','].intercalate ((fields m).map jsonField) ++ ['\x7d'])

def line (format : Format) (m : Match) : String :=
  match format with
  | .text => textLine m
  | .json => jsonLine m

def match? : Event → Option Match
  | .found m => some m
  | _ => none

def output (format : Format) (events : List Event) : String :=
  String.join ((events.filterMap match?).map fun m => line format m ++ "\n")

end Report

end ClassLocator
