import ClassLocator.Log
import ClassLocator.Text.Blank
import ClassLocator.Text.LetterCase
import ClassLocator.Text.Letters
import ClassLocator.Text.Separated
/-!
Which entries of a log are shown. A filter is written as clauses with commas between them. A clause is
the name or rank of a level, or it names programs by the beginning of their names, and may then have
a level behind an equals sign.
-/

namespace ClassLocator.Log

/-- The programs whose names begin like `program` are shown from a level on, or not at all. -/
structure Clause where
  program : String := ""
  least : Option Level
  deriving DecidableEq, Repr

/-- The clauses of a filter. A program that none of them is about is not shown. -/
structure Filter where
  clauses : List Clause
  deriving DecidableEq, Repr

def number? (word : String) : Option Nat :=
  let digits := match word.toList with
    | '+' :: cs => cs
    | cs => cs
  if digits.isEmpty || !digits.all Char.isDigit then none
  else some (digits.foldl (fun n d => 10 * n + (d.toNat - '0'.toNat)) 0)

/-- What a word asks to be shown, if it is the name of a level, in letters of either case, or a rank.
No entry is finer than `debug`, so a trace shows no more. -/
def leastOfWord? (word : String) : Option (Option Level) :=
  match number? word, Text.lowerAsciiOnly word with
  | some 0, _ | none, "off" => some none
  | some 1, _ | none, "error" => some (some .error)
  | some 2, _ | none, "warn" => some (some .warn)
  | some 3, _ | none, "info" => some (some .info)
  | some 4, _ | none, "debug" => some (some .debug)
  | some 5, _ | none, "trace" => some (some .debug)
  | _, _ => none

namespace Clause

def begins (c : Char) : Bool := ['-', ':', '['].contains c || Text.letterParts.contains c

/-- The clause of a text. A name without a level shows everything. -/
def ofText? (text : List Char) : Option Clause :=
  if !((Text.trim text).head?.map begins).getD false then none
  else
    let name := text.takeWhile (· != '=')
    match text.drop name.length with
    | [] =>
      match leastOfWord? (String.ofList name) with
      | some least => some { least }
      | none => some ⟨String.ofList name, some .debug⟩
    | [_] => some ⟨String.ofList name, some .debug⟩
    | _ :: word => (leastOfWord? (String.ofList word)).map fun least => ⟨String.ofList name, least⟩

def concerns (c : Clause) (name : String) : Bool := c.program.toList.isPrefixOf name.toList

end Clause

namespace Filter

def upTo (least : Level) : Filter := ⟨[{ least := some least }]⟩

def ofText? (text : String) : Option Filter := do
  let texts := (Text.separated ',' text.toList).filter (!·.isEmpty)
  return ⟨← texts.mapM Clause.ofText?⟩

/-- The clause that decides on a program: of those about it the one that tells most of its name, and of
equals the last. -/
def clauseFor? (f : Filter) (name : String) : Option Clause :=
  (f.clauses.filter (·.concerns name)).foldl (fun best c =>
    match best with
    | none => some c
    | some b => if b.program.length ≤ c.program.length then some c else some b) none

def ownName : String := "class_finder"

def shows (f : Filter) (e : Entry) : Bool :=
  match (f.clauseFor? ownName).bind (·.least) with
  | none => false
  | some least => e.level.rank ≤ least.rank

end Filter

end ClassLocator.Log
