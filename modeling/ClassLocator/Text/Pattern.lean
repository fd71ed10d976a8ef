namespace ClassLocator.Text

inductive Pattern where
  | nothing
  | empty
  | one (accepts : Char → Bool)
  | both (first second : Pattern)
  | either (first second : Pattern)
  | many (item : Pattern)

namespace Pattern

instance : Inhabited Pattern := ⟨.nothing⟩

def fitsEmpty : Pattern → Bool
  | nothing | one _ => false
  | empty | many _ => true
  | both p q => p.fitsEmpty && q.fitsEmpty
  | either p q => p.fitsEmpty || q.fitsEmpty

def chain : Pattern → Pattern → Pattern
  | nothing, _ | _, nothing => nothing
  | empty, q => q
  | p, q => both p q

def choose : Pattern → Pattern → Pattern
  | nothing, q => q
  | p, nothing => p
  | p, q => either p q

/-- What may follow a character in a pattern. -/
def behind (c : Char) : Pattern → Pattern
  | nothing | empty => nothing
  | one accepts => if accepts c then empty else nothing
  | both p q =>
    let r := chain (p.behind c) q
    if p.fitsEmpty then choose r (q.behind c) else r
  | either p q => choose (p.behind c) (q.behind c)
  | many p => chain (p.behind c) (many p)

/-- Goes on with a pattern `n` characters into a text, where `best` is the longest beginning so far. -/
def longestFrom (p : Pattern) (n : Nat) (best : Option Nat) : List Char → Option Nat
  | [] => if p.fitsEmpty then some n else best
  | c :: cs =>
    let best := if p.fitsEmpty then some n else best
    match p.behind c with
    | nothing => best
    | q => longestFrom q (n + 1) best cs

def longest (p : Pattern) (cs : List Char) : Option Nat := p.longestFrom 0 none cs

def seq (ps : List Pattern) : Pattern := ps.foldr chain empty

def alt (ps : List Pattern) : Pattern := ps.foldr choose nothing

def opt (p : Pattern) : Pattern := either p empty

def some1 (p : Pattern) : Pattern := both p (many p)

def sepBy1 (separator p : Pattern) : Pattern := both p (many (chain separator p))

def char (c : Char) : Pattern := one (· == c)

def oneOf (chars : String) : Pattern :=
  let cs := chars.toList
  one cs.contains

def noneOf (chars : List Char) : Pattern := one (!chars.contains ·)

def word (s : String) : Pattern := seq (s.toList.map char)

end Pattern

end ClassLocator.Text
