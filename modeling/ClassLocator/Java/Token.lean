/-!
The tokens of a Java text. Nothing of the text is lost: each token carries the blanks and comments in
front of it, and the last token, which is empty, carries those at the end.
-/

namespace ClassLocator.Java

/-- A place in a text. Lines and columns count from one; columns count bytes of UTF-8. -/
structure Location where
  line : Nat := 1
  column : Nat := 1
  deriving DecidableEq, Repr, Inhabited

namespace Location

def push (l : Location) (c : Char) : Location :=
  if c = '\n' then ⟨l.line + 1, 1⟩ else ⟨l.line, l.column + c.utf8Size⟩

def advance (l : Location) (cs : List Char) : Location := cs.foldl push l

def isBefore (a b : Location) : Bool := a.line < b.line || (a.line = b.line && a.column < b.column)

def max (a b : Location) : Location := if a.isBefore b then b else a

end Location

inductive Trivia where
  | blanks (text : String)
  | comment (text : String)
  deriving DecidableEq, Repr, Inhabited

def Trivia.text : Trivia → String
  | blanks s | comment s => s

def Trivia.comment? : Trivia → Option String
  | blanks _ => none
  | comment s => some s

namespace Token

inductive Kind where
  /-- Keywords too: whether a word is one depends on where it stands. -/
  | word
  | number
  | character
  | text
  | textStart
  | textMiddle
  | textEnd
  | symbol
  | unknown
  | ending
  deriving DecidableEq, Repr

instance : Inhabited Kind := ⟨.ending⟩

end Token

structure Token where
  kind : Token.Kind
  text : String
  lead : List Trivia := []
  after : Location := {}
  deriving DecidableEq, Repr, Inhabited

namespace Token

def leadText (t : Token) : String := String.join (t.lead.map (·.text))

def comments (t : Token) : List String := t.lead.filterMap (·.comment?)

def isGlued (t : Token) : Bool := t.lead.isEmpty

end Token

end ClassLocator.Java
