import ClassLocator.Java.Token
import ClassLocator.Text.Letters
import ClassLocator.Text.Pattern
/-!
Cutting a Java text into tokens. Of the tokens that could begin at a place the longest is taken. Angle
brackets that close are the exception: each is a token of its own, since several of them may close
several lists of type arguments. A text in quotation marks may hold expressions in braces; it is then cut
into the pieces between them, and what stands in the braces is lexed like the rest.
-/

namespace ClassLocator.Java.Lexer

open Text (Pattern)
open Text.Pattern

/-- The blanks between tokens. Wider spaces begin no token and no gap. -/
def isGap (c : Char) : Bool := c == ' ' || (9 ≤ c.toNat && c.toNat ≤ 13)

def nul : Char := '\x00'

def beginsWord (c : Char) : Bool := c == '_' || c == '$' || Text.letters.contains c

/-- Letters, digits and marks; also the cent sign. -/
def continuesWord (c : Char) : Bool :=
  c == '_' || c == '$' || c == '\xA2' || Text.letterParts.contains c

def wordPattern : Pattern := both (one beginsWord) (many (one continuesWord))

def isDigit (c : Char) : Bool := '0' ≤ c && c ≤ '9'

def isHexDigit (c : Char) : Bool := isDigit c || ('a' ≤ c && c ≤ 'f') || ('A' ≤ c && c ≤ 'F')

def digitsOf (isDigit : Char → Bool) : Pattern := sepBy1 (char '_') (some1 (one isDigit))

def digits : Pattern := digitsOf isDigit

def octalDigits : Pattern := digitsOf fun c => isDigit c && c ≤ '7'

def binaryDigits : Pattern := digitsOf fun c => c == '0' || c == '1'

def hexDigits : Pattern := digitsOf isHexDigit

def leadingDigits : Pattern :=
  either (char '0')
    (both (one fun c => isDigit c && c != '0') (opt (both (opt (char '_')) digits)))

def longSuffix : Pattern := opt (oneOf "lL")

def floatSuffix : Pattern := opt (oneOf "fFdD")

def exponent (marks : String) (digits : Pattern) : Pattern :=
  seq [oneOf marks, opt (oneOf "+-"), digits]

def wholeNumber : Pattern :=
  seq [alt [leadingDigits,
    seq [char '0', opt (oneOf "oO"), octalDigits],
    seq [char '0', oneOf "xX", hexDigits],
    seq [char '0', oneOf "bB", binaryDigits]], longSuffix]

def fraction : Pattern :=
  let power := exponent "eE" digits
  alt [
    seq [digits, char '.', opt digits, opt power, floatSuffix],
    seq [char '.', digits, opt power, floatSuffix],
    seq [leadingDigits, exponent "eEpP" digits, floatSuffix],
    seq [leadingDigits, opt power, oneOf "fFdD"]]

def hexFraction : Pattern :=
  seq [char '0', oneOf "xX",
    either (both hexDigits (opt (char '.'))) (seq [opt hexDigits, char '.', hexDigits]),
    opt (both (exponent "eEpP" leadingDigits) floatSuffix)]

def number : Pattern := alt [wholeNumber, fraction, hexFraction]

def symbol : Pattern :=
  either (oneOf "(){}[];,.@=<>!~?:+-*/&|^%")
    (alt (["@interface", "...", "<<=", "->", "::", "++", "--", "&&", "||", "==", "!=",
      "<=", "<<", "+=", "-=", "*=", "/=", "&=", "|=", "^=", "%="].map Pattern.word))

def comment : Pattern :=
  either (both (Pattern.word "//") (many (noneOf ['\n', nul])))
    (seq [Pattern.word "/*", many (noneOf ['*', nul]), some1 (char '*'),
      many (seq [noneOf ['/', '*', nul], many (noneOf ['*', nul]), some1 (char '*')]), char '/'])

def character : Pattern :=
  seq [char '\'',
    some1 (either (noneOf ['\\', '\'', '\n', nul]) (both (char '\\') (noneOf [nul]))), char '\'']

def escape : Pattern :=
  let octal := one fun c => isDigit c && c ≤ '7'
  let hex := one isHexDigit
  both (char '\\') (alt [
    noneOf ['x', 'u', '0', '1', '2', '3', '4', '5', '6', '7', '\x7b', nul],
    seq [octal, opt octal, opt octal],
    seq [char 'x', hex, hex],
    seq [char 'u', hex, hex, hex, hex],
    seq [Pattern.word "u\x7b", some1 hex, char '\x7d']])

inductive PieceEnd where
  | marks
  | brace
  deriving DecidableEq

/-- What a mark opens, up to and with its end; lines may end within it. -/
def linePiece (cs : List Char) : Option (Nat × PieceEnd) :=
  let body := many (either (noneOf ['"', '\\', nul]) escape)
  match (both body (char '"')).longest cs with
  | some n => some (n, .marks)
  | none => ((both body (Pattern.word "\\\x7b")).longest cs).map (·, .brace)

/-- Where a block of text stands: at the beginning of a stretch of it, within one, or within one that
begins with a mark. -/
inductive BlockPlace where
  | start
  | plain
  | quoted
  deriving DecidableEq

def commentBehindGap (cs : List Char) : Option Nat :=
  let gap := (cs.takeWhile isGap).length
  (comment.longest (cs.drop gap)).map (gap + ·)

/-- What three marks open, up to and with its end, with `n` more characters. A backslash takes any
character, so that a mark may follow it. At the start of a stretch a comment is one if it is longer than
the stretch would be, even if it hides the marks that would close the block. -/
def blockPiece : (fuel : Nat) → (place : BlockPlace) → (n : Nat) → List Char →
    Option (Nat × PieceEnd)
  | 0, _, _, _ => none
  | fuel + 1, place, n, cs =>
    match cs with
    | [] => none
    | '"' :: '"' :: '"' :: _ => some (n + 3, .marks)
    | '"' :: rest => blockPiece fuel .quoted (n + 1) rest
    | '\\' :: '\x7b' :: _ => some (n + 2, .brace)
    | '\\' :: c :: rest =>
      if c = nul then none
      else if place = .quoted ∧ c = '"' then blockPiece fuel .quoted (n + 2) rest
      else
        let k := (escape.longest cs).getD 2
        blockPiece fuel .start (n + k) (cs.drop k)
    | ['\\'] => none
    | _ =>
      let stretch := (cs.takeWhile fun c => c != '"' && c != '\\' && c != nul).length
      let hidden := if place = .start then (commentBehindGap cs).filter (stretch < ·) else none
      match hidden with
      | some k => blockPiece fuel .start (n + k) (cs.drop k)
      | none =>
        if stretch = 0 then none
        else blockPiece fuel (if place = .quoted then .quoted else .plain) (n + stretch)
          (cs.drop stretch)

/-- A text that is being read: a block or a line, and the braces that were opened in its expression and
not closed. -/
structure OpenText where
  isBlock : Bool
  braces : Nat := 0

def piece (isBlock : Bool) (cs : List Char) : Option (Nat × PieceEnd) :=
  if isBlock then blockPiece (cs.length + 1) .start 0 cs else linePiece cs

structure Lexeme where
  kind : Token.Kind
  length : Nat
  texts : List OpenText

structure Opening where
  isBlock : Bool
  length : Nat
  isFirst : Bool
  texts : List OpenText

def blockMarks : List Char := ['"', '"', '"']

def opening? (texts : List OpenText) (cs : List Char) : Option Opening :=
  if blockMarks.isPrefixOf cs then some ⟨true, blockMarks.length, true, texts⟩
  else if ['"'].isPrefixOf cs then some ⟨false, 1, true, texts⟩
  else if ['\x7d'].isPrefixOf cs then
    match texts with
    | ⟨isBlock, 0⟩ :: texts => some ⟨isBlock, 1, false, texts⟩
    | _ => none
  else none

def Opening.lexeme (o : Opening) (n : Nat) : PieceEnd → Lexeme
  | .marks => ⟨if o.isFirst then .text else .textEnd, o.length + n, o.texts⟩
  | .brace =>
    ⟨if o.isFirst then .textStart else .textMiddle, o.length + n, ⟨o.isBlock, 0⟩ :: o.texts⟩

def textLexeme (o : Opening) (cs : List Char) : Option Lexeme :=
  (piece o.isBlock (cs.drop o.length)).map fun (n, e) => o.lexeme n e

def plainPatterns : List (Token.Kind × Pattern) :=
  [(.word, wordPattern), (.number, number), (.character, character), (.symbol, symbol)]

def candidates (cs : List Char) : List (Token.Kind × Nat) :=
  plainPatterns.filterMap fun (kind, pattern) => (pattern.longest cs).map (kind, ·)

def longer (best t : Token.Kind × Nat) : Token.Kind × Nat := if best.2 < t.2 then t else best

def textsBehind (c : Char) : List OpenText → List OpenText
  | [] => []
  | t :: ts =>
    if c = '\x7b' then { t with braces := t.braces + 1 } :: ts
    else if c = '\x7d' then { t with braces := t.braces - 1 } :: ts
    else t :: ts

def plainLexeme (texts : List OpenText) (cs : List Char) : Option Lexeme :=
  match candidates cs with
  | [] => none
  | first :: rest =>
    let (kind, n) := rest.foldl longer first
    some ⟨kind, n, (cs.head?.map (textsBehind · texts)).getD texts⟩

def lexeme (texts : List OpenText) (cs : List Char) : Lexeme :=
  let found := match opening? texts cs with
    | some o => textLexeme o cs
    | none => plainLexeme texts cs
  found.getD ⟨.unknown, 1, texts⟩

/-- The text up to here ends in `non-`, the first two tokens of a modifier. -/
def isBehindNon (lead : List Trivia) (before : List Token) : Bool :=
  match before with
  | minus :: non :: _ => lead.isEmpty && minus.text = "-" && minus.isGlued && non.text = "non"
  | _ => false

def sealedWord : List Char := "sealed".toList

/-- Behind `non-` the word `sealed` is cut off from a word that goes on like the beginning of one. -/
def cutsSealed (cs : List Char) : Bool :=
  sealedWord.isPrefixOf cs && ((cs.drop sealedWord.length).head?.map beginsWord).getD false

def nextLexeme (texts : List OpenText) (isBehindNon : Bool) (cs : List Char) : Lexeme :=
  if isBehindNon && cutsSealed cs then ⟨.word, sealedWord.length, texts⟩ else lexeme texts cs

/-- Lexes the rest of a text. The lists `lead` and `before` have what was passed since the last token
and the tokens so far, the last one first. Each turn takes at least one character. -/
def lexFrom : (fuel : Nat) → (texts : List OpenText) → (cs : List Char) →
    (place after : Location) → (lead : List Trivia) → (before : List Token) → List Token
  | 0, _, _, _, after, lead, before =>
    ({ kind := .ending, text := "", lead := lead.reverse, after } :: before).reverse
  | fuel + 1, texts, cs, place, after, lead, before =>
    match cs with
    | [] => ({ kind := .ending, text := "", lead := lead.reverse, after } :: before).reverse
    | c :: rest =>
      if isGap c then
        let gap := c :: rest.takeWhile isGap
        lexFrom fuel texts (rest.dropWhile isGap) (place.advance gap) after
          (.blanks (String.ofList gap) :: lead) before
      else
        match comment.longest cs with
        | some n =>
          let body := cs.take n
          let place := place.advance body
          lexFrom fuel texts (cs.drop n) place place (.comment (String.ofList body) :: lead) before
        | none =>
          let next := nextLexeme texts (isBehindNon lead before) cs
          let body := cs.take next.length
          let place := place.advance body
          lexFrom fuel next.texts (cs.drop next.length) place place []
            ({ kind := next.kind, text := String.ofList body, lead := lead.reverse, after }
              :: before)

def byteOrderMark : Char := '\uFEFF'

/-- The tokens of a text, the empty one at its end included. A byte order mark at the front is passed
over, but takes its place in the first line. -/
def lex (source : String) : List Token :=
  match source.toList with
  | [] => lexFrom 1 [] [] {} {} [] []
  | c :: rest =>
    if c = byteOrderMark then lexFrom (rest.length + 1) [] rest (Location.push {} c) {} [] []
    else lexFrom (rest.length + 2) [] (c :: rest) {} {} [] []

end ClassLocator.Java.Lexer
