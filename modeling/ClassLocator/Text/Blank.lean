namespace ClassLocator.Text

/-- The property White_Space of Unicode. -/
def isBlank (c : Char) : Bool :=
  let n := c.toNat
  (0x9 ≤ n && n ≤ 0xD) || n == 0x20 || n == 0x85 || n == 0xA0 || n == 0x1680
    || (0x2000 ≤ n && n ≤ 0x200A) || n == 0x2028 || n == 0x2029 || n == 0x202F || n == 0x205F
    || n == 0x3000

def trimStart (cs : List Char) : List Char := cs.dropWhile isBlank

def trimEnd (cs : List Char) : List Char := (cs.reverse.dropWhile isBlank).reverse

def trim (cs : List Char) : List Char := trimEnd (trimStart cs)

/-- The stretches between blanks, the empty ones included: one more than there are blanks. -/
def splitBlanks : List Char → List (List Char)
  | [] => [[]]
  | c :: cs =>
    match splitBlanks cs with
    | [] => [[c]]
    | w :: ws => if isBlank c then [] :: w :: ws else (c :: w) :: ws

def words (cs : List Char) : List (List Char) := (splitBlanks cs).filter (!·.isEmpty)

def squeeze (s : String) : String := String.ofList ([' '].intercalate (words s.toList))

end ClassLocator.Text
