import ClassLocator.Text.Visible

namespace ClassLocator.Text.Quoted

def hex (n : Nat) : List Char := Nat.toDigits 16 n

/-- One character of a quoted text. The marks that would end the text or begin an escape come
first, so that a hidden character never hides them. -/
def encodeChar (c : Char) : List Char :=
  if c = '\x00' then ['\\', '0']
  else if c = '\t' then ['\\', 't']
  else if c = '\r' then ['\\', 'r']
  else if c = '\n' then ['\\', 'n']
  else if c = '\\' then ['\\', '\\']
  else if c = '"' then ['\\', '"']
  else if isVisible c then [c]
  else ['\\', 'u', '\x7b'] ++ hex c.toNat ++ ['\x7d']

def encode (s : String) : String :=
  String.ofList ('"' :: s.toList.flatMap encodeChar ++ ['"'])

def encodeList (ss : List String) : String :=
  "[" ++ ", ".intercalate (ss.map encode) ++ "]"

end ClassLocator.Text.Quoted
