import SensorLink.Text.Visible

/-! Text in double quotes for a diagnosis, in which every character can be told. -/

namespace SensorLink.Text

/-- A code point in hexadecimal digits. -/
def codePoint (c : Char) : List Char := ['\\', 'u', '\x7b'] ++ Nat.toDigits 16 c.toNat ++ ['\x7d']

/-- NUL, tab, line breaks, the quote and the backslash have short forms; what does not show, or changes the
    character before it, is given by its code point. -/
def spell (c : Char) : List Char :=
  if c = '\x00' then ['\\', '0']
  else if c = '\t' then ['\\', 't']
  else if c = '\r' then ['\\', 'r']
  else if c = '\n' then ['\\', 'n']
  else if c = '\\' ∨ c = '"' then ['\\', c]
  else if isExtending c || isHidden c then codePoint c
  else [c]

def quoted (text : String) : String := String.ofList ('"' :: (text.toList.flatMap spell ++ ['"']))

end SensorLink.Text
