import StoreClient.Text.Hex

/-!
# Quoted strings of JSON

A string is written between quotation marks. A quotation mark, a backslash and the control
characters below U+0020 are escaped, each in the shortest form that the notation has for it; every
other character stands for itself.
-/

namespace StoreClient.Quoted

/-- The form of a character between quotation marks. -/
def escape (c : Char) : List Char :=
  if c = '"' then ['\\', '"']
  else if c = '\\' then ['\\', '\\']
  else if c = '\x08' then ['\\', 'b']
  else if c = '\t' then ['\\', 't']
  else if c = '\n' then ['\\', 'n']
  else if c = '\x0c' then ['\\', 'f']
  else if c = '\r' then ['\\', 'r']
  else if c.toNat < 0x20 then '\\' :: 'u' :: Hex.fixed 4 c.toNat
  else [c]

/-- The quoted form of a text. -/
def encode (text : List Char) : List Char :=
  '"' :: (text.flatMap escape ++ ['"'])

end StoreClient.Quoted
