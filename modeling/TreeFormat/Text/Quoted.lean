import TreeFormat.Text.Printable

/-!
# Quoted text for messages

A text in a message stands between double quotes.  Quotes, backslashes and the
usual control characters have short escapes, and every other character that
cannot be shown is written as its code point in hexadecimal digits between
braces.
-/

namespace TreeFormat.Text

/-- A character of a quoted text. -/
def quotedChar (c : Char) : List Char :=
  if c = '"' then ['\\', '"']
  else if c = '\\' then ['\\', '\\']
  else if c = '\n' then ['\\', 'n']
  else if c = '\r' then ['\\', 'r']
  else if c = '\t' then ['\\', 't']
  else if c = '\x00' then ['\\', '0']
  else if isPrintable c then [c]
  else '\\' :: 'u' :: '\x7b' :: (Nat.toDigits 16 c.toNat ++ ['\x7d'])

/-- A text between quotes. -/
def quoted (text : String) : String :=
  String.ofList ('"' :: (text.toList.flatMap quotedChar ++ ['"']))

end TreeFormat.Text
