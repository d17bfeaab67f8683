import JackToVm.Text.GraphemeExtend
import JackToVm.Text.Unprintable

/-!
# Quoted text

A text between double quotes in which the quote, the backslash, and every
character that would not show as itself are written as escapes: control
characters, unprintable characters, and those that would join the character
before them. Everything else stands for itself, also the apostrophe.
-/

namespace JackToVm.Text.Quoted

/-- A code point in lower case hexadecimal digits between braces. -/
def codePoint (c : Char) : List Char :=
  '\\' :: 'u' :: '\x7b' :: (Nat.toDigits 16 c.toNat ++ ['\x7d'])

/-- Whether a character shows as itself wherever it stands in a text. -/
def standsAlone (c : Char) : Bool :=
  if c.toNat < 0x80 then
    0x20 ≤ c.toNat && c.toNat != 0x7F
  else
    !unprintable.contains c && !graphemeExtend.contains c

/-- One character as it stands between the quotes. -/
def encodeChar (c : Char) : List Char :=
  if c = '\x00' then ['\\', '0']
  else if c = '\t' then ['\\', 't']
  else if c = '\n' then ['\\', 'n']
  else if c = '\r' then ['\\', 'r']
  else if c = '"' then ['\\', '"']
  else if c = '\\' then ['\\', '\\']
  else if standsAlone c then [c]
  else codePoint c

/-- A text between quotes, with escapes. -/
def encode (text : String) : String :=
  "\"" ++ String.ofList (text.toList.flatMap encodeChar) ++ "\""

end JackToVm.Text.Quoted
