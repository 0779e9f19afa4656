import HardwareIR.Text.Hex
import HardwareIR.Text.Unprintable

/-! # Quoted strings

String literals are printed between double quotes.  A backslash and a double quote get a backslash
before them, the four common control characters have a letter, every other character that cannot
be seen is written as its code point in hexadecimal, and all else stands for itself.

Quoted text therefore never holds a line break, whatever it quotes.
-/

namespace HardwareIR.Text

/-- How one character is written inside a quoted string. -/
def escape (c : Char) : List Char :=
  if c = '\x00' then ['\\', '0']
  else if c = '\t' then ['\\', 't']
  else if c = '\r' then ['\\', 'r']
  else if c = '\n' then ['\\', 'n']
  else if c = '\\' then ['\\', '\\']
  else if c = '"' then ['\\', '"']
  else if isUnprintable c then ['\\', 'u', '\x7b'] ++ hexDigits c.toNat ++ ['\x7d']
  else [c]

/-- `text` between double quotes. -/
def quote (text : String) : String :=
  String.ofList ('"' :: (text.toList.flatMap escape ++ ['"']))

end HardwareIR.Text
