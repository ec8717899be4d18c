import SpeechRelay.Text.Printable
import SpeechRelay.Text.Combining

/-!
# Quoted text

A text between double quotes, as messages show it: a quote and a backslash are written after a
backslash, five control characters by a letter or a digit, and every character that would not be
seen on its own by its number in braces.
-/

set_option autoImplicit false

namespace SpeechRelay.Text

/-- The number of a character in braces. -/
def numbered (c : Char) : List Char :=
  '\\' :: 'u' :: '\x7b' :: Nat.toDigits 16 c.toNat ++ ['\x7d']

/-- One character between the quotes. -/
def quotedChar (c : Char) : List Char :=
  if c = '\"' then ['\\', '\"']
  else if c = '\\' then ['\\', '\\']
  else if c = '\n' then ['\\', 'n']
  else if c = '\r' then ['\\', 'r']
  else if c = '\t' then ['\\', 't']
  else if c.toNat = 0 then ['\\', '0']
  else if isCombining c then numbered c
  else if isPrintable c then [c]
  else numbered c

/-- The text between double quotes. -/
def quoted (s : String) : String :=
  String.ofList ('\"' :: s.toList.flatMap quotedChar ++ ['\"'])

end SpeechRelay.Text
