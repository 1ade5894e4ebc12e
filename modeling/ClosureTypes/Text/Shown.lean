import ClosureTypes.Text.Quoted
import ClosureTypes.Text.Unprintable

/-!
# Text shown in a message

A text is shown between double quotes, on one line, so that every character of it can be seen:
quotes, backslashes and the usual control characters as short escapes, and all other characters
without a look of their own by their code points.
-/

namespace ClosureTypes.Text

/-- How one character of a text is shown. -/
def shownChar (c : Char) : List Char :=
  if c = '\x00' then ['\\', '0']
  else if c = '\t' then ['\\', 't']
  else if c = '\n' then ['\\', 'n']
  else if c = '\r' then ['\\', 'r']
  else if c = '"' then ['\\', '"']
  else if c = '\\' then ['\\', '\\']
  else if isUnprintable c then ['\\', 'u', '\x7b'] ++ hexDigits c.toNat ++ ['\x7d']
  else [c]

/-- How a text is shown. -/
def shown (s : String) : String := String.ofList ('"' :: (s.toList.flatMap shownChar ++ ['"']))

end ClosureTypes.Text
