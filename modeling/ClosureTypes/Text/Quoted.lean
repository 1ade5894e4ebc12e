/-!
# Written text and numbers

Numbers are written to base sixteen, with small letters and no leading zeros.

A text is quoted the way strings are written in JSON: between double quotes, with the quote, the
backslash and the control characters below U+0020 escaped and every other character as it is.
Control characters with a short escape take it, the others are written with four hexadecimal
digits.
-/

namespace ClosureTypes.Text

/-- The hexadecimal digits of `n`, most significant first. -/
def hexDigits (n : Nat) : List Char := Nat.toDigits 16 n

/-- The number `n` in hexadecimal with its marker `0x`. -/
def hex (n : Nat) : String := "0x" ++ String.ofList (hexDigits n)

/-- The written form of one character between quotes. -/
def quotedChar (c : Char) : List Char :=
  if c = '"' then ['\\', '"']
  else if c = '\\' then ['\\', '\\']
  else if c = '\x08' then ['\\', 'b']
  else if c = '\x0c' then ['\\', 'f']
  else if c = '\n' then ['\\', 'n']
  else if c = '\r' then ['\\', 'r']
  else if c = '\t' then ['\\', 't']
  else if c.toNat < 0x20 then
    ['\\', 'u', '0', '0', Nat.digitChar (c.toNat / 16), Nat.digitChar (c.toNat % 16)]
  else [c]

/-- The written form of a text, with its quotes. -/
def quotedChars (cs : List Char) : List Char := '"' :: (cs.flatMap quotedChar ++ ['"'])

/-- The written form of a text, with its quotes. -/
def quote (s : String) : String := String.ofList (quotedChars s.toList)

end ClosureTypes.Text
