import CodecChain.Text.Mark
import CodecChain.Text.Nonprinting

/-
  This file defines the quoted form of characters and texts
  that error messages show: what cannot be seen, or would be
  drawn over the quote, is written by its code point.

  Key definitions include:
    * `Quoted.escape`
    * `Quoted.char`
    * `Quoted.text`
-/

namespace CodecChain.Quoted

/- A character written by its code point in hexadecimal. -/
def codePoint (c : Char) : Text :=
  ['\\', 'u', '{'] ++ Nat.toDigits 16 c.toNat ++ ['}']

/-
  A character between quotes of the given kind. Only that
  quote needs a backslash, the other one stands for itself.
-/
def escape (quote c : Char) : Text :=
  if c = '\x00' then ['\\', '0']
  else if c = '\t' then ['\\', 't']
  else if c = '\n' then ['\\', 'n']
  else if c = '\r' then ['\\', 'r']
  else if c = '\\' then ['\\', '\\']
  else if c = quote then ['\\', c]
  else if Text.isMark c || Text.isNonprinting c then
    codePoint c
  else [c]

/- A character between single quotes. -/
def char (c : Char) : Text :=
  ['\''] ++ escape '\'' c ++ ['\'']

/- A text between double quotes. -/
def text (t : Text) : Text :=
  ['"'] ++ t.flatMap (escape '"') ++ ['"']

end CodecChain.Quoted
