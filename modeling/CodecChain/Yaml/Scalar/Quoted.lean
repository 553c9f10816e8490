import CodecChain.Yaml.Folding

/-
  This file defines the scalars in quotes. Characters within
  single quotes stand for themselves, within double quotes
  they can be spelled out after a backslash.

  Key definitions include:
    * `Yaml.Piece`
    * `Yaml.fold`
    * `Yaml.single?`
    * `Yaml.double?`
-/

namespace CodecChain.Yaml

------------------------------------------------------------
-- Pieces
------------------------------------------------------------

/-
  A piece of a quoted scalar: a character as it stands, which
  may be part of a line break, one that was spelled out, or a
  line break that was taken away.
-/
inductive Piece where
  | raw (c : Char)
  | fixed (c : Char)
  | join
deriving DecidableEq, Repr

/-
  What white space comes to that may begin with a line break
  that was taken away; the breaks after it all count.
-/
def pieceGap (joined : Bool) (gap : Text) : Text :=
  if joined then gap.filter isBreak else foldGap gap

/- The text of pieces, after the white space just before. -/
def foldAfter : Bool → Text → List Piece → Text
  | joined, gap, [] => pieceGap joined gap.reverse
  | joined, gap, .raw c :: pieces =>
      if isGap c then
        foldAfter joined (c :: gap) pieces
      else
        pieceGap joined gap.reverse ++
          c :: foldAfter false [] pieces
  | joined, gap, .fixed c :: pieces =>
      pieceGap joined gap.reverse ++
        c :: foldAfter false [] pieces
  | joined, gap, .join :: pieces =>
      pieceGap joined gap.reverse ++ foldAfter true [] pieces

/- The text of pieces. -/
def fold (pieces : List Piece) : Text :=
  foldAfter false [] pieces

------------------------------------------------------------
-- Single Quotes
------------------------------------------------------------

/- A line break after which the line sets documents apart. -/
def breaksOff (c : Char) (rest : Text) : Bool :=
  isBreak c && atMarker rest

/-
  The pieces up to the single quote that ends a scalar, and
  the text after it. A quote written twice is one quote.
-/
def single? : Text → Option (List Piece × Text)
  | [] => none
  | '\'' :: '\'' :: rest => do
      let (pieces, rest) ← single? rest
      pure (.fixed '\'' :: pieces, rest)
  | '\'' :: rest => some ([], rest)
  | c :: rest =>
      if breaksOff c rest then
        none
      else do
        let (pieces, rest) ← single? rest
        pure (.raw c :: pieces, rest)

------------------------------------------------------------
-- Double Quotes
------------------------------------------------------------

/- The piece of a character given by its code point. -/
def codePoint? (digits : Text) : Option Piece := do
  let n ← hexNumber? digits
  if n.isValidChar then
    some (.fixed (Char.ofNat n))
  else
    none

/- The character that a letter after a backslash stands for. -/
def unescape (c : Char) : Option Char :=
  match c with
  | '0' => some '\x00'
  | 'a' => some '\x07'
  | 'b' => some '\x08'
  | 't' => some '\t'
  | '\t' => some '\t'
  | 'n' => some '\n'
  | 'v' => some '\x0b'
  | 'f' => some '\x0c'
  | 'r' => some '\r'
  | 'e' => some '\x1b'
  | ' ' => some ' '
  | '"' => some '"'
  | '/' => some '/'
  | '\\' => some '\\'
  | 'N' => some '\x85'
  | '_' => some '\xa0'
  | 'L' => some '\u2028'
  | 'P' => some '\u2029'
  | _ => none

/- The piece that a character after a backslash makes. -/
def escaped? (c : Char) (rest : Text) : Option Piece :=
  if breaksOff c rest then none
  else if isBreak c then some .join
  else (unescape c).map .fixed

/-
  The pieces up to the double quote that ends a scalar, and
  the text after it.
-/
def double? : Text → Option (List Piece × Text)
  | [] => none
  | '"' :: rest => some ([], rest)
  | '\\' :: 'x' :: a :: b :: rest => do
      let piece ← codePoint? [a, b]
      let (pieces, rest) ← double? rest
      pure (piece :: pieces, rest)
  | '\\' :: 'u' :: a :: b :: c :: d :: rest => do
      let piece ← codePoint? [a, b, c, d]
      let (pieces, rest) ← double? rest
      pure (piece :: pieces, rest)
  | '\\' :: 'U' :: a :: b :: c :: d :: e :: f :: g :: h :: rest => do
      let piece ← codePoint? [a, b, c, d, e, f, g, h]
      let (pieces, rest) ← double? rest
      pure (piece :: pieces, rest)
  | '\\' :: c :: rest => do
      let piece ← escaped? c rest
      let (pieces, rest) ← double? rest
      pure (piece :: pieces, rest)
  | c :: rest =>
      if c = '\\' || breaksOff c rest then
        none
      else do
        let (pieces, rest) ← double? rest
        pure (.raw c :: pieces, rest)

end CodecChain.Yaml
