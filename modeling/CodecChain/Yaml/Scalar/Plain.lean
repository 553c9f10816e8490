import CodecChain.Yaml.Folding

/-
  This file defines the plain scalars, which are words that
  end where a mark of structure begins.

  Key definitions include:
    * `Yaml.startsPlain`
    * `Yaml.endsWord`
    * `Yaml.endsPlain`
    * `Yaml.plain?`
-/

namespace CodecChain.Yaml

------------------------------------------------------------
-- Words
------------------------------------------------------------

/- The characters that mean something at a word's beginning. -/
def indicators : List Char :=
  [',', '[', ']', '\x7b', '\x7d', '#', '&', '*', '!', '|', '>',
   '\'', '"', '%', '@', '\x60']

/- The characters that mean something within brackets. -/
def flowMarks : List Char :=
  [',', '[', ']', '\x7b', '\x7d']

/-
  A text at the beginning of which a plain scalar stands. A
  mark of structure begins one only with a word after it.
-/
def startsPlain (inFlow : Bool) : Text → Bool
  | [] => false
  | c :: rest =>
      if c = '-' then !atGap rest
      else if c = '?' || c = ':' then !inFlow && !atGap rest
      else !isGap c && !indicators.contains c

/-
  A text at the beginning of which a word ends: at a colon
  before white space, and within brackets at a mark.
-/
def endsWord (inFlow : Bool) : Text → Bool
  | [] => true
  | c :: rest =>
      (c = ':' && atGap rest) ||
        (inFlow && flowMarks.contains c)

/- A colon that must not stand where it does in brackets. -/
def isStrayColon (inFlow : Bool) : Text → Bool
  | ':' :: c :: _ => inFlow && (c = '?' || flowMarks.contains c)
  | _ => false

------------------------------------------------------------
-- Lines
------------------------------------------------------------

/-
  The column after white space, the last character of which
  comes first, if a line has begun in it.
-/
def gapColumn? (gap : Text) : Option Nat :=
  if gap.any isBreak then
    some (gap.takeWhile (!isBreak ·)).length
  else
    none

/-
  White space after which a plain scalar does not go on with
  the given text. On a line of its own it goes on only if it
  is indented enough.
-/
def endsPlain
    (inFlow : Bool)
    (indent : Nat)
    (gap next : Text) : Bool :=
  let column := gapColumn? gap
  (gap ≠ [] && next.head? = some '#') ||
    (!inFlow && column.any (· < indent)) ||
    (column = some 0 && atMarker next)

/-
  The text of a plain scalar after some white space within it,
  and the text after the white space that ends it, with
  whether that begins a line. The last character of the white
  space so far comes first; a tabulator must not be where a
  line has to be indented by blanks.
-/
def plainFrom?
    (inFlow : Bool)
    (indent : Nat) :
    Text → Text → Option (Text × Text × Bool)
  | gap, [] => some ([], [], gap.any isBreak)
  | gap, c :: rest =>
      if c = '\t' && (gapColumn? gap).any (· < indent) then
        none
      else if isGap c then
        plainFrom? inFlow indent (c :: gap) rest
      else if endsPlain inFlow indent gap (c :: rest) then
        some ([], c :: rest, gap.any isBreak)
      else if isStrayColon inFlow (c :: rest) then
        none
      else if endsWord inFlow (c :: rest) then
        some ([], c :: rest, gap.any isBreak)
      else do
        let (t, rest, fresh) ← plainFrom? inFlow indent [] rest
        pure (foldGap gap.reverse ++ c :: t, rest, fresh)

/-
  A plain scalar with which a text begins, whose lines must be
  indented by the given number of blanks, and the text after
  the white space that ends it, with whether that begins a
  line.
-/
def plain?
    (inFlow : Bool)
    (indent : Nat)
    (t : Text) : Option (Text × Text × Bool) :=
  plainFrom? inFlow indent [] t

end CodecChain.Yaml
