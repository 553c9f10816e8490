import CodecChain.Text.Basic

/-
  This file defines the characters of YAML text: which it
  admits, which break lines, and which set words apart.

  Key definitions include:
    * `Yaml.isAllowed`
    * `Yaml.normalize`
    * `Yaml.isBreak`
    * `Yaml.isGap`
    * `Yaml.atGap`
    * `Yaml.atMarker`
    * `Yaml.endOfLine?`
-/

namespace CodecChain.Yaml

------------------------------------------------------------
-- Characters
------------------------------------------------------------

/- The characters that may occur at all. -/
def isAllowed (c : Char) : Bool :=
  let n := c.toNat
  n = 0x09 || n = 0x0a || n = 0x0d || n = 0x85 ||
    (0x20 ≤ n && n ≤ 0x7e) || (0xa0 ≤ n && n ≤ 0xfffd) ||
    0x10000 ≤ n

/-
  A text in which line feeds stand for all line breaks but
  the two that always stay what they are: the separators of
  lines and of paragraphs.
-/
def normalize : Text → Text
  | [] => []
  | '\r' :: '\n' :: rest => '\n' :: normalize rest
  | c :: rest =>
      (if c = '\r' || c = '\x85' then '\n' else c) ::
        normalize rest

/- The characters that break the lines of such a text. -/
def isBreak (c : Char) : Bool :=
  c = '\n' || c = '\u2028' || c = '\u2029'

/- A blank or a tabulator. -/
def isSpace (c : Char) : Bool :=
  c = ' ' || c = '\t'

/- White space of either kind. -/
def isGap (c : Char) : Bool :=
  isSpace c || isBreak c

/- The characters of the names of anchors and directives. -/
def isNameChar (c : Char) : Bool :=
  c.isAlphanum || c = '_' || c = '-'

------------------------------------------------------------
-- Places
------------------------------------------------------------

/- A text at the beginning of which a word can end. -/
def atGap : Text → Bool
  | [] => true
  | c :: _ => isGap c

/- A line that begins with the given mark three times. -/
def isMarker (c : Char) (t : Text) : Bool :=
  [c, c, c].isPrefixOf t && atGap (t.drop 3)

/- A line that begins or ends a document. -/
def atMarker (t : Text) : Bool :=
  isMarker '-' t || isMarker '.' t

/- A text without the spaces it begins with. -/
def skipSpaces (t : Text) : Text :=
  t.dropWhile isSpace

/- The text after the line with which a text begins. -/
def nextLine (t : Text) : Text :=
  (t.dropWhile (!isBreak ·)).drop 1

/- The text after a line that has no content left. -/
def endOfLine? (t : Text) : Option Text :=
  match skipSpaces t with
  | [] => some []
  | c :: rest =>
      if c = '#' || isBreak c then
        some (nextLine (c :: rest))
      else
        none

------------------------------------------------------------
-- Hexadecimal Numbers
------------------------------------------------------------

/- The number that hexadecimal digits stand for. -/
def hexNumber? (digits : Text) : Option Nat :=
  digits.foldlM
    (fun n c =>
      let d := c.toNat
      if '0'.toNat ≤ d ∧ d ≤ '9'.toNat then
        some (n * 16 + (d - '0'.toNat))
      else if 'a'.toNat ≤ d ∧ d ≤ 'f'.toNat then
        some (n * 16 + (d - 'a'.toNat + 10))
      else if 'A'.toNat ≤ d ∧ d ≤ 'F'.toNat then
        some (n * 16 + (d - 'A'.toNat + 10))
      else
        none) 0

end CodecChain.Yaml
