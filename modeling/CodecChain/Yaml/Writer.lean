import CodecChain.Yaml.Scalar.Meaning
import CodecChain.Yaml.Scalar.Plain
import CodecChain.Yaml.Token.Basic

/-
  This file defines the writing of scalars as YAML text: as a
  plain word where that is read back as it is, else in single
  quotes, or in double quotes where characters have to be
  spelled out. Text of several lines is written as such.

  Key definitions include:
    * `Yaml.isPrintable`
    * `Yaml.preferredStyle`
    * `Yaml.possibleStyle`
    * `Yaml.writeAs`
    * `Yaml.writeScalar`
    * `Yaml.writeEntry`
-/

namespace CodecChain.Yaml

------------------------------------------------------------
-- Characters
------------------------------------------------------------

/- A character that can stand for itself within double quotes. -/
def isPrintable (c : Char) : Bool :=
  isAllowed c && c ≠ '\t' && c ≠ '\r' && c ≠ '\x85' &&
    c ≠ '\ufeff' && !isBreak c

/- The digits of a number in hexadecimal of a given width. -/
def hexDigits (width n : Nat) : Text :=
  let digits := (Nat.toDigits 16 n).map Char.toUpper
  List.replicate (width - digits.length) '0' ++ digits

/- The letters that characters have after a backslash. -/
def letters : List (Char × Char) :=
  [('\x00', '0'), ('\x07', 'a'), ('\x08', 'b'), ('\t', 't'),
   ('\n', 'n'), ('\x0b', 'v'), ('\x0c', 'f'), ('\r', 'r'),
   ('\x1b', 'e'), ('"', '"'), ('\\', '\\'), ('\x85', 'N'),
   ('\u2028', 'L'), ('\u2029', 'P')]

/- A character within double quotes. -/
def escape (c : Char) : Text :=
  match letters.find? fun entry => entry.1 = c with
  | some (_, letter) => ['\\', letter]
  | none =>
      if isPrintable c then [c]
      else if c.toNat < 0x100 then
        ['\\', 'x'] ++ hexDigits 2 c.toNat
      else if c.toNat < 0x10000 then
        ['\\', 'u'] ++ hexDigits 4 c.toNat
      else
        ['\\', 'U'] ++ hexDigits 8 c.toNat

------------------------------------------------------------
-- Styles
------------------------------------------------------------

/- The style that a text is to have, if that is possible. -/
def preferredStyle (t : Text) : Style :=
  if t.contains '\n' then .literal
  else if isMeaningful t then .single
  else .plain

/- Somewhere a blank is next to a line break, in this order. -/
def hasPair (first second : Char → Bool) : Text → Bool
  | a :: b :: rest =>
      (first a && second b) || hasPair first second (b :: rest)
  | _ => false

/- A blank. -/
def isBlank (c : Char) : Bool :=
  c = ' '

/- All characters of a text stand for themselves in quotes. -/
def isReadable (t : Text) : Bool :=
  t.all fun c => isPrintable c || isBreak c

/- A text that can be written as lines. -/
def canBeLiteral (t : Text) : Bool :=
  isReadable t && t ≠ [] && t.getLast? ≠ some ' ' &&
    !hasPair isBlank isBreak t

/- A text that can be written in single quotes. -/
def canBeSingle (t : Text) : Bool :=
  isReadable t && !hasPair isBlank isBreak t &&
    !hasPair isBreak isBlank t

/- A text that looks like the beginning or end of a document. -/
def looksLikeMarker (t : Text) : Bool :=
  ['-', '-', '-'].isPrefixOf t || ['.', '.', '.'].isPrefixOf t

/- No mark within a text ends a plain scalar. -/
def isUnbroken : Text → Bool
  | [] => true
  | c :: rest =>
      !(c = ':' && atGap rest) &&
        !(isSpace c && rest.head? = some '#') && isUnbroken rest

/- A text that can be written as it is. -/
def canBePlain (t : Text) : Bool :=
  t.all isPrintable && startsPlain false t && isUnbroken t &&
    t.getLast? ≠ some ' ' && !looksLikeMarker t

/- The style that a text has where it should have another. -/
def possibleStyle (t : Text) : Style → Style
  | .plain =>
      if canBePlain t then .plain
      else if canBeSingle t then .single
      else .double
  | .single => if canBeSingle t then .single else .double
  | .literal => if canBeLiteral t then .literal else .double
  | style => style

------------------------------------------------------------
-- Quotes
------------------------------------------------------------

/- The blanks at the beginning of lines but the first. -/
def margin : Text :=
  [' ', ' ']

/-
  The characters of a text within single quotes, at the
  beginning of a line or not. Quotes are written twice.
-/
def singleLines : Bool → Text → Text
  | atStart, [] => if atStart then margin else []
  | atStart, c :: rest =>
      if isBreak c then
        c :: singleLines true rest
      else
        (if atStart then margin else []) ++
          (if c = '\'' then ['\'', '\''] else [c]) ++
          singleLines false rest

/- A text in single quotes. -/
def writeSingle (t : Text) : Text :=
  ['\''] ++ singleLines false t ++ ['\'']

/- A text in double quotes. -/
def writeDouble (t : Text) : Text :=
  ['"'] ++ t.flatMap escape ++ ['"']

------------------------------------------------------------
-- Lines
------------------------------------------------------------

/- The lines of a text, at the beginning of one or not. -/
def literalLines : Bool → Text → Text
  | _, [] => []
  | atStart, c :: rest =>
      if isBreak c then
        c :: literalLines true rest
      else
        (if atStart then margin else []) ++
          c :: literalLines false rest

/- The width of the margin, if the first line hides it. -/
def marginHint (t : Text) : Text :=
  if t.head?.any fun c => isBlank c || isBreak c then
    Nat.toDigits 10 margin.length
  else
    []

/- The sign for the line breaks at the end. -/
def chompingHint (t : Text) : Text :=
  match t.reverse with
  | a :: b :: _ =>
      if !isBreak a then ['-'] else if isBreak b then ['+'] else []
  | [a] => if isBreak a then ['+'] else ['-']
  | [] => ['-']

/- A text as lines. -/
def writeLiteral (t : Text) : Text :=
  ['|'] ++ marginHint t ++ chompingHint t ++ ['\n'] ++
    literalLines true t

------------------------------------------------------------
-- Scalars
------------------------------------------------------------

/- A text in a style. -/
def writeAs (t : Text) : Style → Text
  | .plain => t
  | .single => writeSingle t
  | .literal => writeLiteral t
  | _ => writeDouble t

/- A text in quotes, single ones if that is possible. -/
def writeQuoted (t : Text) : Text :=
  writeAs t (possibleStyle t .single)

/- A text as a scalar. -/
def writeScalar (t : Text) : Text :=
  writeAs t (possibleStyle t (preferredStyle t))

/- The line of a key and its value, which may end it itself. -/
def writeEntry (key value : Text) : Text :=
  let ending := if value.getLast?.any isBreak then [] else ['\n']
  key ++ [':', ' '] ++ value ++ ending

end CodecChain.Yaml
