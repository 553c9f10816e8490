import CodecChain.Yaml.Character

/-
  This file defines the block scalars, which are lines below
  the mark that begins them. They are kept as they are, or
  those that are not indented further are joined.

  Key definitions include:
    * `Yaml.Block.Header`
    * `Yaml.Block.Line`
    * `Yaml.Block.leading?`
    * `Yaml.Block.lines?`
    * `Yaml.Block.text`
    * `Yaml.block?`
-/

namespace CodecChain.Yaml

namespace Block

------------------------------------------------------------
-- Headers
------------------------------------------------------------

/- What becomes of the line breaks at the end. -/
inductive Chomping where
  | strip
  | clip
  | keep
deriving DecidableEq, Repr

/- What follows the mark that begins a block scalar. -/
structure Header where
  chomping : Chomping
  width : Option Nat
deriving DecidableEq, Repr

/- A sign for the line breaks at the end, if there is one. -/
def chomping : Text → Option Chomping × Text
  | '-' :: rest => (some .strip, rest)
  | '+' :: rest => (some .keep, rest)
  | t => (none, t)

/- A digit for the indentation, if there is one. -/
def width? : Text → Option (Option Nat × Text)
  | [] => some (none, [])
  | c :: rest =>
      if c = '0' then none
      else if c.isDigit then
        some (some (c.toNat - '0'.toNat), rest)
      else some (none, c :: rest)

/- A header, in which the sign and the digit may swap. -/
def header? (t : Text) : Option (Header × Text) := do
  let (before, t) := chomping t
  let (width, t) ← width? t
  let (after, t) :=
    if before.isSome then (none, t) else chomping t
  let sign := (before <|> after).getD .clip
  pure ({ chomping := sign, width := width }, t)

------------------------------------------------------------
-- Lines
------------------------------------------------------------

/-
  A line of a block scalar: its text, its line break, if the
  text does not end with it, and the breaks of the empty
  lines after it.
-/
structure Line where
  text : Text
  ending : Text
  after : Text
deriving DecidableEq, Repr

/-
  What comes before a line with content: the line breaks, the
  greatest number of blanks on a line, that on the last, and
  the text with the content.
-/
structure Leading where
  breaks : Text
  widest : Nat
  width : Nat
  rest : Text
deriving DecidableEq, Repr

/-
  What a text begins with, in the given column. Blanks are
  indentation up to the limit, if there is one; in their
  place there must be no tabulator.
-/
def leading? (limit : Option Nat) :
    Nat → Text → Option Leading
  | column, [] =>
      some
        { breaks := [], widest := column, width := column,
          rest := [] }
  | column, c :: rest =>
      let isIndent := limit.all (column < ·)
      if c = ' ' && isIndent then
        leading? limit (column + 1) rest
      else if c = '\t' && isIndent then
        none
      else if isBreak c then do
        let next ← leading? limit 0 rest
        pure
          { next with
            breaks := c :: next.breaks
            widest := max column next.widest }
      else
        some
          { breaks := [], widest := column, width := column,
            rest := c :: rest }

/-
  The lines of a block scalar that are indented by just the
  given number of blanks, and the text after them.
-/
def lines?
    (width : Nat)
    (column : Nat)
    (t : Text) : Option (List Line × Text) :=
  if column ≠ width ∨ t = [] then
    some ([], t)
  else do
    let next ← leading? (some width) 0 (nextLine t)
    if next.rest.length < t.length then
      let (lines, rest) ← lines? width next.width next.rest
      let line : Line :=
        { text := t.takeWhile (!isBreak ·)
          ending := (t.dropWhile (!isBreak ·)).take 1
          after := next.breaks }
      pure (line :: lines, rest)
    else
      none
termination_by t.length

------------------------------------------------------------
-- Joining
------------------------------------------------------------

/- A line that is indented further. -/
def Line.isIndented (line : Line) : Bool :=
  line.text.head?.any isSpace

/- What stands between two lines. -/
def between (folded : Bool) (a b : Line) : Text :=
  if folded && a.ending = ['\n'] &&
      !a.isIndented && !b.isIndented then
    if a.after = [] then [' '] else a.after
  else
    a.ending ++ a.after

/- What stands after the last line. -/
def Line.last (line : Line) : Chomping → Text
  | .strip => []
  | .clip => line.ending
  | .keep => line.ending ++ line.after

/- The text of lines. -/
def join (folded : Bool) (sign : Chomping) : List Line → Text
  | [] => []
  | [line] => line.text ++ line.last sign
  | a :: b :: lines =>
      a.text ++ between folded a b ++
        join folded sign (b :: lines)

/- The text of lines after the breaks of empty lines. -/
def text
    (folded : Bool)
    (sign : Chomping)
    (breaks : Text)
    (lines : List Line) : Text :=
  if lines = [] then
    if sign = .keep then breaks else []
  else
    breaks ++ join folded sign lines

end Block

------------------------------------------------------------
-- Block Scalars
------------------------------------------------------------

/-
  The text of a block scalar after the mark that begins it,
  and the text after it. Its lines are indented by as many
  blanks as its first one, but more than what it is part of,
  if there is such a thing; or by the number that the header
  adds to that.
-/
def block?
    (folded : Bool)
    (parent : Option Nat)
    (t : Text) : Option (Text × Text) := do
  let (header, t) ← Block.header? t
  let t ← endOfLine? t
  let limit := header.width.map (parent.getD 0 + ·)
  let start ← Block.leading? limit 0 t
  let least := (parent.map (· + 1)).getD 1
  let width := limit.getD (max start.widest least)
  let (lines, rest) ← Block.lines? width start.width start.rest
  pure
    (Block.text folded header.chomping start.breaks lines, rest)

end CodecChain.Yaml
