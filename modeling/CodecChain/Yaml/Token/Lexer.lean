import CodecChain.Yaml.Scalar.Block
import CodecChain.Yaml.Scalar.Plain
import CodecChain.Yaml.Scalar.Quoted
import CodecChain.Yaml.Token.Label

/-
  This file defines the splitting of YAML text into tokens.
  A key is known to be one only by the colon after it, so the
  token that says so is put before it afterwards.

  Key definitions include:
    * `Yaml.Place`
    * `Yaml.Candidate`
    * `Yaml.Lexer`
    * `Yaml.Lexer.settle?`
    * `Yaml.Lexer.step?`
    * `Yaml.Lexer.run?`
    * `Yaml.tokens?`
-/

namespace CodecChain.Yaml

------------------------------------------------------------
-- Places
------------------------------------------------------------

/-
  A place in a text: the text from there on, the number of
  its line, that of characters before it on the line, and
  that of octets before it at all.
-/
structure Place where
  rest : Text
  line : Nat
  column : Nat
  offset : Nat
deriving DecidableEq, Repr

namespace Place

/- The place at the beginning of a text. -/
def start (t : Text) : Place :=
  { rest := t, line := 0, column := 0, offset := 0 }

/- The place after a character. -/
def after (p : Place) (c : Char) : Place :=
  let offset := p.offset + c.utf8Size
  if isBreak c then
    { p with line := p.line + 1, column := 0, offset := offset }
  else
    { p with column := p.column + 1, offset := offset }

/- The place at which the given rest of the text begins. -/
def moveTo (p : Place) (rest : Text) : Place :=
  let passed := p.rest.take (p.rest.length - rest.length)
  { passed.foldl after p with rest := rest }

end Place

------------------------------------------------------------
-- Lexers
------------------------------------------------------------

/-
  A token that may turn out to begin a key: where it stands,
  how many tokens are before it, and whether it has to be a
  key.
-/
structure Candidate where
  line : Nat
  column : Nat
  offset : Nat
  count : Nat
  isRequired : Bool
deriving DecidableEq, Repr

/-
  The state between two tokens: the place, the tokens so far,
  the last one first, the columns of the collections on lines
  that are open, the innermost first, the candidate for a key
  within the brackets that are open, those outside of them,
  and whether a key may begin.
-/
structure Lexer where
  place : Place
  tokens : List Token
  columns : List Nat
  candidate : Option Candidate
  outer : List (Option Candidate)
  admitsKey : Bool
deriving DecidableEq, Repr

namespace Lexer

/- The state at the beginning of a text. -/
def start (t : Text) : Lexer where
  place := .start t
  tokens := []
  columns := []
  candidate := none
  outer := []
  admitsKey := true

/- The place is within brackets. -/
def inFlow (s : Lexer) : Bool :=
  !s.outer.isEmpty

/- The state at the given rest of the text. -/
def moveTo (s : Lexer) (rest : Text) : Lexer :=
  { s with place := s.place.moveTo rest }

/- The state after a token, at the given rest of the text. -/
def emit (s : Lexer) (token : Token) (rest : Text) : Lexer :=
  { s.moveTo rest with tokens := token :: s.tokens }

/- The state with a token after the given number of others. -/
def insert (s : Lexer) (count : Nat) (token : Token) : Lexer :=
  let later := s.tokens.length - count
  { s with
    tokens := s.tokens.take later ++
      token :: s.tokens.drop later }

------------------------------------------------------------
-- Collections on Lines
------------------------------------------------------------

/-
  The state without the collections on lines whose columns
  are not to be kept. Brackets keep them all.
-/
def close (s : Lexer) (isKept : Nat → Bool) : Lexer :=
  if s.inFlow then
    s
  else
    let closed := s.columns.takeWhile (!isKept ·)
    { s with
      tokens := closed.map (fun _ => .blockEnd) ++ s.tokens
      columns := s.columns.drop closed.length }

/- The state without any collections on lines. -/
def closeAll (s : Lexer) : Lexer :=
  s.close fun _ => false

/-
  The state with a collection on lines that is begun in a
  column, by a token after a number of others, if the column
  is further in than those of all that are open.
-/
def openAt
    (s : Lexer)
    (column count : Nat)
    (token : Token) : Lexer :=
  if s.inFlow || !s.columns.head?.all (· < column) then
    s
  else
    { s.insert count token with columns := column :: s.columns }

/- The same at the place where the state is. -/
def openHere (s : Lexer) (token : Token) : Lexer :=
  s.openAt s.place.column s.tokens.length token

------------------------------------------------------------
-- Candidates
------------------------------------------------------------

/- The state without a candidate, which must not be required. -/
def forget? (s : Lexer) : Option Lexer :=
  if s.candidate.any (·.isRequired) then
    none
  else
    some { s with candidate := none }

/-
  The state in which the next token is a candidate, if a key
  may begin. Where a collection on lines goes on, it has to.
-/
def consider? (s : Lexer) : Option Lexer :=
  if s.admitsKey then do
    let s ← s.forget?
    let candidate : Candidate :=
      { line := s.place.line
        column := s.place.column
        offset := s.place.offset
        count := s.tokens.length
        isRequired :=
          !s.inFlow && s.columns.head? = some s.place.column }
    pure { s with candidate := some candidate }
  else
    some s

/- A key is on one line and not longer than this. -/
def keyLimit : Nat := 1024

/-
  A candidate at a later place, where it is none any more if
  the place is on another line or too far away. A required
  one must not be lost.
-/
def review?
    (p : Place) :
    Option Candidate → Option (Option Candidate)
  | none => some none
  | some c =>
      if c.line < p.line || c.offset + keyLimit < p.offset then
        if c.isRequired then none else some none
      else
        some (some c)

------------------------------------------------------------
-- White Space
------------------------------------------------------------

/-
  The text after white space and comments, and whether a key
  may begin there. A new line admits keys outside of brackets;
  where it does, there must be no tabulators before them. The
  mark of byte order may begin a line.
-/
def skipGap (inFlow : Bool) :
    (admitsKey atStart inComment : Bool) → Text → Text × Bool
  | admitsKey, _, _, [] => ([], admitsKey)
  | admitsKey, atStart, inComment, c :: rest =>
      if isBreak c then
        skipGap inFlow (admitsKey || !inFlow) true false rest
      else if inComment || c = '#' then
        skipGap inFlow admitsKey false true rest
      else if c = ' ' || (c = '\t' && (inFlow || !admitsKey)) ||
          (c = '\ufeff' && atStart) then
        skipGap inFlow admitsKey false false rest
      else
        (c :: rest, admitsKey)

/-
  The state at the next token, or at the end of the text. The
  candidates are reviewed there, and collections on lines end
  that are further in.
-/
def settle? (s : Lexer) : Option Lexer := do
  let (rest, admitsKey) :=
    skipGap s.inFlow s.admitsKey (s.place.column = 0) false
      s.place.rest
  let s := s.moveTo rest
  let candidate ← review? s.place s.candidate
  let outer ← s.outer.mapM (review? s.place)
  let s :=
    { s with
      candidate := candidate
      outer := outer
      admitsKey := admitsKey }
  pure (s.close (· ≤ s.place.column))

------------------------------------------------------------
-- Tokens
------------------------------------------------------------

/- After a directive. -/
def directive? (s : Lexer) (rest : Text) : Option Lexer := do
  let s ← s.closeAll.forget?
  let (token, rest) ← Yaml.directive? rest
  pure ({ s with admitsKey := false }.emit token rest)

/- After a mark between documents. -/
def marker?
    (s : Lexer)
    (token : Token)
    (rest : Text) : Option Lexer := do
  let s ← s.closeAll.forget?
  pure ({ s with admitsKey := false }.emit token rest)

/- After a bracket that opens. -/
def open?
    (s : Lexer)
    (token : Token)
    (rest : Text) : Option Lexer := do
  let s ← s.consider?
  let s :=
    { s with
      candidate := none
      outer := s.candidate :: s.outer
      admitsKey := true }
  pure (s.emit token rest)

/- After a bracket that closes. -/
def shut?
    (s : Lexer)
    (token : Token)
    (rest : Text) : Option Lexer := do
  let s ← s.forget?
  let s :=
    { s with
      candidate := s.outer.head?.join
      outer := s.outer.tail
      admitsKey := false }
  pure (s.emit token rest)

/- After a comma within brackets. -/
def comma? (s : Lexer) (rest : Text) : Option Lexer := do
  let s ← s.forget?
  pure ({ s with admitsKey := true }.emit .comma rest)

/- After the mark before an item. -/
def item? (s : Lexer) (rest : Text) : Option Lexer :=
  if s.inFlow || s.admitsKey then do
    let s ← (s.openHere .sequenceBlock).forget?
    pure ({ s with admitsKey := true }.emit .item rest)
  else
    none

/- After the mark before a key. -/
def key? (s : Lexer) (rest : Text) : Option Lexer :=
  if s.inFlow || s.admitsKey then do
    let s ← (s.openHere .mappingBlock).forget?
    pure ({ s with admitsKey := !s.inFlow }.emit .key rest)
  else
    none

/-
  After the mark before a value. The candidate, if there is
  one, is a key; a mapping on lines begins with it, if it is
  the first one.
-/
def value? (s : Lexer) (rest : Text) : Option Lexer :=
  match s.candidate with
  | some c =>
      let s :=
        (s.insert c.count .key).openAt c.column c.count
          .mappingBlock
      let s := { s with candidate := none, admitsKey := false }
      some (s.emit .value rest)
  | none =>
      if s.inFlow || s.admitsKey then
        let s := s.openHere .mappingBlock
        some ({ s with admitsKey := !s.inFlow }.emit .value rest)
      else
        none

/- After a label or a scalar on which a key can end. -/
def word?
    (s : Lexer)
    (read : Option (Token × Text)) : Option Lexer := do
  let s ← s.consider?
  let (token, rest) ← read
  pure ({ s with admitsKey := false }.emit token rest)

/- After a scalar in quotes. -/
def quoted?
    (s : Lexer)
    (style : Style)
    (read : Option (List Piece × Text)) : Option Lexer :=
  s.word? (read.map fun (pieces, rest) =>
    (.scalar style (fold pieces), rest))

/- After a block scalar. -/
def block?
    (s : Lexer)
    (style : Style)
    (rest : Text) : Option Lexer := do
  let s ← s.forget?
  let (t, rest) ←
    Yaml.block? (style = .folded) s.columns.head? rest
  pure ({ s with admitsKey := true }.emit (.scalar style t) rest)

/- After a plain scalar. -/
def plain? (s : Lexer) : Option Lexer := do
  let s ← s.consider?
  let indent := (s.columns.head?.map (· + 1)).getD 0
  let (t, rest, fresh) ←
    Yaml.plain? s.inFlow indent s.place.rest
  pure ({ s with admitsKey := fresh }.emit (.scalar .plain t) rest)

/- After the token of which this is the first character. -/
def mark?
    (s : Lexer)
    (c : Char)
    (rest : Text) : Option Lexer :=
  let opens := s.inFlow || atGap rest
  match c with
  | '[' => s.open? .sequenceOpen rest
  | '\x7b' => s.open? .mappingOpen rest
  | ']' => s.shut? .sequenceClose rest
  | '\x7d' => s.shut? .mappingClose rest
  | ',' => s.comma? rest
  | '-' => if atGap rest then s.item? rest else s.plain?
  | '?' => if opens then s.key? rest else s.plain?
  | ':' => if opens then s.value? rest else s.plain?
  | '*' =>
      s.word? ((anchorName? rest).map fun (name, rest) =>
        (.alias name, rest))
  | '&' =>
      s.word? ((anchorName? rest).map fun (name, rest) =>
        (.anchor name, rest))
  | '!' => s.word? (tag? s.inFlow rest)
  | '|' => if s.inFlow then none else s.block? .literal rest
  | '>' => if s.inFlow then none else s.block? .folded rest
  | '\'' => s.quoted? .single (single? rest)
  | '"' => s.quoted? .double (double? rest)
  | _ =>
      if startsPlain s.inFlow (c :: rest) then s.plain? else none

/- After the token that begins where the state is. -/
def step? (s : Lexer) : Option Lexer :=
  match s.place.rest with
  | [] => none
  | c :: rest =>
      let t := c :: rest
      if s.place.column = 0 ∧ c = '%' then
        s.directive? rest
      else if s.place.column = 0 ∧ isMarker '-' t then
        s.marker? .documentStart (t.drop 3)
      else if s.place.column = 0 ∧ isMarker '.' t then
        s.marker? .documentEnd (t.drop 3)
      else
        s.mark? c rest

------------------------------------------------------------
-- Runs
------------------------------------------------------------

/- All tokens, the last one first. -/
def run? (s : Lexer) : Option (List Token) := do
  let here ← s.settle?
  if here.place.rest = [] then
    let last ← here.closeAll.forget?
    pure last.tokens
  else
    let next ← here.step?
    if next.place.rest.length < s.place.rest.length then
      run? next
    else
      none
termination_by s.place.rest.length

end Lexer

/- The tokens of a text. -/
def tokens? (t : Text) : Option (List Token) :=
  if t.all isAllowed then
    (Lexer.start (normalize t)).run?.map List.reverse
  else
    none

end CodecChain.Yaml
