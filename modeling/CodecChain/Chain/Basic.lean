import CodecChain.Chain.Token
import CodecChain.Text.Blank

/-
  This file defines instruction chains and their reading from
  a text, and the chain that undoes a chain.

  Key definitions include:
    * `Chain`
    * `Chain.tokensOf`
    * `Chain.parse`
    * `Chain.inverted`

  Main statements:
    * `Chain.tokens_of_parse`: the tokens of a chain are read
      from the pieces of its text.
    * `Chain.tokens_ne_nil_of_parse`: a chain has tokens.
-/

namespace CodecChain

------------------------------------------------------------
-- Chains
------------------------------------------------------------

/-
  A chain of tokens, with the text it was read from. The
  positions of the tokens count from one.
-/
@[ext]
structure Chain where
  separator : Char
  source : Text
  tokens : List Token
  positions :
    tokens.map Token.position = List.range' 1 tokens.length := by
      rfl
deriving DecidableEq, Repr

namespace Chain

/- The separator where none is set. -/
def defaultSeparator : Char :=
  '-'

/- Why a text is no chain. -/
inductive Fault where
  | empty
deriving DecidableEq, Repr

/- The cause in words. -/
def Fault.message : Fault → String
  | empty => "instruction chain is empty"

/-
  The tokens of pieces of a text. Each piece is read without
  the blanks around it, and has the position after the one
  before.
-/
def tokensOf (first : Nat) (pieces : List Text) : List Token :=
  (pieces.zipIdx first).map fun (piece, position) =>
    Token.read position (Text.trim piece)

theorem positions_tokensOf
    (first : Nat)
    (pieces : List Text) :
    (tokensOf first pieces).map Token.position =
      List.range' first pieces.length := by
  rw [tokensOf, List.map_map, ← List.zipIdx_map_snd]
  apply List.map_congr_left
  intro piece _
  exact Token.position_read _ _

theorem length_tokensOf
    (first : Nat)
    (pieces : List Text) :
    (tokensOf first pieces).length = pieces.length := by
  rw [tokensOf, List.length_map, List.length_zipIdx]

/- The chain of a text that is cut into pieces. -/
def ofPieces
    (separator : Char)
    (source : Text)
    (pieces : List Text) : Chain where
  separator := separator
  source := source
  tokens := tokensOf 1 pieces
  positions := by
    rw [positions_tokensOf, length_tokensOf]

/-
  The chain of a text: the text without the blanks around it
  is cut at the separator. A text of blanks alone is no chain.
-/
def parse
    (separator : Char)
    (input : Text) : Except Fault Chain :=
  let source := Text.trim input
  if source.isEmpty then
    .error .empty
  else
    .ok (ofPieces separator source (Text.split separator source))

/- The instructions of a chain in order. -/
def instructions (chain : Chain) : List Instruction :=
  chain.tokens.filterMap Token.instruction?

/- The tokens that are no instructions in order. -/
def rejected (chain : Chain) : List Token :=
  chain.tokens.filter Token.isRejected

/- A chain that asks for a value from outside. -/
def hasProtection (chain : Chain) : Bool :=
  chain.instructions.contains .protect

theorem tokens_of_parse
    {separator : Char}
    {input : Text}
    {chain : Chain}
    (h : parse separator input = .ok chain) :
    chain.tokens =
      tokensOf 1 (Text.split chain.separator chain.source) := by
  unfold parse at h
  dsimp only at h
  split at h
  · simp at h
  · simp only [Except.ok.injEq] at h
    subst h
    rfl

theorem tokens_ne_nil_of_parse
    {separator : Char}
    {input : Text}
    {chain : Chain}
    (h : parse separator input = .ok chain) :
    chain.tokens ≠ [] := by
  intro hNone
  have hLength := congrArg List.length hNone
  rw [tokens_of_parse h, length_tokensOf] at hLength
  exact Text.split_ne_nil chain.separator chain.source
    (List.length_eq_zero_iff.mp hLength)

------------------------------------------------------------
-- Inversion
------------------------------------------------------------

/-
  The text that undoes a token. A rejected token does nothing
  and stays as it is.
-/
def invertedToken : Token → Text
  | .accepted _ _ instruction => instruction.inverse.text
  | .rejected _ raw _ => raw

/- The text that undoes a chain, token by token from the end. -/
def inverted (chain : Chain) : Text :=
  Text.join chain.separator
    (chain.tokens.reverse.map invertedToken)

end Chain

end CodecChain
