import CodecChain.Chain.Operation

/-
  This file defines the tokens of an instruction chain. A
  token that is no instruction is kept with the cause of its
  rejection, so that a chain can be shown as it was written.

  Key definitions include:
    * `Instruction`
    * `Rejection`
    * `Token`
    * `Token.read`

  Main statements:
    * `Token.position_read`: a token keeps its position.
    * `Token.raw_read`: a token keeps its text.
-/

namespace CodecChain

------------------------------------------------------------
-- Instructions
------------------------------------------------------------

/-
  An instruction encodes or decodes the content with the
  codec of a tag, or replaces it by a value from outside.
-/
inductive Instruction where
  | encode (tag : Text)
  | decode (tag : Text)
  | protect
deriving DecidableEq, Repr

namespace Instruction

/- The operation of an instruction. -/
def operation : Instruction → Operation
  | encode _ => .encode
  | decode _ => .decode
  | protect => .protect

/- The tag of an instruction, if its operation takes one. -/
def tag? : Instruction → Option Text
  | encode tag => some tag
  | decode tag => some tag
  | protect => none

/- The instruction that undoes an instruction. -/
def inverse : Instruction → Instruction
  | encode tag => decode tag
  | decode tag => encode tag
  | protect => protect

/- The text of an instruction. -/
def text : Instruction → Text
  | encode tag => Operation.encode.selector :: tag
  | decode tag => Operation.decode.selector :: tag
  | protect => [Operation.protect.selector]

theorem inverse_inverse (instruction : Instruction) :
    instruction.inverse.inverse = instruction := by
  cases instruction <;> rfl

end Instruction

------------------------------------------------------------
-- Rejections
------------------------------------------------------------

/- Why a text is no instruction. -/
inductive Rejection where
  | emptyToken
  | unknownOperation (c : Char)
  | missingCodec (operation : Operation)
deriving DecidableEq, Repr

/- The cause in words. -/
def Rejection.message : Rejection → String
  | emptyToken => "empty instruction token"
  | unknownOperation c =>
      s!"invalid operation '{c}' (expected E, D or P)"
  | missingCodec operation =>
      s!"operation '{operation.selector}' needs a codec id"

------------------------------------------------------------
-- Tokens
------------------------------------------------------------

/-
  A token is its text together with its position in a chain
  and what the text means.
-/
inductive Token where
  | accepted (position : Nat) (raw : Text) (instruction : Instruction)
  | rejected (position : Nat) (raw : Text) (cause : Rejection)
deriving DecidableEq, Repr

namespace Token

/- The position of a token in its chain. -/
def position : Token → Nat
  | accepted position _ _ => position
  | rejected position _ _ => position

/- The text of a token. -/
def raw : Token → Text
  | accepted _ raw _ => raw
  | rejected _ raw _ => raw

/- The instruction of a token, if it is one. -/
def instruction? : Token → Option Instruction
  | accepted _ _ instruction => some instruction
  | rejected _ _ _ => none

/- A token that is no instruction. -/
def isRejected : Token → Bool
  | accepted _ _ _ => false
  | rejected _ _ _ => true

/-
  The token of a text at a position. The first character
  selects the operation; what follows it is the tag of a
  codec, and is not looked at where no codec is needed.
-/
def read (position : Nat) (raw : Text) : Token :=
  match raw with
  | [] => rejected position raw .emptyToken
  | c :: tag =>
      match Operation.ofSelector? c with
      | none => rejected position raw (.unknownOperation c)
      | some .protect => accepted position raw .protect
      | some .encode =>
          if tag.isEmpty then
            rejected position raw (.missingCodec .encode)
          else
            accepted position raw (.encode tag)
      | some .decode =>
          if tag.isEmpty then
            rejected position raw (.missingCodec .decode)
          else
            accepted position raw (.decode tag)

/- A token keeps its position. -/
@[simp]
theorem position_read
    (position : Nat)
    (t : Text) :
    (read position t).position = position := by
  unfold read
  repeat' split
  all_goals rfl

/- A token keeps its text. -/
@[simp]
theorem raw_read
    (position : Nat)
    (t : Text) :
    (read position t).raw = t := by
  unfold read
  repeat' split
  all_goals rfl

end Token

end CodecChain
