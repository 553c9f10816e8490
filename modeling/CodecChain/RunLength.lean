import CodecChain.Text.Quoted

/-
  This file defines run-length text: each run of one
  character is its length as one digit and the character.
  Longer runs than nine are written as several, all but the
  last of length nine. Reading accepts only what writing
  produces.

  Key definitions include:
    * `RunLength.encode`
    * `RunLength.Fault`
    * `RunLength.decode`
-/

namespace CodecChain.RunLength

/- The longest run that one digit can count. -/
def longest : Nat :=
  9

------------------------------------------------------------
-- Writing
------------------------------------------------------------

/- The digit of a run's length. -/
def count (n : Nat) : Char :=
  Char.ofNat ('0'.toNat + n)

/-
  The runs of a text that follows the given number of
  occurrences of a character, which are not yet written.
-/
def encodeAfter
    (c : Char)
    (n : Nat) : Text → Text
  | [] => [count n, c]
  | d :: ds =>
      if d = c ∧ n < longest then
        encodeAfter c (n + 1) ds
      else
        count n :: c :: encodeAfter d 1 ds

/- The runs of a text. -/
def encode : Text → Text
  | [] => []
  | c :: cs => encodeAfter c 1 cs

------------------------------------------------------------
-- Faults
------------------------------------------------------------

/- What can be wrong with a pair of run-length text. -/
inductive Cause where
  | zeroCount
  | noDigit (c : Char)
  | noCharacter
  | splitRun (c : Char)
deriving DecidableEq, Repr

/- The cause in words. -/
def Cause.reason : Cause → String
  | zeroCount => "zero run count"
  | noDigit c =>
      s!"expected a count digit, found {(Quoted.char c).asString}"
  | noCharacter => "count without a character"
  | splitRun c =>
      s!"run of {(Quoted.char c).asString} continues after a count below {longest}"

/- A fault lies at the count of a pair, in characters. -/
structure Fault where
  offset : Nat
  cause : Cause
deriving DecidableEq, Repr

------------------------------------------------------------
-- Reading
------------------------------------------------------------

/- The length that a digit counts. -/
def length? (c : Char) : Option Nat :=
  if '0'.toNat ≤ c.toNat ∧ c.toNat ≤ '9'.toNat then
    some (c.toNat - '0'.toNat)
  else
    none

/- The length that a count gives, which is not zero. -/
def readCount (c : Char) : Except Cause Nat :=
  match length? c with
  | none => .error (.noDigit c)
  | some 0 => .error .zeroCount
  | some n => .ok n

/-
  A run may repeat the character of the run before it only
  if that one is as long as runs can be.
-/
def continues
    (previous : Option (Char × Nat))
    (c : Char) : Bool :=
  match previous with
  | none => false
  | some (d, n) => d = c && n < longest

/-
  The text of pairs that follow the given run and begin at
  the given offset.
-/
def decodeAfter
    (offset : Nat)
    (previous : Option (Char × Nat)) :
    Text → Except Fault Text
  | [] => .ok []
  | [digit] =>
      match readCount digit with
      | .error cause => .error ⟨offset, cause⟩
      | .ok _ => .error ⟨offset, .noCharacter⟩
  | digit :: c :: rest =>
      match readCount digit with
      | .error cause => .error ⟨offset, cause⟩
      | .ok n =>
          if continues previous c then
            .error ⟨offset, .splitRun c⟩
          else do
            let t ← decodeAfter (offset + 2) (some (c, n)) rest
            pure (List.replicate n c ++ t)

/- The text of run-length text. -/
def decode (t : Text) : Except Fault Text :=
  decodeAfter 0 none t

end CodecChain.RunLength
