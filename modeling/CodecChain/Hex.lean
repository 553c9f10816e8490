import CodecChain.Text.Utf8
import CodecChain.Text.Quoted

/-
  This file defines hexadecimal text: two digits a byte, in
  capitals when written and in either case when read.

  Digits are read as bytes. The character of a text at which
  they are wrong is looked up by the byte that is none.

  Key definitions include:
    * `Hex.ofBytes`
    * `Hex.ofDigits`
    * `Hex.charAt`
    * `Hex.toBytes`
-/

namespace CodecChain.Hex

------------------------------------------------------------
-- Writing
------------------------------------------------------------

/- The digit of a number below sixteen. -/
def digit (n : Nat) : Char :=
  if n < 10 then
    Char.ofNat ('0'.toNat + n)
  else
    Char.ofNat ('A'.toNat + (n - 10))

/- The two digits of a byte. -/
def ofByte (b : UInt8) : Text :=
  [digit (b.toNat / 16), digit (b.toNat % 16)]

/- The digits of bytes. -/
def ofBytes (bytes : List UInt8) : Text :=
  bytes.flatMap ofByte

------------------------------------------------------------
-- Reading
------------------------------------------------------------

/- The number of a digit, in either case. -/
def value? (b : UInt8) : Option Nat :=
  let n := b.toNat
  if '0'.toNat ≤ n ∧ n ≤ '9'.toNat then
    some (n - '0'.toNat)
  else if 'A'.toNat ≤ n ∧ n ≤ 'F'.toNat then
    some (n - 'A'.toNat + 10)
  else if 'a'.toNat ≤ n ∧ n ≤ 'f'.toNat then
    some (n - 'a'.toNat + 10)
  else
    none

/- What can be wrong with the bytes of hexadecimal text. -/
inductive ByteFault where
  | oddLength
  | badByte (index : Nat)
deriving DecidableEq, Repr

/- The number of the digit that lies at the given index. -/
def valueAt (index : Nat) (b : UInt8) : Except ByteFault Nat :=
  match value? b with
  | some n => .ok n
  | none => .error (.badByte index)

/-
  The bytes of pairs of digits, the first of which lies at
  the given index.
-/
def pairs
    (index : Nat) : List UInt8 → Except ByteFault (List UInt8)
  | [] => .ok []
  | [_] => .error .oddLength
  | b :: c :: rest => do
      let high ← valueAt index b
      let low ← valueAt (index + 1) c
      let bytes ← pairs (index + 2) rest
      pure (UInt8.ofNat (high * 16 + low) :: bytes)

/-
  The bytes of digits. Their number is looked at before they
  are.
-/
def ofDigits
    (digits : List UInt8) : Except ByteFault (List UInt8) :=
  if digits.length % 2 = 1 then
    .error .oddLength
  else
    pairs 0 digits

------------------------------------------------------------
-- Texts of Digits
------------------------------------------------------------

/- What can be wrong with hexadecimal text. -/
inductive Fault where
  | oddLength (length : Nat)
  | badDigit (c : Char) (offset : Nat)
deriving DecidableEq, Repr

namespace Fault

/- The byte of the text at which the fault lies. -/
def offset : Fault → Nat
  | oddLength length => length - 1
  | badDigit _ offset => offset

/- The fault in words. -/
def reason : Fault → String
  | oddLength length =>
      s!"odd number of hex digits ({length})"
  | badDigit c _ =>
      s!"invalid hex character {(Quoted.char c).asString}"

end Fault

/-
  The characters of a text that begins at the given byte, each
  with the byte at which it begins.
-/
def charIndices (start : Nat) : Text → List (Nat × Char)
  | [] => []
  | c :: t =>
      (start, c) :: charIndices (start + (Utf8.encodeChar c).length) t

/-
  The character that covers the byte at an index: the last of
  those that begin there or before.
-/
def charAt (t : Text) (index : Nat) : Char :=
  let before :=
    (charIndices 0 t).takeWhile fun (start, _) => start ≤ index
  match before.getLast? with
  | some (_, c) => c
  | none => Char.ofNat 0xfffd

/- What is wrong with a text, given what is with its bytes. -/
def faultOf (t : Text) : ByteFault → Fault
  | .oddLength => .oddLength (Utf8.size t)
  | .badByte index => .badDigit (charAt t index) index

/- The bytes of hexadecimal text. -/
def toBytes (t : Text) : Except Fault (List UInt8) :=
  (ofDigits (Utf8.encode t)).mapError (faultOf t)

end CodecChain.Hex
