import CodecChain.Hex

/-
  This file defines base64 text with the standard alphabet
  and canonical padding. Reading accepts only what writing
  produces; the faults come in a fixed order.

  Key definitions include:
    * `Base64.ofBytes`
    * `Base64.Fault`
    * `Base64.toBytes`
-/

namespace CodecChain.Base64

------------------------------------------------------------
-- Alphabet
------------------------------------------------------------

/- The symbol of a number below sixty-four. -/
def symbol (n : Nat) : Char :=
  if n < 26 then Char.ofNat ('A'.toNat + n)
  else if n < 52 then Char.ofNat ('a'.toNat + (n - 26))
  else if n < 62 then Char.ofNat ('0'.toNat + (n - 52))
  else if n = 62 then '+'
  else '/'

/- The number of a symbol. -/
def value? (b : UInt8) : Option Nat :=
  let n := b.toNat
  if 'A'.toNat ≤ n ∧ n ≤ 'Z'.toNat then
    some (n - 'A'.toNat)
  else if 'a'.toNat ≤ n ∧ n ≤ 'z'.toNat then
    some (n - 'a'.toNat + 26)
  else if '0'.toNat ≤ n ∧ n ≤ '9'.toNat then
    some (n - '0'.toNat + 52)
  else if n = '+'.toNat then
    some 62
  else if n = '/'.toNat then
    some 63
  else
    none

/- The byte that fills up the last group. -/
def padding : UInt8 :=
  0x3d

------------------------------------------------------------
-- Writing
------------------------------------------------------------

/- Four symbols for every three bytes, the last group filled. -/
def ofBytes : List UInt8 → Text
  | [] => []
  | [a] =>
      [symbol (a.toNat / 4),
        symbol (a.toNat % 4 * 16), '=', '=']
  | [a, b] =>
      [symbol (a.toNat / 4),
        symbol (a.toNat % 4 * 16 + b.toNat / 16),
        symbol (b.toNat % 16 * 4), '=']
  | a :: b :: c :: rest =>
      symbol (a.toNat / 4) ::
      symbol (a.toNat % 4 * 16 + b.toNat / 16) ::
      symbol (b.toNat % 16 * 4 + c.toNat / 64) ::
      symbol (c.toNat % 64) :: ofBytes rest

------------------------------------------------------------
-- Faults
------------------------------------------------------------

/- What can be wrong with base64 text. -/
inductive Fault where
  | badByte (b : UInt8) (offset : Nat)
  | badLength (length : Nat)
  | badPadding
  | looseBits (b : UInt8) (offset : Nat)
deriving DecidableEq, Repr

namespace Fault

/- The byte of the text at which the fault lies, if at one. -/
def offset? : Fault → Option Nat
  | badByte _ offset => some offset
  | badLength _ => none
  | badPadding => none
  | looseBits _ offset => some offset

/- The fault in words. -/
def reason : Fault → String
  | badByte b _ =>
      s!"invalid base64 byte 0x{(Hex.ofByte b).asString}"
  | badLength length =>
      s!"invalid base64: Invalid input length: {length}"
  | badPadding =>
      "invalid base64: Invalid padding"
  | looseBits b _ =>
      s!"invalid trailing base64 symbol 0x{(Hex.ofByte b).asString}"

end Fault

------------------------------------------------------------
-- Reading
------------------------------------------------------------

/-
  The number of bytes in the last group, which is a whole
  group or what is left over from the groups of four.
-/
def lastSize (length : Nat) : Nat :=
  if length % 4 = 0 then min 4 length else length % 4

/-
  A byte left over alone after the groups of four is refused
  before all else if it could not begin a group.
-/
def checkLeftover (bytes : List UInt8) : Except Fault Unit :=
  match bytes.getLast? with
  | none => .ok ()
  | some b =>
      if bytes.length % 4 = 1 ∧ value? b = none ∧ b ≠ padding then
        .error (.badByte b (bytes.length - 1))
      else
        .ok ()

/-
  The numbers of symbols that must all be in the alphabet,
  the first of which lies at the given offset.
-/
def values (offset : Nat) : List UInt8 → Except Fault (List Nat)
  | [] => .ok []
  | b :: bytes =>
      match value? b with
      | none => .error (.badByte b offset)
      | some n => do
          let ns ← values (offset + 1) bytes
          pure (n :: ns)

/-
  The numbers of the symbols of the last group. Padding
  stands in the third or fourth place, and nothing but
  padding follows it: a symbol after padding is held against
  the first padding byte, whose place is carried along.
-/
def lastValues
    (start : Nat)
    (place : Nat)
    (padded : Option Nat) :
    List UInt8 → Except Fault (List Nat)
  | [] => .ok []
  | b :: bytes =>
      if b = padding then
        if place < 2 then
          .error (.badByte b (start + place))
        else
          lastValues start (place + 1)
            (padded.or (some place)) bytes
      else
        match padded, value? b with
        | some first, _ =>
            .error (.badByte padding (start + first))
        | none, none =>
            .error (.badByte b (start + place))
        | none, some n => do
            let ns ← lastValues start (place + 1) none bytes
            pure (n :: ns)

/-
  The bits of the last symbol that belong to no byte, as the
  remainder of its number.
-/
def looseValue : List Nat → Nat
  | [_, n] => n % 16
  | [_, _, n] => n % 4
  | _ => 0

/- The bytes of six-bit numbers; bits left over are dropped. -/
def assemble : List Nat → List UInt8
  | a :: b :: c :: d :: rest =>
      UInt8.ofNat (a * 4 + b / 16) ::
      UInt8.ofNat (b % 16 * 16 + c / 4) ::
      UInt8.ofNat (c % 4 * 64 + d) :: assemble rest
  | [a, b, c] =>
      [UInt8.ofNat (a * 4 + b / 16),
        UInt8.ofNat (b % 16 * 16 + c / 4)]
  | [a, b] => [UInt8.ofNat (a * 4 + b / 16)]
  | _ => []

/- The bytes of base64 text that is itself given as bytes. -/
def ofSymbols (bytes : List UInt8) : Except Fault (List UInt8) := do
  checkLeftover bytes
  let start := bytes.length - lastSize bytes.length
  let last := bytes.drop start
  let front ← values 0 (bytes.take start)
  let final ← lastValues start 0 none last
  if last ≠ [] ∧ final.length < 2 then
    .error (.badLength (start + final.length))
  else if last.length % 4 ≠ 0 then
    .error .badPadding
  else if looseValue final ≠ 0 then
    .error (.looseBits
      (last.getD (final.length - 1) 0)
      (start + (final.length - 1)))
  else
    pure (assemble (front ++ final))

/- The bytes of base64 text. -/
def toBytes (t : Text) : Except Fault (List UInt8) :=
  ofSymbols (Utf8.encode t)

end CodecChain.Base64
