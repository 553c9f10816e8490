/-
  This file defines the contents of compressed data without
  their codes: bytes that stand for themselves, and copies of
  what came before.

  Key definitions include:
    * `Deflate.Item`
    * `Deflate.expand`

  Main statements:
    * `expand_literals`: literal bytes expand to themselves.
-/

namespace CodecChain.Deflate

------------------------------------------------------------
-- Items
------------------------------------------------------------

/-
  An item of compressed data. A copy repeats as many bytes as
  its length from as far back as its distance.
-/
inductive Item where
  | literal (b : UInt8)
  | copy (length distance : Nat)
deriving DecidableEq, Repr

------------------------------------------------------------
-- Expansion
------------------------------------------------------------

/-
  The byte at a distance before the end of what has been
  written. Before the beginning all bytes are zero.
-/
def byteBefore
    (written : Array UInt8)
    (distance : Nat) : UInt8 :=
  if distance ≤ written.size then
    written.getD (written.size - distance) 0
  else
    0

/- Write a copy byte by byte, so that it may overlap itself. -/
def copyBytes
    (distance : Nat) : Nat → Array UInt8 → Array UInt8
  | 0, written => written
  | length + 1, written =>
      copyBytes distance length
        (written.push (byteBefore written distance))

/- Write an item after what has been written. -/
def write
    (written : Array UInt8) : Item → Array UInt8
  | .literal b => written.push b
  | .copy length distance => copyBytes distance length written

/- The bytes that items stand for. -/
def expand (items : List Item) : List UInt8 :=
  (items.foldl write #[]).toList

/- Literal bytes expand to themselves. -/
theorem expand_literals (bytes : List UInt8) :
    expand (bytes.map .literal) = bytes := by
  have h :
      ∀ (rest : List UInt8) (written : Array UInt8),
        ((rest.map Item.literal).foldl write written).toList =
          written.toList ++ rest := by
    intro rest
    induction rest with
    | nil => simp
    | cons b bs ih =>
        intro written
        simp [write, ih]
  simpa [expand] using h bytes #[]

end CodecChain.Deflate
