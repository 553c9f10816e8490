import CodecChain.Deflate.Block

/-
  This file defines the writing of items as a stream of one
  block under the fixed codes.

  Key definitions include:
    * `Deflate.entryOf?`
    * `Deflate.Item.Fits`
    * `Deflate.Item.bits`
    * `Deflate.streamOf`
    * `Deflate.literalForm`
-/

namespace CodecChain.Deflate

------------------------------------------------------------
-- Entries
------------------------------------------------------------

/-
  The last entry of a table that describes a number: the
  place of the entry, its width, and what is to be added to
  its least number.
-/
def entryOf?
    (table : List (Nat × Nat))
    (n : Nat) : Option (Nat × Nat × Nat) :=
  (table.zipIdx.reverse.find? fun ((least, width), _) =>
    least ≤ n && n < least + Nat.pow 2 width).map
      fun ((least, width), place) => (place, width, n - least)

namespace Item

/- An item that blocks with codes can hold. -/
def Fits : Item → Prop
  | literal _ => True
  | copy length distance =>
      (entryOf? lengthTable length).isSome ∧
        (entryOf? distanceTable distance).isSome

instance (item : Item) : Decidable item.Fits := by
  cases item <;> unfold Fits <;> infer_instance

------------------------------------------------------------
-- Bits of Items
------------------------------------------------------------

/-
  The word of an entry's symbol, and the number that follows
  it. Symbols count from the given one on.
-/
def entryBits
    (code : Code)
    (first : Nat)
    (entry : Option (Nat × Nat × Nat)) : List Bool :=
  match entry with
  | none => []
  | some (place, width, more) =>
      code.word (first + place) ++ bitsOf width more

/- The bits of an item under the given codes. -/
def bits (codes : Codes) : Item → List Bool
  | literal b => codes.literals.word b.toNat
  | copy length distance =>
      entryBits codes.literals firstLength
        (entryOf? lengthTable length) ++
      entryBits codes.distances 0
        (entryOf? distanceTable distance)

end Item

------------------------------------------------------------
-- Streams
------------------------------------------------------------

/- The mark of the final block, and the kind of fixed codes. -/
def fixedHeader : List Bool :=
  [true] ++ bitsOf 2 1

/- The bits of items in one final block of fixed codes. -/
def streamBits (items : List Item) : List Bool :=
  fixedHeader ++
    items.flatMap (Item.bits .fixed) ++
    Codes.fixed.literals.word endOfBlock

/- The bytes of items in one final block of fixed codes. -/
def streamOf (items : List Item) : List UInt8 :=
  pack (streamBits items)

/- The stream that holds every byte as a literal. -/
def literalForm (bytes : List UInt8) : List UInt8 :=
  streamOf (bytes.map .literal)

end CodecChain.Deflate
