import CodecChain.Deflate.Compressor
import CodecChain.Deflate.Search

/-
  This file defines a compression of bytes by a search for
  repetitions. A proposal is taken only if it expands to the
  bytes, so that the result holds them whatever the proposal
  is.

  Key definitions include:
    * `Deflate.itemsOf`
    * `Deflate.deflate`

  Main statements:
    * `expand_itemsOf`: the chosen items expand to the bytes.
    * `itemsOf_of_isPlain`: short bytes without a repetition
      are all literals.
-/

namespace CodecChain.Deflate

------------------------------------------------------------
-- Choice of Items
------------------------------------------------------------

/-
  The items for bytes: literals where nothing is to be gained
  or the proposal fails, and otherwise the proposal.
-/
def itemsOf (bytes : List UInt8) : List Item :=
  if IsPlain bytes then
    bytes.map .literal
  else
    let items := propose bytes
    if (∀ item ∈ items, item.Fits) ∧ expand items = bytes then
      items
    else
      bytes.map .literal

/- The compressed form of bytes. -/
def deflate (bytes : List UInt8) : List UInt8 :=
  streamOf (itemsOf bytes)

/- The chosen items expand to the bytes. -/
theorem expand_itemsOf (bytes : List UInt8) :
    expand (itemsOf bytes) = bytes := by
  unfold itemsOf
  split
  · exact expand_literals bytes
  · dsimp only
    split
    · rename_i h
      exact h.2
    · exact expand_literals bytes

/- The chosen items can be written. -/
theorem fits_of_mem_itemsOf
    {bytes : List UInt8}
    {item : Item}
    (hItem : item ∈ itemsOf bytes) :
    item.Fits := by
  have hLiterals :
      item ∈ bytes.map Item.literal → item.Fits := by
    intro h
    obtain ⟨b, _, rfl⟩ := List.mem_map.mp h
    trivial
  unfold itemsOf at hItem
  split at hItem
  · exact hLiterals hItem
  · dsimp only at hItem
    split at hItem
    · rename_i h
      exact h.1 item hItem
    · exact hLiterals hItem

/- Plain bytes are written as literals. -/
theorem itemsOf_of_isPlain
    {bytes : List UInt8}
    (h : IsPlain bytes) :
    itemsOf bytes = bytes.map .literal := by
  simp [itemsOf, h]

end CodecChain.Deflate
