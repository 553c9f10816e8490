import CodecChain.Deflate.Block

/-
  This file defines the reading of a whole stream of
  compressed data, which is a sequence of blocks that closes
  with a final one.

  Key definitions include:
    * `Deflate.readBlocks`
    * `Deflate.inflate`
-/

namespace CodecChain.Deflate

/-
  Take blocks up to the final one, after the items taken
  before: all items, the last one first.
-/
def readBlocks
    (before : List Item)
    (s : Bits) : Except Fault (List Item × Bits) :=
  match _h : readBlock before s with
  | .error f => .error f
  | .ok ((true, items), rest) => .ok (items, rest)
  | .ok ((false, items), rest) => readBlocks items rest
termination_by s.size
decreasing_by
  have := readBlock_uses before s _ _ _h
  omega

/-
  The content of the stream at the beginning of bytes, and
  the bytes that follow the stream. Bits that are left of the
  stream's last byte do not count.
-/
def inflate
    (bytes : List UInt8) : Except Fault (List UInt8 × List UInt8) := do
  let (items, rest) ← readBlocks [] (.ofBytes bytes)
  pure (expand items.reverse, rest.bytes)

end CodecChain.Deflate
