import CodecChain.Deflate.Compress
import CodecChain.Proofs.Deflate.Fixed

/-
  The compressor that searches for repetitions. What it writes
  is one block of items that expand to the bytes.

  Key definitions include:
    * `Deflate.searching`

  Main statements:
    * `Deflate.inflate_deflate`
    * `Deflate.deflate_of_isPlain`
-/

namespace CodecChain

namespace Deflate

/- What is compressed inflates to what it was. -/
theorem inflate_deflate (bytes : List UInt8) :
    inflate (deflate bytes) = .ok (bytes, []) := by
  have hFits : ∀ item ∈ itemsOf bytes, item.Fits :=
    fun _ hItem => fits_of_mem_itemsOf hItem
  have hStream := inflate_streamOf_append [] hFits
  rwa [List.append_nil, expand_itemsOf] at hStream

/- Plain bytes are compressed to their literal form. -/
theorem deflate_of_isPlain
    {bytes : List UInt8}
    (h : IsPlain bytes) :
    deflate bytes = literalForm bytes := by
  rw [deflate, itemsOf_of_isPlain h]
  rfl

/- The compressor that searches for repetitions. -/
instance searching : Compressor where
  compress := deflate
  inflate_compress := inflate_deflate
  compress_of_isPlain _ h := deflate_of_isPlain h

end Deflate

end CodecChain
