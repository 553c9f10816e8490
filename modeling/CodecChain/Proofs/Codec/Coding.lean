import CodecChain.Codec.Coding
import CodecChain.Proofs.Codec.Base64
import CodecChain.Proofs.Codec.Gzip
import CodecChain.Proofs.Codec.Hex
import CodecChain.Proofs.Codec.RunLength

/-
  Encoding and decoding. Every codec decodes what it has
  encoded. Two codecs are strict: they decode nothing else, so
  that encoding undoes their decoding too.

  Key definitions include:
    * `Codec.IsStrict`

  Main statements:
    * `Codec.decode_encode`
    * `Codec.encode_of_decode`
-/

namespace CodecChain

namespace Codec

------------------------------------------------------------
-- Layers
------------------------------------------------------------

theorem textOf_encode
    (codec : Codec)
    (t : Text) :
    codec.textOf (Utf8.encode t) = .ok t := by
  rw [textOf, Utf8.decode_encode]
  rfl

theorem eq_encode_of_textOf
    {codec : Codec}
    {bytes : List UInt8}
    {t : Text}
    (h : codec.textOf bytes = .ok t) :
    bytes = Utf8.encode t :=
  Utf8.decode_eq_ok_iff.mp (Except.mapError_eq_ok_iff.mp h)

theorem base64Bytes_ofBytes
    (codec : Codec)
    (bytes : List UInt8) :
    codec.base64Bytes (Base64.ofBytes bytes) = .ok bytes := by
  rw [base64Bytes, Base64.toBytes_ofBytes]
  rfl

theorem eq_ofBytes_of_base64Bytes
    {codec : Codec}
    {t : Text}
    {bytes : List UInt8}
    (h : codec.base64Bytes t = .ok bytes) :
    t = Base64.ofBytes bytes :=
  Base64.eq_ofBytes_of_toBytes (Except.mapError_eq_ok_iff.mp h)

------------------------------------------------------------
-- Decoding What Is Encoded
------------------------------------------------------------

variable [Compressor]

/- Every codec decodes what it has encoded. -/
theorem decode_encode
    (codec : Codec)
    (t : Text) :
    codec.decode (codec.encode t) = .ok t := by
  cases codec with
  | hex =>
      rw [encode, decode, Hex.toBytes_ofBytes]
      exact textOf_encode hex t
  | base64 =>
      rw [encode, decode, base64Bytes_ofBytes]
      exact textOf_encode base64 t
  | gzip =>
      have hFile :=
        Gzip.decompress_compress_append (Utf8.encode t) []
      rw [List.append_nil] at hFile
      rw [encode, decode, base64Bytes_ofBytes]
      simp only [bind, Except.bind, hFile, inflated,
        Except.mapError_ok]
      exact textOf_encode gzip t
  | deflate =>
      have hStream :=
        Compressor.inflate_compress (Utf8.encode t)
      rw [encode, decode, base64Bytes_ofBytes]
      simp only [bind, Except.bind, hStream, inflated,
        Gzip.ofStream, Except.mapError_ok]
      exact textOf_encode deflate t
  | runLength =>
      rw [encode, decode, RunLength.decode_encode]
      rfl

------------------------------------------------------------
-- Encoding What Is Decoded
------------------------------------------------------------

/- Strict codecs decode only what they encode. -/
def IsStrict : Codec → Prop
  | base64 | runLength => True
  | hex | gzip | deflate => False

instance (codec : Codec) : Decidable codec.IsStrict := by
  cases codec <;> unfold IsStrict <;> infer_instance

/- A strict codec encodes what it has decoded. -/
theorem encode_of_decode
    {codec : Codec}
    {s t : Text}
    (hStrict : codec.IsStrict)
    (h : codec.decode t = .ok s) :
    codec.encode s = t := by
  cases codec with
  | hex => exact hStrict.elim
  | gzip => exact hStrict.elim
  | deflate => exact hStrict.elim
  | base64 =>
      rcases Except.bind_eq_ok_iff.mp h with
        ⟨bytes, hBytes, hDecoded⟩
      rw [encode, ← eq_encode_of_textOf hDecoded]
      exact (eq_ofBytes_of_base64Bytes hBytes).symm
  | runLength =>
      exact (RunLength.eq_encode_of_decode
        (Except.mapError_eq_ok_iff.mp h)).symm

end Codec

end CodecChain
