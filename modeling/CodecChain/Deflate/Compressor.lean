import CodecChain.Deflate.Fixed
import CodecChain.Deflate.Stream

/-
  This file defines what is relied on of a compressor. How it
  finds repetitions, and what it makes of them, is its own
  matter.

  Key definitions include:
    * `Deflate.IsPlain`
    * `Compressor`
-/

namespace CodecChain

namespace Deflate

------------------------------------------------------------
-- Plain Bytes
------------------------------------------------------------

/- The sequences of three bytes within bytes, in order. -/
def trigrams : List UInt8 → List (UInt8 × UInt8 × UInt8)
  | a :: b :: c :: rest => (a, b, c) :: trigrams (b :: c :: rest)
  | _ => []

/- The size up to which bytes can be plain. -/
def plainSize : Nat :=
  31

/-
  Bytes are plain when they are few and no three of them in
  sequence come twice.
-/
def IsPlain (bytes : List UInt8) : Prop :=
  bytes.length ≤ plainSize ∧ (trigrams bytes).Nodup

instance (bytes : List UInt8) : Decidable (IsPlain bytes) := by
  unfold IsPlain
  infer_instance

end Deflate

------------------------------------------------------------
-- Compressors
------------------------------------------------------------

/-
  A way to compress bytes. What is written is one stream that
  holds the bytes, and the literal form of those that are
  plain.
-/
class Compressor where
  compress : List UInt8 → List UInt8
  inflate_compress :
    ∀ bytes, Deflate.inflate (compress bytes) = .ok (bytes, [])
  compress_of_isPlain :
    ∀ bytes, Deflate.IsPlain bytes →
      compress bytes = Deflate.literalForm bytes

end CodecChain
