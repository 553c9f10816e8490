import CodecChain.Gzip.Member
import CodecChain.Proofs.Result
import CodecChain.Proofs.Deflate.Stable

/-
  Compressed files are read as the content they were made of,
  and bytes after them are left alone.

  Main statements:
    * `Gzip.decompress_compress_append`
-/

namespace CodecChain

namespace Gzip

------------------------------------------------------------
-- Parts of Files
------------------------------------------------------------

/- As many bytes as asked for are split off. -/
theorem takeBytes_append
    {n : Nat}
    {front : List UInt8}
    (rest : List UInt8)
    (h : front.length = n) :
    takeBytes n (front ++ rest) = .ok (front, rest) := by
  subst h
  rw [takeBytes, List.take_left, List.drop_left]
  exact if_neg (Nat.lt_irrefl _)

theorem length_bytesOf (k n : Nat) :
    (bytesOf k n).length = k := by
  induction k generalizing n with
  | zero => rfl
  | succ k ih => rw [bytesOf, List.length_cons, ih]

theorem length_trailer (content : List UInt8) :
    (trailer content).length = trailerSize := by
  rw [trailer, List.length_append, length_bytesOf,
    length_bytesOf]
  rfl

/- The header has no fields to be skipped. -/
theorem skipHeader_header_append (bytes : List UInt8) :
    skipHeader (header ++ bytes) = .ok bytes := by
  have hFlags : (header.getD 3 0).toNat = 0 := rfl
  have hStart :
      takeBytes 10 (header ++ bytes) = .ok (header, bytes) :=
    takeBytes_append bytes rfl
  simp only [skipHeader, bind, Except.bind, hStart, hFlags,
    true_and]
  rfl

------------------------------------------------------------
-- Round Trip
------------------------------------------------------------

/- What is compressed is read as what it was. -/
theorem decompress_compress_append
    [Compressor]
    (content rest : List UInt8) :
    decompress (compress content ++ rest) =
      .ok (content, rest) := by
  have hStream := Compressor.inflate_append content
    (trailer content ++ rest)
  have hTrailer := takeBytes_append rest
    (length_trailer content)
  simp only [compress, List.append_assoc, decompress,
    skipHeader_header_append, bind, Except.bind, hStream,
    ofStream, Except.mapError_ok, hTrailer, if_true]
  rfl

end Gzip

end CodecChain
