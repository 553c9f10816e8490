import CodecChain.Deflate.Compressor
import CodecChain.Gzip.Crc32

/-
  This file defines compressed files of one member: a header
  with optional fields, a compressed stream, and a trailer
  that holds the check value and the size of the content.

  Key definitions include:
    * `Gzip.Fault`
    * `Gzip.header`
    * `Gzip.trailer`
    * `Gzip.compress`
    * `Gzip.skipHeader`
    * `Gzip.decompress`
-/

namespace CodecChain.Gzip

------------------------------------------------------------
-- Numbers
------------------------------------------------------------

/- The bytes of a number of the given width, low byte first. -/
def bytesOf : Nat → Nat → List UInt8
  | 0, _ => []
  | k + 1, n => UInt8.ofNat (n % 256) :: bytesOf k (n / 256)

/- The number of bytes given low byte first. -/
def numberOf : List UInt8 → Nat
  | [] => 0
  | b :: bytes => b.toNat + 256 * numberOf bytes

------------------------------------------------------------
-- Writing
------------------------------------------------------------

/- The header without optional fields, time or system. -/
def header : List UInt8 :=
  [0x1f, 0x8b, 8, 0, 0, 0, 0, 0, 0, 0xff]

/- The check value and the size of the content. -/
def trailer (content : List UInt8) : List UInt8 :=
  bytesOf 4 (crc32 content).toNat ++ bytesOf 4 content.length

/- The number of bytes of a trailer. -/
def trailerSize : Nat :=
  8

/- The compressed content between header and trailer. -/
def compress
    [Compressor]
    (content : List UInt8) : List UInt8 :=
  header ++ Compressor.compress content ++ trailer content

------------------------------------------------------------
-- Faults
------------------------------------------------------------

/- What can be wrong with a compressed file. -/
inductive Fault where
  | endOfFile
  | badHeader
  | longField
  | badChecksum
  | stream (f : Deflate.Fault)
deriving DecidableEq, Repr

/- The fault in words. -/
def Fault.reason : Fault → String
  | endOfFile => "unexpected end of file"
  | badHeader => "invalid gzip header"
  | longField => "gzip header field too long"
  | badChecksum =>
      "corrupt gzip stream does not have a matching checksum"
  | stream f => f.reason

------------------------------------------------------------
-- Header
------------------------------------------------------------

/- Split off bytes of the given number. -/
def takeBytes
    (n : Nat)
    (bytes : List UInt8) :
    Except Fault (List UInt8 × List UInt8) :=
  let taken := bytes.take n
  if taken.length < n then
    .error .endOfFile
  else
    .ok (taken, bytes.drop n)

/- The most bytes of a name or a comment. -/
def longestField : Nat :=
  65535

/-
  Skip a name or a comment up to the zero byte that ends it,
  of which the given number of bytes may still come.
-/
def skipText : Nat → List UInt8 → Except Fault (List UInt8)
  | _, [] => .error .endOfFile
  | room, b :: bytes =>
      if b = 0 then
        .ok bytes
      else
        match room with
        | 0 => .error .longField
        | room + 1 => skipText room bytes

/- A field of a header is there when its flag is set. -/
def field
    (flags : Nat)
    (flag : Nat)
    (skip : List UInt8 → Except Fault (List UInt8))
    (bytes : List UInt8) : Except Fault (List UInt8) :=
  if flags.testBit flag then skip bytes else .ok bytes

/- Skip the extra field, which begins with its size. -/
def skipExtra (bytes : List UInt8) : Except Fault (List UInt8) := do
  let (size, bytes) ← takeBytes 2 bytes
  let (_, bytes) ← takeBytes (numberOf size) bytes
  pure bytes

/-
  Skip the check value of the header, which must be the low
  half of that of all bytes before it in the file.
-/
def skipCheck
    (file : List UInt8)
    (bytes : List UInt8) : Except Fault (List UInt8) := do
  let (check, rest) ← takeBytes 2 bytes
  let before := file.take (file.length - bytes.length)
  if numberOf check = (crc32 before).toNat % 65536 then
    pure rest
  else
    .error .badChecksum

/- Skip the header at the beginning of a file. -/
def skipHeader (file : List UInt8) : Except Fault (List UInt8) := do
  let (start, bytes) ← takeBytes 10 file
  let flags := (start.getD 3 0).toNat
  if start.take 3 = header.take 3 ∧ flags < 32 then
    let bytes ← field flags 2 skipExtra bytes
    let bytes ← field flags 3 (skipText longestField) bytes
    let bytes ← field flags 4 (skipText longestField) bytes
    field flags 1 (skipCheck file) bytes
  else
    .error .badHeader

------------------------------------------------------------
-- Reading
------------------------------------------------------------

/- The outcome of a compressed stream within a file. -/
def ofStream
    {α : Type}
    (r : Except Deflate.Fault α) : Except Fault α :=
  r.mapError .stream

/-
  The content of the member at the beginning of a file, and
  the bytes that follow it.
-/
def decompress
    (file : List UInt8) :
    Except Fault (List UInt8 × List UInt8) := do
  let bytes ← skipHeader file
  let (content, bytes) ← ofStream (Deflate.inflate bytes)
  let (check, rest) ← takeBytes trailerSize bytes
  if check = trailer content then
    pure (content, rest)
  else
    .error .badChecksum

end CodecChain.Gzip
